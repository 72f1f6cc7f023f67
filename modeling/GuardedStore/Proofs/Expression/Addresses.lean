import GuardedStore.Proofs.Expression.Following
import GuardedStore.Proofs.Value.Likeness

/-! # Records in heaps that mirror each other

The addresses in the value of a slot are found as the value is, by following addresses until one comes
again. Twins have linked addresses in the same places. As links relate every address to one address at
most, twins share what they hold in the same places, and the records in them look alike.
-/

namespace GuardedStore.Expression

open Record (AlikeBut)

namespace Heap

theorem addressesTo_depth {heap : Heap} {around : List Nat} (unique : around.Nodup)
    (inside : ∀ address ∈ around, address < heap.nodes.size) {depth depth' : Nat}
    (enough : heap.nodes.size < depth + around.length)
    (enough' : heap.nodes.size < depth' + around.length) (slot : Slot) :
    heap.addressesTo depth around slot = heap.addressesTo depth' around slot := by
  induction depth generalizing around depth' slot with
  | zero =>
      have few := Reading.length_le_of_inside unique inside
      omega
  | succ depth ih =>
      cases depth' with
      | zero =>
          have few := Reading.length_le_of_inside unique inside
          omega
      | succ depth' =>
          cases slot with
          | plain v => rfl
          | shared address =>
              simp only [addressesTo]
              split
              · rfl
              · rename_i again
                cases found : heap.node? address with
                | none => rfl
                | some node =>
                    have new : (address :: around).Nodup :=
                      List.nodup_cons.mpr ⟨by simpa using again, unique⟩
                    have inner : ∀ other ∈ address :: around, other < heap.nodes.size := by
                      simpa [Heap.inside_of_node? found] using inside
                    have parts : heap.addressesTo depth (address :: around) =
                        heap.addressesTo depth' (address :: around) :=
                      funext (ih new inner (by simp; omega) (by simp; omega))
                    cases node <;> simp only [parts]

theorem addresses_eq {heap : Heap} {depth : Nat} (enough : heap.nodes.size < depth) (slot : Slot) :
    heap.addresses slot = heap.addressesTo depth [] slot :=
  addressesTo_depth .nil (List.forall_mem_nil _) (Nat.lt_succ_self _) enough slot

end Heap

variable {kept : Nat → Option Node} {link : Link} {heap heap' : Heap} {slot slot' : Slot}
  {fields fields' : Entries Slot}

namespace Mirrors

theorem addressesTo_linked (m : Mirrors kept link heap heap') (depth : Nat)
    {around around' : List Nat} (linked : List.Forall₂ link around around')
    (twin : Twin link slot slot') :
    List.Forall₂ link (heap.addressesTo depth around slot)
      (heap'.addressesTo depth around' slot') := by
  induction depth generalizing around around' slot slot' with
  | zero => cases twin <;> exact .nil
  | succ depth ih =>
      cases twin with
      | plain v => exact .nil
      | @shared a b here =>
          obtain ⟨node, node', found, found', twins⟩ := m.twins here
          simp only [Heap.addressesTo, m.contains_eq linked here]
          split
          · exact .cons here .nil
          · simp only [found, found']
            have inner : List.Forall₂ link (a :: around) (b :: around') := .cons here linked
            cases twins with
            | list twins => exact .cons here (List.rel_flatMap twins fun _ _ twin => ih inner twin)
            | object twins =>
                exact .cons here (List.rel_flatMap twins fun _ _ same => ih inner same.2)

theorem addresses_linked (m : Mirrors kept link heap heap') (twin : Twin link slot slot') :
    List.Forall₂ link (heap.addresses slot) (heap'.addresses slot') := by
  rw [Heap.addresses_eq (Nat.lt_succ_of_le (Nat.le_max_left heap.nodes.size heap'.nodes.size)),
    Heap.addresses_eq (Nat.lt_succ_of_le (Nat.le_max_right heap.nodes.size heap'.nodes.size))]
  exact m.addressesTo_linked _ .nil twin

theorem renumbers (m : Mirrors kept link heap heap') : Value.Renumbers link :=
  m.address_eq_iff

theorem identities_linked (m : Mirrors kept link heap heap') (twins : FieldTwins link fields fields') :
    List.Forall₂ (fun entry entry' => entry.1 = entry'.1 ∧ List.Forall₂ link entry.2 entry'.2)
      (fields.map fun (name, slot) => (name, heap.addresses slot))
      (fields'.map fun (name, slot) => (name, heap'.addresses slot)) := by
  induction twins with
  | nil => exact .nil
  | cons first _ ih => exact .cons ⟨first.1, m.addresses_linked first.2⟩ ih

theorem fields_eq (m : Mirrors kept link heap heap') (twins : FieldTwins link fields fields') :
    (fields.map fun (name, slot) => (name, heap.read slot)) =
      fields'.map fun (name, slot) => (name, heap'.read slot) := by
  induction twins with
  | nil => rfl
  | cons first _ ih => simp only [List.map_cons, first.1, m.read_eq first.2, ih]

end Mirrors

theorem alike_of_linked {R : Nat → Nat → Prop} (renumbers : Value.Renumbers R) {fields : Fields}
    {identities identities' : Entries (List Nat)}
    (linked : List.Forall₂ (fun entry entry' => entry.1 = entry'.1 ∧ List.Forall₂ R entry.2 entry'.2)
      identities identities') :
    AlikeBut [] ⟨fields, identities⟩ ⟨fields, identities'⟩ := by
  refine ⟨rfl, fun name _ => ?_⟩
  have found : Option.Rel (List.Forall₂ R) (Entries.get? identities name)
      (Entries.get? identities' name) := Entries.rel_get? linked name
  simp only [Record.isCircularAt]
  generalize Entries.get? identities name = numbers, Entries.get? identities' name = numbers' at found
  cases found with
  | none => rfl
  | some same => exact (renumbers.holdsItself_alike .nil same _).1

namespace Mirrors

theorem record_alike (m : Mirrors kept link heap heap') (twins : FieldTwins link fields fields') :
    AlikeBut [] (heap.record fields) (heap'.record fields') := by
  have linked := m.identities_linked twins
  have unique : Relator.BiUnique link :=
    ⟨fun _ _ _ h h' => m.eq_left h h', fun _ _ _ h h' => m.eq_right h h'⟩
  have numbers := List.rel_flatMap linked fun _ _ same => same.2
  have once := List.rel_nodup unique numbers
  simp only [Heap.record, m.fields_eq twins, once]
  split
  · exact .refl [] _
  · exact alike_of_linked m.renumbers linked

theorem readRecord_alike (m : Mirrors kept link heap heap') (twin : Twin link slot slot') :
    AlikeBut [] (heap.readRecord slot) (heap'.readRecord slot') := by
  have found := m.fields? twin
  rw [Heap.readRecord, Heap.readRecord]
  generalize heap.fields? slot = one, heap'.fields? slot' = other at found
  cases found with
  | none => exact m.record_alike .nil
  | some twins => exact m.record_alike twins

end Mirrors

end GuardedStore.Expression
