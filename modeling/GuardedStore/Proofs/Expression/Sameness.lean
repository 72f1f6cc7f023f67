import GuardedStore.Proofs.Expression.Following

/-! # Comparing what stands in a heap

Lists and objects are compared part by part. If this has no end, a pair comes again while it is compared, and
so there is a list or object that holds itself. In heaps that mirror each other, twins compare alike.
-/

namespace GuardedStore.Expression

open Heap (allEnd sameNodes)

variable {α β : Type}

theorem allEnd_eq {test : α → Option Bool} {test' : β → Option Bool} {as : List α} {bs : List β}
    (same : List.Forall₂ (fun a b => test a = test' b) as bs) : allEnd test as = allEnd test' bs := by
  induction same with
  | nil => rfl
  | cons first _ ih => simp only [allEnd, first, ih]

theorem mem_of_allEnd_eq_none {test : α → Option Bool} {items : List α}
    (endless : allEnd test items = none) : ∃ a ∈ items, test a = none := by
  induction items with
  | nil => cases endless
  | cons a rest ih =>
      rw [allEnd] at endless
      split at endless
      · obtain ⟨b, member, unended⟩ := ih endless
        exact ⟨b, List.mem_cons_of_mem _ member, unended⟩
      · exact ⟨a, List.mem_cons_self, endless⟩

section

variable {same same' : Slot → Slot → Option Bool} {node other : Node}

theorem sameNodes_congr (h : ∀ s ∈ node.slots, ∀ t ∈ other.slots, same s t = same' s t) :
    sameNodes same node other = sameNodes same' node other := by
  cases node with
  | list items =>
      cases other with
      | object others => rfl
      | list others =>
          simp only [sameNodes]
          congr 1
          exact allEnd_eq (List.forall₂_same.mpr fun pair member =>
            h _ (List.of_mem_zip member).1 _ (List.of_mem_zip member).2)
  | object fields =>
      cases other with
      | list others => rfl
      | object others =>
          simp only [sameNodes]
          congr 1
          refine allEnd_eq (List.forall₂_same.mpr fun field member => ?_)
          cases found : Entries.get? others field.1 with
          | none => rfl
          | some slot =>
              exact h _ (List.mem_map_of_mem member) _ (List.mem_map_of_mem (Entries.mem_of_get? found))

/-- Two lists or objects that are compared without end have parts that are. -/
theorem parts_of_sameNodes_eq_none (endless : sameNodes same node other = none) :
    ∃ s ∈ node.slots, ∃ t ∈ other.slots, same s t = none := by
  cases node with
  | list items =>
      cases other with
      | object others => cases endless
      | list others =>
          rw [sameNodes] at endless
          split at endless
          · obtain ⟨⟨s, t⟩, member, unended⟩ := mem_of_allEnd_eq_none endless
            exact ⟨s, (List.of_mem_zip member).1, t, (List.of_mem_zip member).2, unended⟩
          · cases endless
  | object fields =>
      cases other with
      | list others => cases endless
      | object others =>
          rw [sameNodes] at endless
          split at endless
          · obtain ⟨⟨name, s⟩, member, unended⟩ := mem_of_allEnd_eq_none endless
            dsimp only at unended
            cases found : Entries.get? others name with
            | none =>
                rw [found] at unended
                cases unended
            | some t =>
                rw [found] at unended
                exact ⟨s, List.mem_map_of_mem member, t,
                  List.mem_map_of_mem (Entries.mem_of_get? found), unended⟩
          · cases endless

end

variable {heap heap' : Heap} {depth depth' : Nat} {around around' : List (Nat × Nat)} {left right : Slot}

/-- The pairs that are being compared are different ones, and the depth suffices for all others. -/
structure Comparing (heap : Heap) (depth : Nat) (around : List (Nat × Nat)) : Prop where
  unique : around.Nodup
  inside : ∀ pair ∈ around, pair.1 < heap.nodes.size ∧ pair.2 < heap.nodes.size
  enough : heap.nodes.size * heap.nodes.size < depth + around.length

namespace Comparing

theorem start (heap : Heap) : Comparing heap (heap.nodes.size * heap.nodes.size + 1) [] where
  unique := .nil
  inside := nofun
  enough := Nat.lt_succ_self _

theorem depth_ne_zero (h : Comparing heap depth around) : depth ≠ 0 := by
  rintro rfl
  have among : around ⊆ List.range heap.nodes.size ×ˢ List.range heap.nodes.size := fun pair member =>
    List.mem_product.mpr ((h.inside pair member).imp List.mem_range.mpr List.mem_range.mpr)
  have few := (h.unique.subperm among).length_le
  have enough := h.enough
  rw [List.length_product, List.length_range] at few
  omega

theorem inner (h : Comparing heap (depth + 1) around) {a b : Nat} {node other : Node}
    (new : ¬around.contains (a, b) = true) (found : heap.node? a = some node)
    (found' : heap.node? b = some other) : Comparing heap depth ((a, b) :: around) where
  unique := List.nodup_cons.mpr ⟨by simpa using new, h.unique⟩
  inside := List.forall_mem_cons.mpr
    ⟨⟨Heap.inside_of_node? found, Heap.inside_of_node? found'⟩, h.inside⟩
  enough := by
    have enough := h.enough
    rw [List.length_cons]
    omega

end Comparing

theorem sameTo_depth (h : Comparing heap depth around) (h' : Comparing heap depth' around)
    (left right : Slot) : heap.sameTo depth around left right = heap.sameTo depth' around left right := by
  induction depth generalizing around depth' left right with
  | zero => exact absurd rfl h.depth_ne_zero
  | succ depth ih =>
      obtain ⟨depth', rfl⟩ := Nat.exists_eq_succ_of_ne_zero h'.depth_ne_zero
      cases left with
      | plain v => cases right <;> rfl
      | shared a =>
          cases right with
          | plain w => rfl
          | shared b =>
              simp only [Heap.sameTo]
              split
              · rfl
              · split
                · rfl
                · rename_i new
                  cases found : heap.node? a with
                  | none => rfl
                  | some node =>
                      cases found' : heap.node? b with
                      | none => rfl
                      | some other =>
                          exact sameNodes_congr fun s _ t _ =>
                            ih (h.inner new found found') (h'.inner new found found') s t

/-- A list or object at one address has the one at another as a part. -/
def Heap.HasPart (heap : Heap) (a b : Nat) : Prop :=
  ∃ node, heap.node? a = some node ∧ Slot.shared b ∈ node.slots

def Heap.HoldsItself (heap : Heap) (a : Nat) : Prop :=
  Relation.TransGen heap.HasPart a a

theorem exists_holdsItself_of_sameTo (h : Comparing heap depth around)
    (within : ∀ pair ∈ around, ∀ a, left = .shared a → Relation.TransGen heap.HasPart pair.1 a)
    (endless : heap.sameTo depth around left right = none) : ∃ a, heap.HoldsItself a := by
  induction depth generalizing around left right with
  | zero => exact absurd rfl h.depth_ne_zero
  | succ depth ih =>
      cases left with
      | plain v => cases right <;> cases endless
      | shared a =>
          cases right with
          | plain w => cases endless
          | shared b =>
              rw [Heap.sameTo] at endless
              split at endless
              · cases endless
              · split at endless
                · rename_i again
                  exact ⟨a, within (a, b) (by simpa using again) a rfl⟩
                · rename_i new
                  split at endless
                  · rename_i node other found found'
                    obtain ⟨s, part, t, -, unended⟩ := parts_of_sameNodes_eq_none endless
                    refine ih (h.inner new found found') (fun pair member c same => ?_) unended
                    have step : heap.HasPart a c := ⟨node, found, same ▸ part⟩
                    rcases List.mem_cons.mp member with rfl | before
                    · exact .single step
                    · exact (within pair before a rfl).tail step
                  · cases endless

theorem exists_holdsItself_of_same? (endless : heap.same? left right = none) :
    ∃ a, heap.HoldsItself a :=
  exists_holdsItself_of_sameTo (.start heap) nofun endless

variable {kept : Nat → Option Node} {link : Link} {left' right' : Slot}

theorem forall₂_zip {γ δ : Type} {R : α → β → Prop} {S : γ → δ → Prop} {as : List α} {bs : List β}
    {cs : List γ} {ds : List δ} (first : List.Forall₂ R as bs) (second : List.Forall₂ S cs ds) :
    List.Forall₂ (fun p q => R p.1 q.1 ∧ S p.2 q.2) (as.zip cs) (bs.zip ds) := by
  induction first generalizing cs ds with
  | nil => exact .nil
  | cons both _ ih =>
      cases second with
      | nil => exact .nil
      | cons both' rest => exact .cons ⟨both, both'⟩ (ih rest)

theorem NodeTwin.sameNodes_eq {same same' : Slot → Slot → Option Bool} {node node' other other' : Node}
    (one : NodeTwin link node node') (two : NodeTwin link other other')
    (parts : ∀ {s s' t t'}, Twin link s s' → Twin link t t' → same s t = same' s' t') :
    sameNodes same node other = sameNodes same' node' other' := by
  cases one with
  | list twins =>
      cases two with
      | object => rfl
      | list twins' =>
          simp only [sameNodes, twins.length_eq, twins'.length_eq]
          congr 1
          exact allEnd_eq ((forall₂_zip twins twins').imp fun _ _ both => parts both.1 both.2)
  | object twins =>
      cases two with
      | list => rfl
      | @object others others' twins' =>
          simp only [sameNodes, List.Forall₂.length_eq twins, List.Forall₂.length_eq twins']
          congr 1
          refine allEnd_eq (List.Forall₂.imp (fun field field' both => ?_) twins)
          have found := twins'.get? field.1
          rw [← both.1]
          generalize Entries.get? others field.1 = x, Entries.get? others' field.1 = y at found ⊢
          cases found with
          | none => rfl
          | some twin => exact parts both.2 twin

namespace Mirrors

theorem contains_pair_eq (m : Mirrors kept link heap heap')
    (linked : List.Forall₂ (fun p q => link p.1 q.1 ∧ link p.2 q.2) around around') {a b a' b' : Nat}
    (one : link a a') (other : link b b') : around.contains (a, b) = around'.contains (a', b') := by
  induction linked with
  | nil => rfl
  | cons both _ ih =>
      simp only [List.contains_cons, ih, Bool.beq_eq_decide_eq, Prod.ext_iff, m.address_eq_iff one both.1,
        m.address_eq_iff other both.2]

theorem sameTo_eq_at (m : Mirrors kept link heap heap') (depth : Nat)
    (linked : List.Forall₂ (fun p q => link p.1 q.1 ∧ link p.2 q.2) around around')
    (one : Twin link left left') (other : Twin link right right') :
    heap.sameTo depth around left right = heap'.sameTo depth around' left' right' := by
  induction depth generalizing around around' left left' right right' with
  | zero => cases one <;> cases other <;> rfl
  | succ depth ih =>
      cases one with
      | plain v => cases other <;> rfl
      | @shared a a' here =>
          cases other with
          | plain w => rfl
          | @shared b b' there =>
              obtain ⟨node, node', found, found', twins⟩ := m.twins here
              obtain ⟨next, next', there₁, there₂, twins'⟩ := m.twins there
              simp only [Heap.sameTo, found, found', there₁, there₂, m.address_eq_iff here there,
                m.contains_pair_eq linked here there]
              have inner : List.Forall₂ (fun p q => link p.1 q.1 ∧ link p.2 q.2) ((a, b) :: around)
                  ((a', b') :: around') := .cons ⟨here, there⟩ linked
              rw [twins.sameNodes_eq twins' fun both both' => ih inner both both']

theorem same?_eq (m : Mirrors kept link heap heap') (one : Twin link left left')
    (other : Twin link right right') : heap.same? left right = heap'.same? left' right' := by
  let deep := max (heap.nodes.size * heap.nodes.size) (heap'.nodes.size * heap'.nodes.size) + 1
  have enough : Comparing heap deep [] := ⟨.nil, nofun, by simp [deep]⟩
  have enough' : Comparing heap' deep [] := ⟨.nil, nofun, by simp [deep]⟩
  calc heap.same? left right
      = heap.sameTo deep [] left right := sameTo_depth (.start heap) enough left right
    _ = heap'.sameTo deep [] left' right' := m.sameTo_eq_at deep .nil one other
    _ = heap'.same? left' right' := sameTo_depth enough' (.start heap') left' right'

end Mirrors

end GuardedStore.Expression
