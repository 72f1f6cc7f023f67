import GuardedStore.Proofs.Expression.Mirror

/-! # Reading from heaps that mirror each other

The value and the literal of a slot are found in the same way: addresses are followed until a list or
object comes again inside itself. As no address comes twice on the way, it does not matter how many
may be followed, provided that they are as many as there are in the heap. Twins are read alike, for what
is read shows no addresses.
-/

namespace GuardedStore.Expression

/-- How the reading of a slot is put together: from a plain value, from nothing, and from the readings
of the parts of a list or an object, none where it comes again inside itself. -/
structure Reading (ω : Type) where
  plain : Literal → ω
  missing : ω
  list : Option (List ω) → ω
  object : Option (Entries ω) → ω

namespace Reading

variable {ω : Type}

/-- The reading of a list or object from those of its parts. -/
def ofNode (reading : Reading ω) (part : Slot → ω) (again : Bool) : Node → ω
  | .list items => reading.list (if again then none else some (items.map part))
  | .object fields =>
    reading.object (if again then none else some (fields.map fun (name, slot) => (name, part slot)))

/-- The reading of a slot, followed through at most `depth` addresses, inside the lists and objects at
the addresses `around`. -/
def follow (reading : Reading ω) (heap : Heap) : Nat → List Nat → Slot → ω
  | _, _, .plain v => reading.plain v
  | 0, _, .shared _ => reading.missing
  | depth + 1, around, .shared address =>
    match heap.node? address with
    | none => reading.missing
    | some node =>
      reading.ofNode (follow reading heap depth (address :: around)) (around.contains address) node

def values : Reading Value where
  plain v := v.toValue
  missing := .null
  list items := .list (items.getD [])
  object fields := .object (fields.getD [])

def literals : Reading String where
  plain v := v.toValue.literal
  missing := ""
  list
    | none => "[...]"
    | some items => "[" ++ ", ".intercalate items ++ "]"
  object
    | none => "\x7b...\x7d"
    | some fields =>
      "\x7b" ++ ", ".intercalate (fields.map fun (name, text) => Text.quote name ++ ": " ++ text) ++
        "\x7d"

theorem readTo_eq (heap : Heap) (depth : Nat) (around : List Nat) (slot : Slot) :
    heap.readTo depth around slot = values.follow heap depth around slot := by
  induction depth generalizing around slot with
  | zero => cases slot <;> rfl
  | succ depth ih =>
      have parts : heap.readTo depth = values.follow heap depth := funext fun _ => funext (ih _)
      cases slot with
      | plain v => rfl
      | shared address =>
          simp only [Heap.readTo, follow, parts]
          cases heap.node? address with
          | none => rfl
          | some node => cases node <;> cases around.contains address <;> rfl

theorem literalTo_eq (heap : Heap) (depth : Nat) (around : List Nat) (slot : Slot) :
    heap.literalTo depth around slot = literals.follow heap depth around slot := by
  induction depth generalizing around slot with
  | zero => cases slot <;> rfl
  | succ depth ih =>
      have parts : heap.literalTo depth = literals.follow heap depth := funext fun _ => funext (ih _)
      cases slot with
      | plain v => rfl
      | shared address =>
          simp only [Heap.literalTo, follow, parts]
          cases heap.node? address with
          | none => rfl
          | some node =>
              cases node with
              | list items => cases around.contains address <;> rfl
              | object fields =>
                  cases around.contains address with
                  | true => rfl
                  | false => simp [ofNode, literals, Function.comp_def]

variable {reading : Reading ω} {heap : Heap}

theorem length_le_of_inside {around : List Nat} {bound : Nat} (unique : around.Nodup)
    (inside : ∀ address ∈ around, address < bound) : around.length ≤ bound := by
  have among : around ⊆ List.range bound := fun address member =>
    List.mem_range.mpr (inside address member)
  have few := (unique.subperm among).length_le
  rwa [List.length_range] at few

theorem follow_depth {around : List Nat} (unique : around.Nodup)
    (inside : ∀ address ∈ around, address < heap.nodes.size) {depth depth' : Nat}
    (enough : heap.nodes.size < depth + around.length)
    (enough' : heap.nodes.size < depth' + around.length) (slot : Slot) :
    reading.follow heap depth around slot = reading.follow heap depth' around slot := by
  induction depth generalizing around depth' slot with
  | zero =>
      have few := length_le_of_inside unique inside
      omega
  | succ depth ih =>
      cases depth' with
      | zero =>
          have few := length_le_of_inside unique inside
          omega
      | succ depth' =>
          cases slot with
          | plain v => rfl
          | shared address =>
              simp only [follow]
              cases found : heap.node? address with
              | none => rfl
              | some node =>
                  by_cases again : around.contains address = true
                  · cases node <;> simp only [ofNode, again, if_true]
                  · have new : (address :: around).Nodup :=
                      List.nodup_cons.mpr ⟨by simpa using again, unique⟩
                    have inner : ∀ other ∈ address :: around, other < heap.nodes.size := by
                      simpa [Heap.inside_of_node? found] using inside
                    have parts : reading.follow heap depth (address :: around) =
                        reading.follow heap depth' (address :: around) :=
                      funext (ih new inner (by simp; omega) (by simp; omega))
                    simp only [parts]

end Reading

variable {kept : Nat → Option Node} {link : Link} {heap heap' : Heap} {slot slot' : Slot}

theorem NodeTwin.ofNode_eq {ω : Type} (reading : Reading ω) {node node' : Node}
    (h : NodeTwin link node node') (again : Bool) {part part' : Slot → ω}
    (same : ∀ {slot slot'}, Twin link slot slot' → part slot = part' slot') :
    reading.ofNode part again node = reading.ofNode part' again node' := by
  cases h with
  | list twins =>
      have items : ∀ {one other : List Slot}, List.Forall₂ (Twin link) one other →
          one.map part = other.map part' := by
        intro one other twins
        induction twins with
        | nil => rfl
        | cons first _ ih => simp only [List.map_cons, same first, ih]
      simp only [Reading.ofNode, items twins]
  | object twins =>
      have fields : ∀ {one other : Entries Slot}, FieldTwins link one other →
          one.map (fun (name, slot) => (name, part slot)) =
            other.map fun (name, slot) => (name, part' slot) := by
        intro one other twins
        induction twins with
        | nil => rfl
        | cons first _ ih => simp only [List.map_cons, first.1, same first.2, ih]
      simp only [Reading.ofNode, fields twins]

namespace Mirrors

theorem contains_eq (m : Mirrors kept link heap heap') {around around' : List Nat}
    (linked : List.Forall₂ link around around') {a b : Nat} (here : link a b) :
    around.contains a = around'.contains b := by
  induction linked with
  | nil => rfl
  | cons first _ ih =>
      simp only [List.contains_cons, ih, Bool.beq_eq_decide_eq, m.address_eq_iff here first]

theorem follow_eq_at {ω : Type} (reading : Reading ω) (m : Mirrors kept link heap heap') (depth : Nat)
    {around around' : List Nat} (linked : List.Forall₂ link around around')
    (twin : Twin link slot slot') :
    reading.follow heap depth around slot = reading.follow heap' depth around' slot' := by
  induction depth generalizing around around' slot slot' with
  | zero => cases twin <;> rfl
  | succ depth ih =>
      cases twin with
      | plain v => rfl
      | @shared a b here =>
          obtain ⟨node, node', found, found', twins⟩ := m.twins here
          simp only [Reading.follow, found, found', m.contains_eq linked here]
          exact twins.ofNode_eq reading _ fun both => ih (.cons here linked) both

theorem follow_eq {ω : Type} (reading : Reading ω) (m : Mirrors kept link heap heap')
    (twin : Twin link slot slot') :
    reading.follow heap (heap.nodes.size + 1) [] slot =
      reading.follow heap' (heap'.nodes.size + 1) [] slot' := by
  have deep := Nat.le_max_left heap.nodes.size heap'.nodes.size
  have deep' := Nat.le_max_right heap.nodes.size heap'.nodes.size
  calc reading.follow heap (heap.nodes.size + 1) [] slot
      = reading.follow heap (max heap.nodes.size heap'.nodes.size + 1) [] slot :=
        Reading.follow_depth .nil (by simp) (by simp) (by simp) slot
    _ = reading.follow heap' (max heap.nodes.size heap'.nodes.size + 1) [] slot' :=
        m.follow_eq_at reading _ .nil twin
    _ = reading.follow heap' (heap'.nodes.size + 1) [] slot' :=
        Reading.follow_depth .nil (by simp) (by simp) (by simp) slot'

/-- Twins have the same value. -/
theorem read_eq (m : Mirrors kept link heap heap') (twin : Twin link slot slot') :
    heap.read slot = heap'.read slot' := by
  simp only [Heap.read, Reading.readTo_eq]
  exact m.follow_eq Reading.values twin

theorem name_eq (m : Mirrors kept link heap heap') (twin : Twin link slot slot') :
    heap.name slot = heap'.name slot' := by
  have literal := m.follow_eq Reading.literals twin
  simp only [← Reading.literalTo_eq] at literal
  cases twin with
  | plain v => rfl
  | shared linked => exact literal

end Mirrors

end GuardedStore.Expression
