import GuardedStore.Expression.Heap
import GuardedStore.Value.Entries

/-! # Loading into a heap

Loading only adds to a heap: what stood at an address stays there, so a record that was loaded is
found again whatever is loaded behind it. A field without parts is read as it was stored; a list or
an object is read as something that is no plain value.
-/

namespace GuardedStore.Expression

namespace Heap

/-- Everything of a heap stands at its address in another one. -/
def Extends (heap heap' : Heap) : Prop :=
  heap.nodes.size ≤ heap'.nodes.size ∧
    ∀ address < heap.nodes.size, heap'.node? address = heap.node? address

namespace Extends

theorem refl (heap : Heap) : Extends heap heap :=
  ⟨Nat.le_refl _, fun _ _ => rfl⟩

theorem trans {heap heap' heap'' : Heap} (h : Extends heap heap') (h' : Extends heap' heap'') :
    Extends heap heap'' :=
  ⟨Nat.le_trans h.1 h'.1, fun address inside =>
    (h'.2 address (Nat.lt_of_lt_of_le inside h.1)).trans (h.2 address inside)⟩

theorem alloc (heap : Heap) (node : Node) : Extends heap (heap.alloc node).2 := by
  refine ⟨by simp [Heap.alloc], fun address inside => ?_⟩
  simp [Heap.alloc, node?, Array.getElem?_push, Nat.ne_of_lt inside]

theorem put {heap heap' : Heap} (h : Extends heap heap') {address : Nat}
    (behind : heap.nodes.size ≤ address) (node : Node) : Extends heap (heap'.put address node) := by
  refine ⟨by simpa [Heap.put] using h.1, fun other inside => ?_⟩
  have apart : address ≠ other := by omega
  rw [← h.2 other inside]
  simp [Heap.put, node?, apart]

theorem node? {heap heap' : Heap} (h : Extends heap heap') {address : Nat} {node : Node}
    (found : heap.node? address = some node) : heap'.node? address = some node := by
  have inside : address < heap.nodes.size := (Array.getElem?_eq_some_iff.mp found).1
  rw [h.2 address inside, found]

end Extends

/-- A slot shows a value: a plain value is in the slot itself, a list or an object is somewhere in the
heap. -/
def Shows (v : Value) : Slot → Prop
  | .plain literal => literal.toValue = v
  | .shared _ => v.isContainer

mutual

theorem load_extends (heap : Heap) (v : Value) : Extends heap (heap.load v).2 := by
  cases v with
  | null | bool | int | float | str => exact .refl heap
  | list items => exact (loadItems_extends heap items).trans (.alloc _ _)
  | object fields => exact (loadFields_extends heap fields).trans (.alloc _ _)
termination_by sizeOf v

theorem loadItems_extends (heap : Heap) (vs : List Value) : Extends heap (heap.loadItems vs).2 := by
  cases vs with
  | nil => exact .refl heap
  | cons v vs => exact (load_extends heap v).trans (loadItems_extends _ vs)
termination_by sizeOf vs

theorem loadFields_extends (heap : Heap) (fields : List (String × Value)) :
    Extends heap (heap.loadFields fields).2 := by
  cases fields with
  | nil => exact .refl heap
  | cons field rest =>
      obtain ⟨name, v⟩ := field
      exact (load_extends heap v).trans (loadFields_extends _ rest)
termination_by sizeOf fields

end

theorem load_shows (heap : Heap) (v : Value) : Shows v (heap.load v).1 := by
  cases v <;> rfl

theorem loadFields_plain (heap : Heap) {fields : List (String × Value)}
    (h : ∀ field ∈ fields, field.2.isContainer = false) : (heap.loadFields fields).2 = heap := by
  induction fields generalizing heap with
  | nil => rfl
  | cons field rest ih =>
      obtain ⟨name, v⟩ := field
      have first : v.isContainer = false := h _ List.mem_cons_self
      have loaded : (heap.load v).2 = heap := by cases v <;> first | rfl | cases first
      simp only [loadFields, loaded]
      exact ih heap fun field later => h field (List.mem_cons_of_mem _ later)

theorem loadFields_shows (heap : Heap) (fields : Fields) (name : String) :
    Option.Rel Shows (Entries.get? fields name) (Entries.get? (heap.loadFields fields).1 name) := by
  induction fields generalizing heap with
  | nil => exact .none
  | cons field rest ih =>
      obtain ⟨key, v⟩ := field
      simp only [loadFields, Entries.get?_cons]
      split
      · exact .some (load_shows heap v)
      · exact ih _

namespace Loading

mutual

theorem load_extends (loading : Loading) (v : Value) :
    Extends loading.heap (loading.load v).2.heap := by
  cases v with
  | null | bool | int | float | str => exact .refl _
  | list items =>
      simp only [load]
      split
      · exact .refl _
      · have inner := loadItems_extends (loading.next.2.meet loading.next.1 (.list [])).2 items
        exact ((Extends.alloc loading.heap (.list [])).trans inner).put (Nat.le_refl _) _
  | object fields =>
      simp only [load]
      split
      · exact .refl _
      · have inner := loadFields_extends (loading.next.2.meet loading.next.1 (.object [])).2 fields
        exact ((Extends.alloc loading.heap (.object [])).trans inner).put (Nat.le_refl _) _
termination_by sizeOf v

theorem loadItems_extends (loading : Loading) (vs : List Value) :
    Extends loading.heap (loading.loadItems vs).2.heap := by
  cases vs with
  | nil => exact .refl _
  | cons v vs => exact (load_extends loading v).trans (loadItems_extends _ vs)
termination_by sizeOf vs

theorem loadFields_extends (loading : Loading) (fields : List (String × Value)) :
    Extends loading.heap (loading.loadFields fields).2.heap := by
  cases fields with
  | nil => exact .refl _
  | cons field rest =>
      obtain ⟨name, v⟩ := field
      exact (load_extends loading v).trans (loadFields_extends _ rest)
termination_by sizeOf fields

end

theorem load_shows (loading : Loading) (v : Value) : Shows v (loading.load v).1 := by
  cases v with
  | null | bool | int | float | str => rfl
  | list items => simp only [load]; split <;> rfl
  | object fields => simp only [load]; split <;> rfl

theorem loadRecordFields_extends (identities : Entries (List Nat)) (loading : Loading)
    (fields : List (String × Value)) :
    Extends loading.heap (loadRecordFields identities loading fields).2.heap := by
  induction fields generalizing loading with
  | nil => exact .refl _
  | cons field rest ih =>
      obtain ⟨name, v⟩ := field
      exact (load_extends { loading with numbers := (Entries.get? identities name).getD [] } v).trans
        (ih _)

theorem loadRecordFields_shows (identities : Entries (List Nat)) (loading : Loading)
    (fields : List (String × Value)) (name : String) :
    Option.Rel Shows (Entries.get? fields name)
      (Entries.get? (loadRecordFields identities loading fields).1 name) := by
  induction fields generalizing loading with
  | nil => exact .none
  | cons field rest ih =>
      obtain ⟨key, v⟩ := field
      simp only [loadRecordFields, Entries.get?_cons]
      split
      · exact .some (load_shows _ v)
      · exact ih _

end Loading

theorem loadRecordFields_extends (heap : Heap) (record : Record) :
    Extends heap (heap.loadRecordFields record).2 := by
  simp only [loadRecordFields]
  split
  · exact loadFields_extends heap record.fields
  · exact Loading.loadRecordFields_extends record.identities { heap } record.fields

theorem loadRecordFields_shows (heap : Heap) (record : Record) (name : String) :
    Option.Rel Shows (Entries.get? record.fields name)
      (Entries.get? (heap.loadRecordFields record).1 name) := by
  simp only [loadRecordFields]
  split
  · exact loadFields_shows heap record.fields name
  · exact Loading.loadRecordFields_shows record.identities { heap } record.fields name

theorem loadRecord_extends (heap : Heap) (record : Record) :
    Extends heap (heap.loadRecord record).2 :=
  (loadRecordFields_extends heap record).trans (.alloc _ _)

/-- The slot holds a record: an object whose fields show those of the record. -/
def Holds (heap : Heap) (slot : Slot) (record : Record) : Prop :=
  ∃ fields, heap.fields? slot = some fields ∧
    ∀ name, Option.Rel Shows (Entries.get? record.fields name) (Entries.get? fields name)

theorem fields?_eq_some_iff {heap : Heap} {slot : Slot} {fields : Entries Slot} :
    heap.fields? slot = some fields ↔
      ∃ address, slot = .shared address ∧ heap.node? address = some (.object fields) := by
  constructor
  · intro found
    cases slot with
    | plain v => cases found
    | shared address =>
        simp only [Heap.fields?] at found
        split at found
        · rename_i stands
          cases found
          exact ⟨address, rfl, stands⟩
        · cases found
  · rintro ⟨address, rfl, stands⟩
    simp only [Heap.fields?, stands]

theorem inside_of_fields? {heap : Heap} {slot : Slot} {fields : Entries Slot}
    (found : heap.fields? slot = some fields) :
    ∃ address, slot = .shared address ∧ address < heap.nodes.size := by
  obtain ⟨address, rfl, stands⟩ := fields?_eq_some_iff.mp found
  exact ⟨address, rfl, (Array.getElem?_eq_some_iff.mp stands).1⟩

theorem Extends.fields? {heap heap' : Heap} (h : Extends heap heap') {slot : Slot}
    {fields : Entries Slot} (found : heap.fields? slot = some fields) :
    heap'.fields? slot = some fields := by
  obtain ⟨address, rfl, stands⟩ := fields?_eq_some_iff.mp found
  exact fields?_eq_some_iff.mpr ⟨address, rfl, h.node? stands⟩

theorem Holds.mono {heap heap' : Heap} {slot : Slot} {record : Record} (h : Holds heap slot record)
    (grown : Extends heap heap') : Holds heap' slot record := by
  obtain ⟨fields, found, shown⟩ := h
  exact ⟨fields, grown.fields? found, shown⟩

theorem loadRecord_holds (heap : Heap) (record : Record) :
    Holds (heap.loadRecord record).2 (heap.loadRecord record).1 record := by
  refine ⟨(heap.loadRecordFields record).1, ?_, loadRecordFields_shows heap record⟩
  simp [loadRecord, alloc, Heap.fields?, node?]

/-- A record is loaded behind everything that stands in a heap. -/
theorem loadRecord_behind (heap : Heap) (record : Record) :
    ∃ address, (heap.loadRecord record).1 = .shared address ∧ heap.nodes.size ≤ address :=
  ⟨_, rfl, (loadRecordFields_extends heap record).1⟩

theorem Holds.inside {heap : Heap} {slot : Slot} {record : Record} (h : Holds heap slot record) :
    ∃ address, slot = .shared address ∧ address < heap.nodes.size :=
  let ⟨_, found, _⟩ := h
  inside_of_fields? found

/-- What is read of a field that shows a value: the value if it is plain, and no plain value but null
otherwise. -/
def ReadAs (v read : Value) : Prop :=
  if v.isContainer then read = .null ∨ read.isContainer else read = v

theorem read_shared (heap : Heap) (address : Nat) :
    heap.read (.shared address) = .null ∨ (heap.read (.shared address)).isContainer := by
  simp only [read, readTo]
  cases heap.node? address with
  | none => exact .inl rfl
  | some node => cases node <;> exact .inr rfl

theorem Shows.readAs {v : Value} {slot : Slot} (h : Shows v slot) (heap : Heap) :
    ReadAs v (heap.read slot) := by
  cases slot with
  | plain literal =>
      have plain : v.isContainer = false := by
        rw [← (show literal.toValue = v from h)]
        cases literal <;> rfl
      simp only [ReadAs, plain, read, readTo]
      exact h
  | shared address =>
      have container : v.isContainer = true := h
      simpa [ReadAs, container] using read_shared heap address

theorem Holds.readAs {heap : Heap} {slot : Slot} {record : Record} (h : Holds heap slot record)
    (name : String) :
    ∃ fields, heap.fields? slot = some fields ∧
      ReadAs (record.value name) (((Entries.get? fields name).map heap.read).getD .null) := by
  obtain ⟨fields, found, shown⟩ := h
  refine ⟨fields, found, ?_⟩
  have related := shown name
  simp only [Record.value, Value.fieldOrNull]
  generalize Entries.get? record.fields name = value at related ⊢
  generalize Entries.get? fields name = slot at related ⊢
  cases related with
  | none => rfl
  | some shown => exact shown.readAs heap

end Heap

end GuardedStore.Expression
