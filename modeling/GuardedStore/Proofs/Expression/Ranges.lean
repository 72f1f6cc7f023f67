import GuardedStore.Proofs.Expression.Mirror
import GuardedStore.Proofs.Store.Contents
import GuardedStore.Proofs.Value.Likeness
import GuardedStore.Proofs.Value.Range

/-! # Values in range

A value is in range when every integer that can be read from it has a binary64 number: those in it, and
the lengths of its lists and texts. Loading values in range into a heap in range leaves a heap in range,
and so do the changes that rules make.
-/

namespace GuardedStore

/-- The integer has a reading in the binary64 format. -/
def Binary64.InRange (n : Int) : Prop :=
  Binary64.ofInt? n ≠ none

instance (n : Int) : Decidable (Binary64.InRange n) :=
  inferInstanceAs (Decidable (Binary64.ofInt? n ≠ none))

inductive Value.InRange : Value → Prop
  | null : InRange .null
  | bool (b : Bool) : InRange (.bool b)
  | int {n : Int} (near : Binary64.InRange n) : InRange (.int n)
  | float (x : Binary64) : InRange (.float x)
  | str {s : String} (length : Binary64.InRange s.length) : InRange (.str s)
  | list {items : List Value} (length : Binary64.InRange items.length)
      (inside : ∀ v ∈ items, InRange v) : InRange (.list items)
  | object {fields : Fields} (inside : ∀ field ∈ fields, InRange field.2) : InRange (.object fields)

theorem Value.InRange.not_isOutsized {v : Value} (h : v.InRange) : ¬ v.IsOutsized := by
  rintro ⟨n, rfl, beyond⟩
  cases h with
  | int near => exact near beyond

def Record.InRange (record : Record) : Prop :=
  ∀ field ∈ record.fields, field.2.InRange

/-- The stored records are in range, and so are the lengths of their ids and how many they are. -/
def Store.InRange (store : Store) : Prop :=
  ∀ name, Binary64.InRange (store.entries name).length ∧
    ∀ entry ∈ store.entries name, Binary64.InRange entry.1.length ∧ entry.2.InRange

theorem withId_inRange {id : String} {record : Record} (length : Binary64.InRange id.length)
    (near : record.InRange) : (withId id record).InRange := by
  intro field inside
  rcases Entries.mem_set inside with rfl | old
  · exact .str length
  · exact near field old

theorem Store.InRange.find {store : Store} (near : store.InRange) {name id : String} {record : Record}
    (there : store.find name id = .ok record) : record.InRange := by
  obtain ⟨stored, entry, rfl⟩ := get?_of_find there
  obtain ⟨length, inside⟩ := (near name).2 _ (Entries.mem_of_get? entry)
  exact withId_inRange length inside

theorem Store.InRange.all {store : Store} (near : store.InRange) {name : String} {records : List Record}
    (there : store.all name = .ok records) :
    Binary64.InRange records.length ∧ ∀ record ∈ records, record.InRange := by
  rw [all_eq] at there
  split at there
  · cases there
  · cases there
    obtain ⟨count, entries⟩ := near name
    refine ⟨by rw [List.length_map]; exact count, fun record member => ?_⟩
    obtain ⟨⟨id, stored⟩, entry, rfl⟩ := List.mem_map.mp member
    obtain ⟨length, inside⟩ := entries _ entry
    exact withId_inRange length inside

namespace Expression

/-- The value of the slot itself is in range. What stands at an address is none of its business. -/
def Slot.InRange : Slot → Prop
  | .plain value => value.toValue.InRange
  | .shared _ => True

def Node.InRange : Node → Prop
  | .list items => Binary64.InRange items.length ∧ ∀ slot ∈ items, slot.InRange
  | .object fields => ∀ field ∈ fields, field.2.InRange

def Heap.InRange (heap : Heap) : Prop :=
  ∀ address node, heap.node? address = some node → node.InRange

theorem Slot.InRange.null : Slot.InRange (.plain .null) :=
  Value.InRange.null

theorem Slot.InRange.bool (b : Bool) : Slot.InRange (.plain (.bool b)) :=
  Value.InRange.bool b

namespace Heap

theorem InRange.empty : Heap.empty.InRange := by
  intro address node found
  simp [Heap.empty, node?] at found

theorem InRange.alloc {heap : Heap} (h : heap.InRange) {node : Node} (near : node.InRange) :
    (heap.alloc node).2.InRange := by
  intro address other found
  rw [node?_alloc] at found
  split at found
  · cases found
    exact near
  · exact h address other found

theorem InRange.put {heap : Heap} (h : heap.InRange) {node : Node} (near : node.InRange) (address : Nat) :
    (heap.put address node).InRange := by
  intro other old found
  rw [node?_put] at found
  split at found
  · cases found
    exact near
  · exact h other old found

theorem InRange.setField {heap : Heap} (h : heap.InRange) {value : Slot} (near : value.InRange)
    (container : Slot) (key : String) :
    (heap.modifyFields container fun fields => Entries.set fields key value).InRange := by
  unfold modifyFields
  split
  · exact h
  · split
    · rename_i fields found
      refine h.put (fun field inside => ?_) _
      rcases Entries.mem_set inside with rfl | old
      · exact near
      · exact h _ _ found field old
    · exact h

theorem InRange.fields {heap : Heap} (h : heap.InRange) {slot : Slot} {fields : Entries Slot}
    (found : heap.fields? slot = some fields) : ∀ field ∈ fields, field.2.InRange := by
  obtain ⟨address, rfl, stands⟩ := fields?_eq_some_iff.mp found
  exact h _ _ stands

/-- What is read of a slot is no integer beyond the range unless it stands in the slot. -/
theorem read_not_isOutsized (heap : Heap) {slot : Slot} (near : slot.InRange) :
    ¬ (heap.read slot).IsOutsized := by
  cases slot with
  | plain value => exact near.not_isOutsized
  | shared address =>
      rintro ⟨n, same, -⟩
      rcases heap.read_shared address with none | container
      · rw [none] at same
        cases same
      · rw [same] at container
        cases container

theorem loadItems_length (heap : Heap) (vs : List Value) :
    (heap.loadItems vs).1.length = vs.length := by
  induction vs generalizing heap with
  | nil => rfl
  | cons v vs ih => exact congrArg (· + 1) (ih _)

mutual

theorem load_inRange {heap : Heap} (h : heap.InRange) {v : Value} (near : v.InRange) :
    (heap.load v).1.InRange ∧ (heap.load v).2.InRange := by
  cases v with
  | null | bool | int | float | str => exact ⟨near, h⟩
  | list items =>
      cases near with
      | list length inside =>
          obtain ⟨slots, later⟩ := loadItems_inRange h inside
          refine ⟨trivial, later.alloc ⟨?_, slots⟩⟩
          rw [loadItems_length]
          exact length
  | object fields =>
      cases near with
      | object inside =>
          obtain ⟨slots, later⟩ := loadFields_inRange h inside
          exact ⟨trivial, later.alloc slots⟩
termination_by sizeOf v

theorem loadItems_inRange {heap : Heap} (h : heap.InRange) {vs : List Value} (near : ∀ v ∈ vs, v.InRange) :
    (∀ slot ∈ (heap.loadItems vs).1, slot.InRange) ∧ (heap.loadItems vs).2.InRange := by
  cases vs with
  | nil => exact ⟨nofun, h⟩
  | cons v vs =>
      obtain ⟨first, others⟩ := List.forall_mem_cons.mp near
      obtain ⟨slot, later⟩ := load_inRange h first
      obtain ⟨slots, last⟩ := loadItems_inRange later others
      exact ⟨List.forall_mem_cons.mpr ⟨slot, slots⟩, last⟩
termination_by sizeOf vs

theorem loadFields_inRange {heap : Heap} (h : heap.InRange) {fields : List (String × Value)}
    (near : ∀ field ∈ fields, field.2.InRange) :
    (∀ field ∈ (heap.loadFields fields).1, field.2.InRange) ∧ (heap.loadFields fields).2.InRange := by
  match fields with
  | [] => exact ⟨nofun, h⟩
  | (name, v) :: rest =>
      obtain ⟨first, others⟩ := List.forall_mem_cons.mp near
      obtain ⟨slot, later⟩ := load_inRange h (v := v) first
      obtain ⟨slots, last⟩ := loadFields_inRange later others
      exact ⟨List.forall_mem_cons.mpr ⟨slot, slots⟩, last⟩
termination_by sizeOf fields

end

namespace Loading

theorem loadItems_length (loading : Loading) (vs : List Value) :
    (loading.loadItems vs).1.length = vs.length := by
  induction vs generalizing loading with
  | nil => rfl
  | cons v vs ih => exact congrArg (· + 1) (ih _)

theorem emptyList_inRange : Node.InRange (.list []) :=
  ⟨by decide +kernel, nofun⟩

mutual

theorem load_inRange {loading : Loading} (h : loading.heap.InRange) {v : Value} (near : v.InRange) :
    (loading.load v).1.InRange ∧ (loading.load v).2.heap.InRange := by
  cases v with
  | null | bool | int | float | str => exact ⟨near, h⟩
  | list items =>
      cases near with
      | list length inside =>
          simp only [load]
          split
          · exact ⟨trivial, h⟩
          · have met : (loading.next.2.meet loading.next.1 (.list [])).2.heap.InRange :=
              h.alloc emptyList_inRange
            obtain ⟨slots, later⟩ := loadItems_inRange met inside
            have filled : Node.InRange (.list (loadItems _ items).1) := ⟨by rwa [loadItems_length], slots⟩
            exact ⟨trivial, later.put filled _⟩
  | object fields =>
      cases near with
      | object inside =>
          simp only [load]
          split
          · exact ⟨trivial, h⟩
          · have empty : Node.InRange (.object []) := nofun
            have met : (loading.next.2.meet loading.next.1 (.object [])).2.heap.InRange := h.alloc empty
            obtain ⟨slots, later⟩ := loadFields_inRange met inside
            have filled : Node.InRange (.object (loadFields _ fields).1) := slots
            exact ⟨trivial, later.put filled _⟩
termination_by sizeOf v

theorem loadItems_inRange {loading : Loading} (h : loading.heap.InRange) {vs : List Value}
    (near : ∀ v ∈ vs, v.InRange) :
    (∀ slot ∈ (loading.loadItems vs).1, slot.InRange) ∧ (loading.loadItems vs).2.heap.InRange := by
  cases vs with
  | nil => exact ⟨nofun, h⟩
  | cons v vs =>
      obtain ⟨first, others⟩ := List.forall_mem_cons.mp near
      obtain ⟨slot, later⟩ := load_inRange h first
      obtain ⟨slots, last⟩ := loadItems_inRange later others
      exact ⟨List.forall_mem_cons.mpr ⟨slot, slots⟩, last⟩
termination_by sizeOf vs

theorem loadFields_inRange {loading : Loading} (h : loading.heap.InRange) {fields : List (String × Value)}
    (near : ∀ field ∈ fields, field.2.InRange) :
    (∀ field ∈ (loading.loadFields fields).1, field.2.InRange) ∧
      (loading.loadFields fields).2.heap.InRange := by
  match fields with
  | [] => exact ⟨nofun, h⟩
  | (name, v) :: rest =>
      obtain ⟨first, others⟩ := List.forall_mem_cons.mp near
      obtain ⟨slot, later⟩ := load_inRange h (v := v) first
      obtain ⟨slots, last⟩ := loadFields_inRange later others
      exact ⟨List.forall_mem_cons.mpr ⟨slot, slots⟩, last⟩
termination_by sizeOf fields

end

theorem loadRecordFields_inRange (identities : Entries (List Nat)) {loading : Loading}
    (h : loading.heap.InRange) {fields : List (String × Value)} (near : ∀ field ∈ fields, field.2.InRange) :
    (∀ field ∈ (loading.loadRecordFields identities fields).1, field.2.InRange) ∧
      (loading.loadRecordFields identities fields).2.heap.InRange := by
  induction fields generalizing loading with
  | nil => exact ⟨nofun, h⟩
  | cons field rest ih =>
      obtain ⟨name, v⟩ := field
      obtain ⟨first, others⟩ := List.forall_mem_cons.mp near
      have numbered : { loading with numbers := (Entries.get? identities name).getD [] }.heap.InRange := h
      obtain ⟨slot, later⟩ := load_inRange numbered first
      obtain ⟨slots, last⟩ := ih later others
      exact ⟨List.forall_mem_cons.mpr ⟨slot, slots⟩, last⟩

end Loading

theorem loadRecord_inRange {heap : Heap} (h : heap.InRange) {record : Record} (near : record.InRange) :
    (heap.loadRecord record).1.InRange ∧ (heap.loadRecord record).2.InRange := by
  have loaded : (∀ field ∈ (heap.loadRecordFields record).1, field.2.InRange) ∧
      (heap.loadRecordFields record).2.InRange := by
    simp only [loadRecordFields]
    split
    · exact loadFields_inRange h near
    · exact Loading.loadRecordFields_inRange _ h near
  exact ⟨trivial, loaded.2.alloc loaded.1⟩

theorem loadRecords_inRange {heap : Heap} (h : heap.InRange) {records : List Record}
    (near : ∀ record ∈ records, record.InRange) :
    ((heap.loadRecords records).1.length = records.length ∧
      ∀ slot ∈ (heap.loadRecords records).1, slot.InRange) ∧ (heap.loadRecords records).2.InRange := by
  induction records generalizing heap with
  | nil => exact ⟨⟨rfl, nofun⟩, h⟩
  | cons record rest ih =>
      obtain ⟨first, others⟩ := List.forall_mem_cons.mp near
      obtain ⟨slot, later⟩ := loadRecord_inRange h first
      obtain ⟨⟨length, slots⟩, last⟩ := ih later others
      exact ⟨⟨congrArg (· + 1) length, List.forall_mem_cons.mpr ⟨slot, slots⟩⟩, last⟩

end Heap

end Expression

end GuardedStore
