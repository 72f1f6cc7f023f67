import GuardedStore.Proofs.Value.Likeness
import GuardedStore.Store.Basic

/-! # The fields of written records

Which fields an added or replaced record has: those of its writer as they were given, the system
fields apart, which are the store's. A record whose lists and objects stand nowhere twice is written
as one.
-/

namespace GuardedStore.Store

theorem get?_withoutSystemFields (record : Record) {name : String} (h : name ∉ systemFields) :
    Entries.get? (withoutSystemFields record).fields name = Entries.get? record.fields name := by
  have filtered := Entries.get?_filter (fun key => !systemFields.contains key) record.fields name
  simpa [withoutSystemFields, Record.without, h] using filtered

theorem names_systemPart (record : Record) {name : String}
    (h : name ∈ Entries.names (systemPart record).fields) : name ∈ systemFields := by
  simp only [systemPart, Record.only, Entries.ofPairs] at h
  rcases Entries.mem_names_overlay.mp h with empty | listed
  · cases empty
  · obtain ⟨entry, member, rfl⟩ := List.mem_map.mp listed
    obtain ⟨field, known, found⟩ := List.mem_filterMap.mp member
    obtain ⟨v, -, rfl⟩ := Option.map_eq_some_iff.mp found
    exact known

/-- The writer's fields of an added record. -/
theorem get?_newRecord {data : Record} (unique : (Entries.names data.fields).Nodup)
    (owner : Option String) (time : Int) {name : String} (h : name ∉ systemFields) :
    Entries.get? (newRecord data owner time).fields name = Entries.get? data.fields name := by
  have notCreated : createdField ≠ name := by
    rintro rfl
    exact h (by decide)
  have notOwner : ownerField ≠ name := by
    rintro rfl
    exact h (by decide)
  have kept : (Entries.names (withoutSystemFields data).fields).Nodup :=
    Entries.nodup_filter unique _
  simp only [newRecord, Record.set, Record.overlay, Entries.get?_set_of_ne notCreated,
    Entries.get?_overlay kept, get?_withoutSystemFields data h]
  cases owner <;> simp [Record.plain, Entries.get?_cons, notOwner]

/-- The writer's fields of a record that took the place of another one. -/
theorem get?_replacedRecord (existing data : Record) (time : Int) {name : String}
    (h : name ∉ systemFields) :
    Entries.get? (replacedRecord existing data time).fields name = Entries.get? data.fields name := by
  have notUpdated : updatedField ≠ name := by
    rintro rfl
    exact h (by decide)
  have notKept : name ∉ Entries.names (systemPart existing).fields :=
    fun kept => h (names_systemPart existing kept)
  simp only [replacedRecord, Record.set, Record.overlay, Entries.get?_set_of_ne notUpdated,
    Entries.get?_overlay_of_notMem notKept, get?_withoutSystemFields data h]

theorem get?_mergedRecord_of_missing (existing : Record) {data : Record} (time : Int) {name : String}
    (h : name ∉ systemFields) (missing : Entries.get? data.fields name = none) :
    Entries.get? (mergedRecord existing data time).fields name =
      Entries.get? existing.fields name := by
  have notUpdated : updatedField ≠ name := by
    rintro rfl
    exact h (by decide)
  have notSet : name ∉ Entries.names (withoutSystemFields data).fields := by
    rw [← Entries.get?_eq_none_iff, get?_withoutSystemFields data h, missing]
  simp only [mergedRecord, Record.set, Record.overlay, Entries.get?_set_of_ne notUpdated,
    Entries.get?_overlay_of_notMem notSet]

/-- Of the writer's fields, a merged record has those that are set, and keeps the others. -/
theorem get?_mergedRecord (existing : Record) {data : Record} (unique : (Entries.names data.fields).Nodup)
    (time : Int) {name : String} (h : name ∉ systemFields) :
    Entries.get? (mergedRecord existing data time).fields name =
      (Entries.get? data.fields name).or (Entries.get? existing.fields name) := by
  have notUpdated : updatedField ≠ name := by
    rintro rfl
    exact h (by decide)
  have kept : (Entries.names (withoutSystemFields data).fields).Nodup :=
    Entries.nodup_filter unique _
  simp only [mergedRecord, Record.set, Record.overlay, Entries.get?_set_of_ne notUpdated,
    Entries.get?_overlay kept, get?_withoutSystemFields data h]

theorem notMem_withoutSystemFields (record : Record) {name : String} (h : name ∈ systemFields) :
    name ∉ Entries.names (withoutSystemFields record).fields := by
  rw [← Entries.get?_eq_none_iff]
  have filtered := Entries.get?_filter (fun key => !systemFields.contains key) record.fields name
  simpa [withoutSystemFields, Record.without, h] using filtered

theorem names_nodup_systemPart (record : Record) :
    (Entries.names (systemPart record).fields).Nodup := by
  have none : (Entries.names ([] : Fields)).Nodup := List.nodup_nil
  exact Entries.nodup_overlay none _

theorem get?_systemPart (record : Record) {name : String} (h : name ∈ systemFields) :
    Entries.get? (systemPart record).fields name = Entries.get? record.fields name := by
  rw [systemPart, Record.get?_only, if_pos h]

theorem owner_newRecord (data : Record) (owner : Option String) (time : Int) :
    Entries.get? (newRecord data owner time).fields ownerField = owner.map .str := by
  have apart : createdField ≠ ownerField := by decide
  have notSet := notMem_withoutSystemFields data (show ownerField ∈ systemFields by decide)
  simp only [newRecord, Record.set, Record.overlay, Entries.get?_set_of_ne apart,
    Entries.get?_overlay_of_notMem notSet]
  cases owner <;> simp [Record.plain, Entries.get?_cons]

theorem created_newRecord (data : Record) (owner : Option String) (time : Int) :
    Entries.get? (newRecord data owner time).fields createdField = some (.int time) :=
  Entries.get?_set_self _ _ _

/-- What an update at a time makes of the system fields of a record: they are as they were, but for the
time of the update. -/
structure UpdatedAt (time : Int) (existing record : Record) : Prop where
  kept : ∀ name ∈ systemFields, updatedField ≠ name →
    Entries.get? record.fields name = Entries.get? existing.fields name
  updated : Entries.get? record.fields updatedField = some (.int time)

theorem updatedAt_replacedRecord (existing data : Record) (time : Int) :
    UpdatedAt time existing (replacedRecord existing data time) where
  kept name system other := by
    have notSet := Entries.get?_eq_none_iff.mpr (notMem_withoutSystemFields data system)
    have unique := names_nodup_systemPart existing
    simp only [replacedRecord, Record.set, Record.overlay, Entries.get?_set_of_ne other,
      Entries.get?_overlay unique, get?_systemPart existing system, notSet, Option.or_none]
  updated := Entries.get?_set_self _ _ _

theorem updatedAt_mergedRecord (existing data : Record) (time : Int) :
    UpdatedAt time existing (mergedRecord existing data time) where
  kept name system other := by
    have notSet := notMem_withoutSystemFields data system
    simp only [mergedRecord, Record.set, Record.overlay, Entries.get?_set_of_ne other,
      Entries.get?_overlay_of_notMem notSet]
  updated := Entries.get?_set_self _ _ _

theorem value_withId (id : String) (record : Record) : (withId id record).value idField = .str id := by
  simp [withId, Record.set, Record.value, Value.fieldOrNull]

theorem get?_withId (id : String) (record : Record) {name : String} (h : idField ≠ name) :
    Entries.get? (withId id record).fields name = Entries.get? record.fields name :=
  Entries.get?_set_of_ne h _ _

theorem identities_newRecord {data : Record} (h : data.identities = []) (owner : Option String)
    (time : Int) : (newRecord data owner time).identities = [] := by
  simp [newRecord, Record.set, Record.overlay, Record.plain, Record.raised, withoutSystemFields,
    Record.without, Entries.erase, h]

theorem identities_replacedRecord {existing data : Record} (h : existing.identities = [])
    (h' : data.identities = []) (time : Int) :
    (replacedRecord existing data time).identities = [] := by
  simp [replacedRecord, Record.set, Record.overlay, Record.raised, withoutSystemFields, systemPart,
    Record.without, Record.only, Entries.erase, h, h']

theorem identities_mergedRecord {existing data : Record} (h : existing.identities = [])
    (h' : data.identities = []) (time : Int) :
    (mergedRecord existing data time).identities = [] := by
  simp [mergedRecord, Record.set, Record.overlay, Record.raised, withoutSystemFields, Record.without,
    Entries.erase, h, h']

theorem isCircularAt_of_identities {record : Record} (h : record.identities = []) (name : String) :
    record.isCircularAt name = false := by
  simp [Record.isCircularAt, h]

/-- A record is searched for a text without regard to case. -/
theorem matchesFields_text {record : Record} (plain : record.identities = []) {name actual : String}
    (h : Entries.get? record.fields name = some (.str actual)) (expected : String) (rest : Fields) :
    matchesFields record ((name, .str expected) :: rest) =
      if Text.foldCase expected = Text.foldCase actual then matchesFields record rest
      else .ok false := by
  by_cases same : Text.foldCase expected = Text.foldCase actual <;>
    simp [matchesFields, h, isCircularAt_of_identities plain, matchesValue, same, bind, Except.bind,
      pure, Except.pure]

theorem matchesFields_nil (record : Record) : matchesFields record [] = .ok true := by
  rw [matchesFields]

/-- A record has a field with an expected value if the field is there, does not hold itself, and the
values match. -/
theorem matchesFields_single_iff {record : Record} {name : String} {expected : Value} :
    matchesFields record [(name, expected)] = .ok true ↔
      ∃ actual, Entries.get? record.fields name = some actual ∧ record.isCircularAt name = false ∧
        matchesValue expected actual = .ok true := by
  rw [matchesFields]
  cases found : Entries.get? record.fields name with
  | none => simp
  | some actual =>
      cases circular : record.isCircularAt name with
      | true => simp [pure, Except.pure]
      | false =>
          cases tested : matchesValue expected actual with
          | error fault => simp [tested, bind, Except.bind]
          | ok passed =>
              cases passed <;> simp [tested, matchesFields_nil, bind, Except.bind, pure, Except.pure]

end GuardedStore.Store
