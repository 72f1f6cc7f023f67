import GuardedStore.Proofs.Store.Writes

/-! # Rewriting a record

A record that is there can be replaced or merged into, as often as its callers like. Two merges come to a
single one of both payloads, and so does a merge behind a replacement. A replacement leaves nothing of what
was written before it: of the record that it finds it keeps the system fields, and no rewriting changes these,
but for the time of the last change.
-/

namespace GuardedStore.Store

/-- The same values stand under the same names, the time of the last change apart. The order of the names
does not count. -/
def SameButTime (record other : Record) : Prop :=
  ∀ name, name ≠ updatedField → Entries.get? record.fields name = Entries.get? other.fields name

/-- A payload has the fields of another one, overlaid by those of a third. -/
structure Overlaid (first second both : Record) : Prop where
  distinct : (Entries.names both.fields).Nodup
  fields : ∀ name, Entries.get? both.fields name =
    (Entries.get? second.fields name).or (Entries.get? first.fields name)

theorem overlaid_overlay {first second : Record} (unique : (Entries.names first.fields).Nodup)
    (unique' : (Entries.names second.fields).Nodup) : Overlaid first second (first.overlay second) where
  distinct := Entries.nodup_overlay unique _
  fields name := Entries.get?_overlay unique' _ name

theorem SameButTime.withId {record other : Record} (same : SameButTime record other) (id : String) :
    SameButTime (withId id record) (withId id other) := by
  intro name apart
  by_cases isId : idField = name
  · simp [GuardedStore.withId, Record.set, isId]
  · rw [get?_withId id record isId, get?_withId id other isId, same name apart]

/-- What is done to a record that is there. -/
inductive Rewrite where
  | replace (data : Record)
  | merge (data : Record)

namespace Rewrite

/-- What a rewriting at a time makes of a record. -/
def apply (existing : Record) (time : Int) : Rewrite → Record
  | .replace data => replacedRecord existing data time
  | .merge data => mergedRecord existing data time

/-- The write of the record under an id of a collection. -/
def write (name id : String) : Rewrite → Write
  | .replace data => .replace name id data
  | .merge data => .merge name id data

theorem updatedAt_apply (existing : Record) (time : Int) (rewrite : Rewrite) :
    UpdatedAt time existing (rewrite.apply existing time) := by
  cases rewrite with
  | replace data => exact updatedAt_replacedRecord existing data time
  | merge data => exact updatedAt_mergedRecord existing data time

variable {state : Supplied} {name id : String} {existing : Record}

theorem run_write (stored : state.store.stored name id = .ok existing) (rewrite : Rewrite) :
    (rewrite.write name id).run state =
      .ok ⟨withId id (rewrite.apply existing state.supply.clock),
        state.store.put name id (rewrite.apply existing state.supply.clock), state.supply.tick.2⟩ := by
  cases rewrite with
  | replace data => exact replace_of_stored (stored_ok_iff.mp stored) state.supply data
  | merge data => exact merge_of_stored (stored_ok_iff.mp stored) state.supply data

/-- A rewriting leaves a record under the id. -/
theorem stored_leaves (stored : state.store.stored name id = .ok existing) (rewrite : Rewrite) :
    ((rewrite.write name id).leaves state).store.stored name id =
      .ok (rewrite.apply existing state.supply.clock) := by
  rw [Write.leaves_of_ok (run_write stored rewrite), stored_ok_iff, get?_put, if_pos ⟨rfl, rfl⟩]

/-- The system fields are the same, the time of the last change apart. -/
def KeepsSystem (existing record : Record) : Prop :=
  ∀ field ∈ systemFields, updatedField ≠ field →
    Entries.get? record.fields field = Entries.get? existing.fields field

theorem stored_writeAll (stored : state.store.stored name id = .ok existing) (rewrites : List Rewrite) :
    ∃ record, (writeAll (rewrites.map (write name id)) state).store.stored name id = .ok record ∧
      KeepsSystem existing record := by
  induction rewrites generalizing state existing with
  | nil => exact ⟨existing, stored, fun _ _ _ => rfl⟩
  | cons rewrite rest ih =>
      obtain ⟨record, left, kept⟩ := ih (stored_leaves stored rewrite)
      refine ⟨record, left, fun field system other => ?_⟩
      exact (kept field system other).trans
        ((updatedAt_apply existing state.supply.clock rewrite).kept field system other)

theorem sameButTime_of_updatedAt {existing' record record' : Record} {time time' : Int}
    (updated : UpdatedAt time existing record) (updated' : UpdatedAt time' existing' record')
    (system : KeepsSystem existing existing')
    (own : ∀ field, field ∉ systemFields →
      Entries.get? record.fields field = Entries.get? record'.fields field) :
    SameButTime record record' := by
  intro field apart
  by_cases isSystem : field ∈ systemFields
  · rw [updated.kept field isSystem apart.symm, updated'.kept field isSystem apart.symm,
      system field isSystem apart.symm]
  · exact own field isSystem

/-- The record that a last rewriting leaves after some others, which it also answers with. -/
structure Leaves (state : Supplied) (name id : String) (rewrites : List Rewrite) (last : Rewrite)
    (record : Record) : Prop where
  answers : ((last.write name id).run (writeAll (rewrites.map (write name id)) state)).map (·.record) =
    .ok (withId id record)
  stored : (writeAll ((rewrites ++ [last]).map (write name id)) state).store.stored name id = .ok record

theorem writeAll_append (writes later : List Write) (state : Supplied) :
    writeAll (writes ++ later) state = writeAll later (writeAll writes state) := by
  induction writes generalizing state with
  | nil => rfl
  | cons write rest ih => exact ih (write.leaves state)

theorem leaves_of_stored {rewrites : List Rewrite} {last : Rewrite}
    (stored : (writeAll (rewrites.map (write name id)) state).store.stored name id = .ok existing) :
    Leaves state name id rewrites last
      (last.apply existing (writeAll (rewrites.map (write name id)) state).supply.clock) where
  answers := by
    rw [run_write stored last]
    rfl
  stored := by
    rw [List.map_append, writeAll_append]
    exact stored_leaves stored last

/-- With the others before it, a last rewriting leaves the same record as a single one does alone. -/
def ComesTo (state : Supplied) (name id : String) (rewrites : List Rewrite) (last single : Rewrite) : Prop :=
  ∃ record other, Leaves state name id rewrites last record ∧ Leaves state name id [] single other ∧
    SameButTime record other ∧ SameButTime (withId id record) (withId id other)

theorem comesTo_of_own (stored : state.store.stored name id = .ok existing) {rewrites : List Rewrite}
    {last single : Rewrite}
    (own : ∀ before time time', (writeAll (rewrites.map (write name id)) state).store.stored name id =
      .ok before → ∀ field, field ∉ systemFields →
        Entries.get? (last.apply before time).fields field =
          Entries.get? (single.apply existing time').fields field) :
    ComesTo state name id rewrites last single := by
  obtain ⟨before, left, kept⟩ := stored_writeAll stored rewrites
  have same : SameButTime (last.apply before (writeAll (rewrites.map (write name id)) state).supply.clock)
      (single.apply existing state.supply.clock) :=
    sameButTime_of_updatedAt (updatedAt_apply before _ last) (updatedAt_apply existing _ single)
      (fun field system other => (kept field system other).symm) (own before _ _ left)
  exact ⟨_, _, leaves_of_stored left, leaves_of_stored stored, same, same.withId id⟩

theorem stored_after_one {before : Record} (stored : state.store.stored name id = .ok existing)
    {rewrite : Rewrite}
    (left : (writeAll ([rewrite].map (write name id)) state).store.stored name id = .ok before) :
    before = rewrite.apply existing state.supply.clock :=
  Except.ok.inj (left.symm.trans (stored_leaves stored rewrite))

/-- Two merges come to a merge of both payloads, a merge behind a replacement comes to a replacement by both,
and a replacement comes to the same whatever was done to the record before. -/
theorem rewrites_compose (stored : state.store.stored name id = .ok existing) {first second both : Record}
    (unique : (Entries.names first.fields).Nodup) (unique' : (Entries.names second.fields).Nodup)
    (overlaid : Overlaid first second both) :
    ComesTo state name id [.merge first] (.merge second) (.merge both) ∧
      ComesTo state name id [.replace first] (.merge second) (.replace both) ∧
      ∀ rewrites, ComesTo state name id rewrites (.replace second) (.replace second) := by
  refine ⟨comesTo_of_own stored ?_, comesTo_of_own stored ?_, fun rewrites => comesTo_of_own stored ?_⟩
  · intro before time time' left field own
    cases stored_after_one stored left
    simp only [apply, get?_mergedRecord _ unique' _ own, get?_mergedRecord _ unique _ own,
      get?_mergedRecord _ overlaid.distinct _ own, overlaid.fields, Option.or_assoc]
  · intro before time time' left field own
    cases stored_after_one stored left
    simp only [apply, get?_mergedRecord _ unique' _ own, get?_replacedRecord _ _ _ own, overlaid.fields]
  · intro before time time' _ field own
    simp only [apply, get?_replacedRecord _ _ _ own]

/-- A seeded note that has an id of its own and a time of its last change. -/
def seededNote : Fields :=
  [("_id", .str "n0"), ("_updatedOn", .int 7), ("text", .str "old"), ("_ownerId", .str "ann")]

def seededNotes : Snapshot :=
  [("notes", [("n1", seededNote)])]

/-- Payloads that overlap, nest and name system fields. -/
def firstPayload : Record :=
  .plain [("text", .str "one"), ("tags", .list [.object [("a", .int 1)]]), ("_ownerId", .str "bob")]

def secondPayload : Record :=
  .plain [("tags", .object [("b", .null)]), ("_createdOn", .int 0), ("done", .bool true)]

theorem rewrites_compose_on_seeded_note :
    ComesTo ⟨ofSnapshot seededNotes, Supply.numbered []⟩ "notes" "n1" [.merge firstPayload]
        (.merge secondPayload) (.merge (firstPayload.overlay secondPayload)) ∧
      ComesTo ⟨ofSnapshot seededNotes, Supply.numbered []⟩ "notes" "n1" [.replace firstPayload]
        (.merge secondPayload) (.replace (firstPayload.overlay secondPayload)) ∧
      ∀ rewrites, ComesTo ⟨ofSnapshot seededNotes, Supply.numbered []⟩ "notes" "n1" rewrites
        (.replace secondPayload) (.replace secondPayload) := by
  have unique : (Entries.names firstPayload.fields).Nodup := by decide
  have unique' : (Entries.names secondPayload.fields).Nodup := by decide
  have stored : (ofSnapshot seededNotes).stored "notes" "n1" = .ok (.plain seededNote) := rfl
  exact rewrites_compose stored unique unique' (overlaid_overlay unique unique')

end Rewrite

end GuardedStore.Store
