import GuardedStore.Proofs.Request.Ownership

/-! # System fields over runs

Whatever is asked for and whatever rules assign, a stored record keeps its owner and the time of its
creation, and knows when it was updated last. One request either leaves the record under an id as it is,
updates it at the time of the clock, or deletes it.
-/

namespace GuardedStore.Request

/-- The request is one to update the record under an id of a collection. -/
structure AsksUpdate (name id : String) (request : Request) : Prop where
  action : request.action = .update
  named : request.collection = some name
  target : request.id = some id

/-- The request updates the record under an id of a collection. -/
def Updates (service : Service) (name id : String) (request : Request) (world : World) : Prop :=
  AsksUpdate name id request ∧ ∃ answer world', execute service request world = .ok answer world'

/-- There is a record under the id in every state of a run. -/
def StaysStored (service : Service) (name id : String) (requests : List Request) (world : World) :
    Prop :=
  ∀ done later, requests = done ++ later →
    ∃ record, (executeAll service done world).records.stored name id = .ok record

/-- No request of a run updates the record under the id. -/
def NeverUpdated (service : Service) (name id : String) (requests : List Request) (world : World) :
    Prop :=
  ∀ done request later, requests = done ++ request :: later →
    ¬ Updates service name id request (executeAll service done world)

/-- A record belongs to whom another one belonged, and was created when the other was. -/
structure SameOrigin (record other : Record) : Prop where
  owner : Entries.get? other.fields ownerField = Entries.get? record.fields ownerField
  created : Entries.get? other.fields createdField = Entries.get? record.fields createdField

theorem SameOrigin.refl (record : Record) : SameOrigin record record :=
  ⟨rfl, rfl⟩

theorem SameOrigin.trans {first second third : Record} (h : SameOrigin first second)
    (h' : SameOrigin second third) : SameOrigin first third :=
  ⟨h'.owner.trans h.owner, h'.created.trans h.created⟩

theorem sameOrigin_of_updatedAt {time : Int} {record updated : Record}
    (h : Store.UpdatedAt time record updated) : SameOrigin record updated :=
  ⟨h.kept ownerField (by decide) (by decide), h.kept createdField (by decide) (by decide)⟩

variable {service : Service} {name id : String} {request : Request} {requests : List Request}
  {world world' : World} {answer : Answer} {record : Record}

theorem freshDiffer_execute (service : Service) (request : Request)
    (differ : world.supply.FreshDiffer) :
    (leaves (execute service request) world).supply.FreshDiffer := by
  rcases leaves_execute service request world with same | ⟨answer, effect⟩
  · rwa [same]
  · generalize leaves (execute service request) world = world' at effect ⊢
    cases effect with
    | read | merged | replaced | deleted => exact differ
    | created => exact differ.drawId _

theorem Effect.created_eq (effect : Effect service request world answer world')
    (action : request.action = .create) :
    ∃ name payload, request.collection = some name ∧
      answer = .record (withId (world.records.nextId world.supply name)
        (Store.newRecord payload (request.principal.map (·.id)) world.supply.clock)) ∧
      world'.records = world.records.put name (world.records.nextId world.supply name)
        (Store.newRecord payload (request.principal.map (·.id)) world.supply.clock) := by
  cases effect with
  | read other | merged other | replaced other | deleted other => cases action.symm.trans other
  | created _ named => exact ⟨_, _, collection_of_required named, rfl, rfl⟩

theorem Effect.updated_eq (effect : Effect service request world answer world')
    (action : request.action = .update) :
    ∃ name id existing record, request.collection = some name ∧ request.id = some id ∧
      Entries.get? (world.records.entries name) id = some existing ∧
      Store.UpdatedAt world.supply.clock existing record ∧ answer = .record (withId id record) ∧
      world'.records = world.records.put name id record := by
  cases effect with
  | read other | created other | deleted other => cases action.symm.trans other
  | merged _ named target stored =>
      exact ⟨_, _, _, _, collection_of_required named, id_of_required target, stored,
        Store.updatedAt_mergedRecord _ _ _, rfl, rfl⟩
  | replaced _ named target stored =>
      exact ⟨_, _, _, _, collection_of_required named, id_of_required target, stored,
        Store.updatedAt_replacedRecord _ _ _, rfl, rfl⟩

theorem Effect.kept {left : Record} (effect : Effect service request world answer world')
    (differ : world.supply.FreshDiffer)
    (stored : Entries.get? (world.records.entries name) id = some record)
    (there : Entries.get? (world'.records.entries name) id = some left) :
    (AsksUpdate name id request ∧ Store.UpdatedAt world.supply.clock record left) ∨
      (¬ AsksUpdate name id request ∧ left = record) := by
  by_cases action : request.action = .update
  · obtain ⟨otherName, otherId, existing, updated, named, target, found, aged, -, put⟩ :=
      effect.updated_eq action
    rw [put, Store.get?_put] at there
    split at there
    · rename_i same
      obtain ⟨rfl, rfl⟩ := same
      cases found.symm.trans stored
      cases there
      exact .inl ⟨⟨action, named, target⟩, aged⟩
    · rename_i apart
      refine .inr ⟨fun asks => apart ?_, Option.some.inj (there.symm.trans stored)⟩
      exact ⟨Option.some.inj (named.symm.trans asks.named),
        Option.some.inj (target.symm.trans asks.target)⟩
  · refine .inr ⟨fun asks => action asks.action, ?_⟩
    cases effect with
    | merged other | replaced other => exact absurd other action
    | read => exact Option.some.inj (there.symm.trans stored)
    | @created otherName =>
        rw [Store.get?_put, if_neg] at there
        · exact Option.some.inj (there.symm.trans stored)
        · rintro ⟨rfl, rfl⟩
          have new := world.records.nextId_notMem differ otherName
          rw [Entries.get?_eq_none_iff.mpr new] at stored
          cases stored
    | deleted =>
        rw [Store.get?_without] at there
        split at there
        · cases there
        · exact Option.some.inj (there.symm.trans stored)

theorem execute_kept {left : Record} (differ : world.supply.FreshDiffer)
    (stored : world.records.stored name id = .ok record)
    (there : (leaves (execute service request) world).records.stored name id = .ok left) :
    SameOrigin record left ∧
      (¬ Updates service name id request world →
        Entries.get? left.fields updatedField = Entries.get? record.fields updatedField) := by
  rw [Store.stored_ok_iff] at stored there
  cases done : execute service request world with
  | error fault world' =>
      rw [leaves_of_error done] at there
      cases atomic_execute service request _ _ _ done
      cases there.symm.trans stored
      exact ⟨.refl record, fun _ => rfl⟩
  | ok answer world' =>
      rw [leaves_of_ok done] at there
      rcases (execute_effect done).kept differ stored there with ⟨asks, aged⟩ | ⟨-, rfl⟩
      · exact ⟨sameOrigin_of_updatedAt aged, fun never => absurd ⟨asks, answer, world', done⟩ never⟩
      · exact ⟨.refl left, fun _ => rfl⟩

theorem StaysStored.start (stays : StaysStored service name id requests world) :
    ∃ record, world.records.stored name id = .ok record :=
  stays [] requests rfl

theorem StaysStored.rest (stays : StaysStored service name id (request :: requests) world) :
    StaysStored service name id requests (leaves (execute service request) world) := by
  rintro done later rfl
  exact stays (request :: done) later rfl

theorem NeverUpdated.rest (never : NeverUpdated service name id (request :: requests) world) :
    NeverUpdated service name id requests (leaves (execute service request) world) := by
  rintro done next later rfl
  exact never (request :: done) next later rfl

theorem freshDiffer_executeAll (service : Service) (requests : List Request)
    (differ : world.supply.FreshDiffer) :
    (executeAll service requests world).supply.FreshDiffer := by
  induction requests generalizing world with
  | nil => exact differ
  | cons request rest ih => exact ih (freshDiffer_execute service request differ)

/-- While a record stays stored it keeps its origin, and without an update the time of the last one. -/
theorem executeAll_kept (differ : world.supply.FreshDiffer)
    (stored : world.records.stored name id = .ok record)
    (stays : StaysStored service name id requests world) :
    ∃ left, (executeAll service requests world).records.stored name id = .ok left ∧
      SameOrigin record left ∧
      (NeverUpdated service name id requests world →
        Entries.get? left.fields updatedField = Entries.get? record.fields updatedField) := by
  induction requests generalizing world record with
  | nil => exact ⟨record, stored, .refl record, fun _ => rfl⟩
  | cons request rest ih =>
      obtain ⟨next, there⟩ := stays.rest.start
      obtain ⟨origin, unchanged⟩ := execute_kept differ stored there
      obtain ⟨left, found, later, aged⟩ :=
        ih (freshDiffer_execute service request differ) there stays.rest
      refine ⟨left, found, origin.trans later, fun never => ?_⟩
      exact (aged never.rest).trans (unchanged (never [] request rest rfl))

/-- A record is in the store under an id, and an answer is this record with its id. -/
structure ShowsStored (world : World) (name id : String) (record : Record) (answer : Answer) : Prop where
  stored : world.records.stored name id = .ok record
  shown : answer = .record (withId id record)
  id_eq : Entries.get? (withId id record).fields idField = some (.str id)

theorem showsStored_of_put {stored : Record} (put : world'.records = world.records.put name id stored) :
    ShowsStored world' name id stored (.record (withId id stored)) where
  stored := by
    rw [Store.stored_ok_iff, put, Store.get?_put, if_pos ⟨rfl, rfl⟩]
  shown := rfl
  id_eq := Entries.get?_set_self _ _ _

/-- What becomes of the system fields of records from a state on. -/
structure GuardsSystemFields (service : Service) (world : World) : Prop where
  /-- A record keeps its owner and the time of its creation while it stays stored. -/
  kept : ∀ {name id : String} {record : Record} {requests : List Request},
    world.records.stored name id = .ok record → StaysStored service name id requests world →
    ∃ left, (executeAll service requests world).records.stored name id = .ok left ∧
      SameOrigin record left
  /-- A new record belongs to the caller, if known, and was created when the clock was read. -/
  created : ∀ {request : Request} {answer : Answer} {world' : World}, request.action = .create →
    execute service request world = .ok answer world' →
    ∃ name id record, request.collection = some name ∧
      (∀ old, world.records.stored name id ≠ .ok old) ∧ ShowsStored world' name id record answer ∧
      ∀ requests, StaysStored service name id requests world' →
        ∃ left, (executeAll service requests world').records.stored name id = .ok left ∧
          Entries.get? left.fields ownerField = request.principal.map (.str ·.id) ∧
          Entries.get? left.fields createdField = some (.int world.supply.clock)
  /-- An updated record was updated when the clock was read, up to the next update. -/
  updated : ∀ {request : Request} {answer : Answer} {world' : World}, request.action = .update →
    execute service request world = .ok answer world' →
    ∃ name id record, request.collection = some name ∧ request.id = some id ∧
      ShowsStored world' name id record answer ∧
      ∀ requests, StaysStored service name id requests world' →
        NeverUpdated service name id requests world' →
        ∃ left, (executeAll service requests world').records.stored name id = .ok left ∧
          Entries.get? left.fields updatedField = some (.int world.supply.clock)

/-- In every state of a run, system fields are out of reach of callers and rules. -/
theorem executeAll_guardsSystemFields (service : Service) {start : World}
    (differ : start.supply.FreshDiffer) (before : List Request) :
    GuardsSystemFields service (executeAll service before start) := by
  have differ := freshDiffer_executeAll service before differ
  generalize executeAll service before start = world at differ ⊢
  constructor
  · intro name id record requests stored stays
    obtain ⟨left, found, origin, -⟩ := executeAll_kept differ stored stays
    exact ⟨left, found, origin⟩
  · intro request answer world' action done
    have differ' := freshDiffer_execute service request differ
    rw [leaves_of_ok done] at differ'
    obtain ⟨name, payload, named, rfl, put⟩ := (execute_effect done).created_eq action
    have shows' := showsStored_of_put put
    refine ⟨name, _, _, named, ?_, shows', fun requests stays => ?_⟩
    · intro old stored
      have new := world.records.nextId_notMem differ name
      rw [Store.stored_ok_iff, Entries.get?_eq_none_iff.mpr new] at stored
      cases stored
    · obtain ⟨left, found, origin, -⟩ := executeAll_kept differ' shows'.stored stays
      refine ⟨left, found, ?_, origin.created.trans (Store.created_newRecord _ _ _)⟩
      rw [origin.owner, Store.owner_newRecord, Option.map_map]
      rfl
  · intro request answer world' action done
    have differ' := freshDiffer_execute service request differ
    rw [leaves_of_ok done] at differ'
    obtain ⟨name, id, existing, record, named, target, -, aged, rfl, put⟩ :=
      (execute_effect done).updated_eq action
    have shows' := showsStored_of_put put
    refine ⟨name, id, record, named, target, shows', fun requests stays never => ?_⟩
    obtain ⟨left, found, -, unchanged⟩ := executeAll_kept differ' shows'.stored stays
    exact ⟨left, found, (unchanged never).trans aged.updated⟩

/-- Whether a note is Ann's, but for its text and the time of its second update. -/
def isNoteOfAnn : Except Refusal Record → Bool
  | .ok ⟨[("text", .str "his"), ("_createdOn", .int 7), ("_updatedOn", .int 1),
      ("_ownerId", .str "ann")], _⟩ => true
  | _ => false

/-- A rule makes Eve the owner of whatever is updated, and Bob sets all system fields of Ann's note, twice. -/
theorem guardsSystemFields_note_of_ann :
    let service : Service :=
      ⟨{ default := { actions := { update := some (.expression "newData._ownerId = 'eve'") } } }, {}⟩
    let start : World :=
      { records := .ofSnapshot [("notes", [("n1", [("_ownerId", .str "ann"), ("_createdOn", .int 7)])])]
        accounts := .empty
        supply := .numbered [] }
    let request : Request :=
      { action := .update, collection := "notes", id := "n1", principal := some { id := "bob" },
        payload := [("_id", .str "n2"), ("_ownerId", .str "bob"), ("_createdOn", .int 1),
          ("_updatedOn", .int 2), ("text", .str "his")] }
    let run := [request, request]
    start.supply.FreshDiffer ∧ GuardsSystemFields service (executeAll service run start) ∧
      ∃ record, (executeAll service run start).records.stored "notes" "n1" = .ok record ∧
        record.fields = [("text", .str "his"), ("_createdOn", .int 7), ("_updatedOn", .int 1),
          ("_ownerId", .str "ann")] := by
  intro service start request run
  have differ : start.supply.FreshDiffer := Supply.numbered_freshDiffer _
  refine ⟨differ, executeAll_guardsSystemFields service differ run, ?_⟩
  have stored : isNoteOfAnn ((executeAll service run start).records.stored "notes" "n1") = true := by
    decide +kernel
  generalize (executeAll service run start).records.stored "notes" "n1" = found at stored ⊢
  unfold isNoteOfAnn at stored
  split at stored
  · exact ⟨_, rfl, rfl⟩
  · cases stored

end GuardedStore.Request
