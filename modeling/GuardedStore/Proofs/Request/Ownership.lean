import GuardedStore.Proofs.Access.Denial
import GuardedStore.Proofs.Request.Effect
import GuardedStore.Proofs.Store.Fields

/-! # Records of others

Where only owners may update and delete a record, requests of others leave it alone, however many of
them there are and whatever they do to other records. A record without an owner belongs to nobody, so
that nobody changes it without an override.
-/

namespace GuardedStore.Request

open Access (RuleSet Rule)
open Expression (Heap)

/-- The state after requests were executed, one after another, whether they succeeded or not. -/
def executeAll (service : Service) : List Request → World → World
  | [], world => world
  | request :: rest, world => executeAll service rest (leaves (execute service request) world)

/-- Only owners may update and delete a record. -/
def OwnersOnly (rules : RuleSet) (name id : String) : Prop :=
  (rules.resolve .update (some name) (some id)).rule = .roles [.owner] ∧
    (rules.resolve .delete (some name) (some id)).rule = .roles [.owner]

/-- The request comes without override from somebody whom a record does not belong to: from nobody
known, or from a principal whose id is not loosely equal to the owner of the record. -/
structure FromOther (record : Record) (request : Request) : Prop where
  noOverride : request.override = false
  apart : ∀ principal, request.principal = some principal →
    Value.looseEquals (record.value ownerField) (.str principal.id) ≠ .ok true

theorem resolve_of_no_collections {rules : RuleSet} (none : rules.collections = [])
    (action : Access.Action) (collection id : Option String) :
    rules.resolve action collection id =
      ⟨Rule.orBroader (rules.default.actions.rule? action) (.flag true), []⟩ := by
  have ungrouped : rules.group? collection = Option.none := by
    cases named : Access.nonEmpty? collection <;>
      simp [RuleSet.group?, RuleSet.collection?, named, none]
  simp only [RuleSet.resolve, ungrouped]

theorem builtIn_eq :
    RuleSet.builtIn = .ok
      { default :=
          { actions :=
              { create := some (.roles [.user])
                update := some (.roles [.owner])
                delete := some (.roles [.owner]) } } } := rfl

theorem builtIn_ownersOnly {rules : RuleSet} (builtIn : RuleSet.builtIn = .ok rules)
    (name id : String) : OwnersOnly rules name id := by
  rw [builtIn_eq] at builtIn
  cases builtIn
  constructor
  · rw [resolve_of_no_collections rfl]
    rfl
  · rw [resolve_of_no_collections rfl]
    rfl

theorem owner_withId (id : String) (record : Record) :
    (withId id record).value ownerField = record.value ownerField := by
  have apart : idField ≠ ownerField := by decide
  simp only [Record.value, Value.fieldOrNull, Store.get?_withId id record apart]

/-- A request that needs a collection names one, and not by an empty text. -/
theorem requireCollection_ok {request : Request} {name : String}
    (h : request.requireCollection = .ok name) : request.collection = some name ∧ name.isEmpty = false := by
  simp only [requireCollection, Query.given?] at h
  cases given : request.collection with
  | none => simp [given] at h
  | some text =>
      rw [given, Option.filter_some] at h
      split at h <;> simp_all

theorem collection_of_required {request : Request} {name : String}
    (h : request.requireCollection = .ok name) : request.collection = some name :=
  (requireCollection_ok h).1

theorem id_of_required {request : Request} {id : String} (h : request.requireId = .ok id) :
    request.id = some id := by
  rw [requireId] at h
  cases given : request.id <;> simp_all

theorem loadCaller?_run (principal : Option Access.Principal) (heap : Heap) :
    ∃ caller heap', loadCaller? principal heap = .ok caller heap' ∧
      caller.map (·.id) = principal.map (·.id) := by
  cases principal with
  | none => exact ⟨none, heap, rfl, rfl⟩
  | some principal =>
      obtain ⟨attributes, heap', loaded, -⟩ := Access.loadCaller_run principal heap
      refine ⟨some ⟨principal.id, attributes⟩, heap', ?_, rfl⟩
      rw [loadCaller?, bind_of_ok loaded]
      rfl

/-- The payload of a write is loaded behind the record that it goes to. -/
theorem loadPayload?_run (payload : Option Fields) {heap : Heap} {slot : Expression.Slot}
    {record : Record} (held : heap.Holds slot record) :
    ∃ newData heap', loadPayload? payload heap = .ok newData heap' ∧ heap'.Holds slot record := by
  cases payload with
  | none => exact ⟨none, heap, rfl, held⟩
  | some payload =>
      obtain ⟨newData, heap', loaded, grown, -⟩ := Access.loadRecord_run (.plain payload) heap
      refine ⟨some newData, heap', ?_, held.mono grown⟩
      rw [loadPayload?, bind_of_ok loaded, pure_run]

theorem not_passes {service : Service} {request : Request} {world : World} {name id : String}
    {record : Record} (other : FromOther record request)
    (ruled : (service.rules.resolve request.action (some name) (some id)).rule = .roles [.owner])
    (named : request.collection = some name) (payload : Option Fields) (written : Record) :
    ¬ Passes service request world (withId id record) payload written := by
  intro passes
  obtain ⟨caller, heap, known, same⟩ := loadCaller?_run request.principal .empty
  obtain ⟨slot, heap, loaded, -, held⟩ := Access.loadRecord_run (withId id record) heap
  obtain ⟨newData, heap, prepared, held⟩ := loadPayload?_run payload held
  have stranger : ∀ one, caller = some one →
      Value.looseEquals ((withId id record).value ownerField) (.str one.id) ≠ .ok true := by
    rintro one rfl
    obtain ⟨principal, isPrincipal, sameId⟩ := Option.map_eq_some_iff.mp same.symm
    rw [owner_withId]
    exact (show principal.id = one.id from sameId) ▸ other.apart principal isPrincipal
  let attempt : Access.Attempt :=
    { action := request.action, collection := request.collection, caller, data := slot, newData,
      override := request.override }
  have ownersOnly : (service.rules.resolve attempt.action attempt.collection (some id)).rule =
      .roles [.owner] := by
    rw [show attempt.collection = some name from named]
    exact ruled
  obtain ⟨fault, heap, denied⟩ := Access.enforce_ownersOnly held (Store.value_withId id record) ownersOnly
    (Access.lookupIn world.records) other.noOverride stranger
  have ended : gateWrite service (Access.lookupIn world.records) request (withId id record) payload
      .empty = .error fault heap := by
    rw [gateWrite, bind_of_ok known, bind_of_ok loaded, bind_of_ok prepared, bind_of_error denied]
  simp only [Passes, checked, EStateM.run, ended] at passes
  cases passes

theorem place_ne_of_passes {service : Service} {request : Request} {world : World} {name id : String}
    {record : Record} (ruled : OwnersOnly service.rules name id) (other : FromOther record request)
    (stored : Entries.get? (world.records.entries name) id = some record)
    (changes : request.action = .update ∨ request.action = .delete) {otherName otherId : String}
    {existing written : Record} {payload : Option Fields} (named : request.requireCollection = .ok otherName)
    (there : Entries.get? (world.records.entries otherName) otherId = some existing)
    (passes : Passes service request world (withId otherId existing) payload written) :
    ¬(otherName = name ∧ otherId = id) := by
  rintro ⟨rfl, rfl⟩
  cases there.symm.trans stored
  have ownersOnly :
      (service.rules.resolve request.action (some otherName) (some otherId)).rule = .roles [.owner] := by
    rcases changes with update | delete
    · exact update ▸ ruled.1
    · exact delete ▸ ruled.2
  exact not_passes other ownersOnly (collection_of_required named) _ _ passes

theorem execute_keeps {service : Service} {request : Request} {world : World} {name id : String}
    {record : Record} (ruled : OwnersOnly service.rules name id) (other : FromOther record request)
    (differ : world.supply.FreshDiffer)
    (stored : Entries.get? (world.records.entries name) id = some record) :
    Entries.get? ((leaves (execute service request) world).records.entries name) id = some record ∧
      (leaves (execute service request) world).supply.FreshDiffer := by
  rcases leaves_execute service request world with same | ⟨answer, effect⟩
  · rw [same]
    exact ⟨stored, differ⟩
  generalize leaves (execute service request) world = world' at effect ⊢
  -- A write under the id of the record itself cannot have passed its check.
  cases effect with
  | read => exact ⟨stored, differ⟩
  | @created other payload action named passes =>
      have new := world.records.nextId_notMem differ other
      refine ⟨?_, differ.drawId _⟩
      rw [Store.get?_put, if_neg]
      · exact stored
      · rintro ⟨rfl, rfl⟩
        rw [Entries.get?_eq_none_iff.mpr new] at stored
        cases stored
  | @merged otherName otherId existing payload action named target there passes merge =>
      refine ⟨?_, differ⟩
      rw [Store.get?_put, if_neg (place_ne_of_passes ruled other stored (.inl action) named there passes)]
      exact stored
  | @replaced otherName otherId existing payload action named target there passes merge =>
      refine ⟨?_, differ⟩
      rw [Store.get?_put, if_neg (place_ne_of_passes ruled other stored (.inl action) named there passes)]
      exact stored
  | @deleted otherName otherId existing written action named target there passes =>
      refine ⟨?_, differ⟩
      rw [Store.get?_without, if_neg (place_ne_of_passes ruled other stored (.inr action) named there passes)]
      exact stored

theorem executeAll_keeps {service : Service} {name id : String} {record : Record}
    (ruled : OwnersOnly service.rules name id) (requests : List Request) (world : World)
    (others : ∀ request ∈ requests, FromOther record request) (differ : world.supply.FreshDiffer)
    (stored : Entries.get? (world.records.entries name) id = some record) :
    Entries.get? ((executeAll service requests world).records.entries name) id = some record := by
  induction requests generalizing world with
  | nil => exact stored
  | cons request rest ih =>
      obtain ⟨stored, differ⟩ := execute_keeps ruled (others request (by simp)) differ stored
      exact ih _ (fun request later => others request (by simp [later])) differ stored

theorem fromOther_of_ownerless {record : Record} {request : Request}
    (ownerless : Entries.get? record.fields ownerField = none) (noOverride : request.override = false) :
    FromOther record request where
  noOverride := noOverride
  apart principal _ := by
    simp [Record.value, Value.fieldOrNull, ownerless, Value.looseEquals]

/-- A record that only owners may update and delete outlives every run of requests that come from
others without override, exactly as it was; one without an owner outlives every run without
override. -/
theorem owned_record_survives {service : Service} {name id : String} {record : Record}
    {world : World} (ruled : OwnersOnly service.rules name id)
    (stored : world.records.stored name id = .ok record) (differ : world.supply.FreshDiffer) :
    (∀ requests : List Request, (∀ request ∈ requests, FromOther record request) →
        (executeAll service requests world).records.stored name id = .ok record) ∧
      (Entries.get? record.fields ownerField = none →
        ∀ requests : List Request, (∀ request ∈ requests, request.override = false) →
          (executeAll service requests world).records.stored name id = .ok record) := by
  rw [Store.stored_ok_iff] at stored
  refine ⟨fun requests others => ?_, fun ownerless requests noOverride => ?_⟩
  · exact Store.stored_ok_iff.mpr (executeAll_keeps ruled requests world others differ stored)
  · have others : ∀ request ∈ requests, FromOther record request :=
      fun request member => fromOther_of_ownerless ownerless (noOverride request member)
    exact Store.stored_ok_iff.mpr (executeAll_keeps ruled requests world others differ stored)

/-- A note of Ann's, among the built-in rules: Bob replaces it, adds a note for which its id is queued,
and an unknown caller deletes it. -/
theorem owned_record_survives_bob_and_stranger :
    let rules : RuleSet :=
      { default :=
          { actions :=
              { create := some (.roles [.user])
                update := some (.roles [.owner])
                delete := some (.roles [.owner]) } } }
    let note : Record := .plain [("text", .str "mine"), (ownerField, .str "ann")]
    let world : World :=
      { records := .ofSnapshot [("notes", [("n1", note.fields)])], accounts := .empty,
        supply := .numbered ["n1"] }
    let bob : Access.Principal := { id := "bob" }
    let requests : List Request :=
      [{ action := .update, collection := "notes", id := "n1", principal := bob,
         payload := [("text", .str "his"), (ownerField, .str "bob")] },
       { action := .create, collection := "notes", principal := bob, payload := [("text", .str "new")] },
       { action := .delete, collection := "notes", id := "n1" }]
    OwnersOnly rules "notes" "n1" ∧
      world.records.stored "notes" "n1" = .ok note ∧
      world.supply.FreshDiffer ∧ (∀ request ∈ requests, FromOther note request) ∧
      (executeAll ⟨rules, {}⟩ requests world).records.stored "notes" "n1" = .ok note := by
  intro rules note world bob requests
  have ruled : OwnersOnly rules "notes" "n1" := builtIn_ownersOnly rfl "notes" "n1"
  have stored : world.records.stored "notes" "n1" = .ok note := rfl
  have differ : world.supply.FreshDiffer := Supply.numbered_freshDiffer _
  have apart : Value.looseEquals (note.value ownerField) (.str bob.id) ≠ .ok true := by decide
  have others : ∀ request ∈ requests, FromOther note request := by
    intro request member
    simp only [requests, List.mem_cons, List.not_mem_nil, or_false] at member
    rcases member with rfl | rfl | rfl
    · exact ⟨rfl, by rintro principal ⟨⟩; exact apart⟩
    · exact ⟨rfl, by rintro principal ⟨⟩; exact apart⟩
    · exact ⟨rfl, by rintro principal ⟨⟩⟩
  exact ⟨ruled, stored, differ, others,
    (owned_record_survives ruled stored differ).1 requests others⟩

end GuardedStore.Request
