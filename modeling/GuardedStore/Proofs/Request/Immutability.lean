import GuardedStore.Proofs.Expression.Keeping
import GuardedStore.Proofs.Request.Coherence
import GuardedStore.Proofs.Request.SystemFields

/-! # Immutable fields

A rule for a field of what is to be written may set it to the field of the stored record. The rule is true
where this is, and then the field is written as it was stored, whatever the caller has asked for. As what is
written is loaded for the next check as it was written, the field never changes while the record is there.
-/

namespace GuardedStore.Access

open Expression (Heap Slot Scope keeping)
open Expression.Heap (Extends Shows)

/-- The only rule for fields of what is to be updated in a collection keeps a field. No record has rules of its
own, and the rule for the update itself assigns nothing. -/
structure KeepsField (ruleSet : RuleSet) (name field : String) : Prop where
  only : ∃ group, ruleSet.collection? name = some group ∧ group.records = [] ∧
    group.fields.forAction .update = [(field, .expression (keeping field))]
  unassigning : (ruleSet.resolve .update (some name) none).rule.assigns = false

variable {ruleSet : RuleSet} {name field : String}

theorem KeepsField.resolve (keeps : KeepsField ruleSet name field) (nonempty : name.isEmpty = false)
    (id : String) :
    (ruleSet.resolve .update (some name) (some id)).fields = [(field, .expression (keeping field))] ∧
      (ruleSet.resolve .update (some name) (some id)).rule.assigns = false := by
  obtain ⟨group, found, noRecords, only⟩ := keeps.only
  have unassigning := keeps.unassigning
  have isGroup : ruleSet.group? (some name) = some group := by
    simp [RuleSet.group?, nonEmpty?, Option.filter_some, nonempty, found]
  simp only [resolve_of_no_records isGroup noRecords] at unassigning ⊢
  exact ⟨only, unassigning⟩

theorem openScope_slots {lookup : Lookup} {attempt : Attempt} {heap opened : Heap} {scope : Scope}
    (opens : openScope lookup attempt heap = .ok scope opened) :
    scope.data = attempt.data ∧ scope.newData = attempt.newData.getD (.plain .null) := by
  obtain ⟨action, collection, caller, data, newData, override⟩ := attempt
  cases caller with
  | none =>
      cases opens
      exact ⟨rfl, rfl⟩
  | some caller =>
      cases opens
      exact ⟨rfl, rfl⟩

theorem truthySlot_of_shows {v : Value} {slot : Slot} (shown : Shows v slot) (truthy : v.truthy = true) :
    Expression.truthySlot slot = true := by
  cases slot with
  | plain literal =>
      have same : literal.toValue = v := shown
      rw [Expression.truthySlot, same, truthy]
  | shared address => rfl

theorem deniedFields_keeping (named : Expression.isName field = true) {scope : Scope} {attempt : Attempt}
    {heap : Heap} {stored written : Entries Slot} (held : heap.fields? scope.data = some stored)
    (new : heap.fields? scope.newData = some written) {slot : Slot}
    (found : Entries.get? stored field = some slot) (truthy : Expression.truthySlot slot = true) :
    deniedFields scope attempt [(field, .expression (keeping field))] heap =
      .ok [] (heap.modifyFields scope.newData fun fields => Entries.set fields field slot) := by
  have evaluated : Expression.evaluateSource scope (keeping field) heap =
      .ok slot (heap.modifyFields scope.newData fun fields => Entries.set fields field slot) := by
    rw [Expression.evaluateSource, Expression.compile_keeping named]
    exact Expression.evaluate_keeping held new found
  have allows : allowsField (.expression (keeping field)) scope attempt heap =
      .ok true (heap.modifyFields scope.newData fun fields => Entries.set fields field slot) := by
    simp only [allowsField, holds, evaluated, truthy]
  rw [deniedFields, bind_of_ok allows]
  rfl

end GuardedStore.Access

namespace GuardedStore.Request

open Access (KeepsField Lookup)
open Expression (Coherent Heap)
open Expression.Heap (Extends)

variable {service : Service} {request : Request} {world : World} {name id field : String}
  {record written : Record} {v : Value}

theorem get?_readRecord_of_set {heap checked : Heap} {payload : Fields} {slot : Expression.Slot}
    (recalls : Expression.Recalls record field v)
    (found : Entries.get? (heap.loadRecordFields record).1 field = some slot)
    (grown : Extends ((heap.loadRecord record).2.loadRecord (.plain payload)).2 checked) :
    let new := ((heap.loadRecord record).2.loadRecord (.plain payload)).1
    Entries.get? ((checked.modifyFields new fun fields => Entries.set fields field slot).readRecord new).fields
      field = some v := by
  intro new
  have written : checked.fields? new = some ((heap.loadRecord record).2.loadFields payload).1 :=
    grown.fields? (Heap.fields?_alloc _ _)
  -- Only the new object is changed, and the stored record was loaded before it.
  have beside := (Access.ExtendsBeside.of_extends grown).trans (Access.extendsBeside_modifyFields checked new
    fun fields => Entries.set fields field slot)
  have behind : Extends ((heap.loadRecord record).2.loadFields payload).2
      (checked.modifyFields new fun fields => Entries.set fields field slot) :=
    beside.extends_of_alloc
  have kept : Extends (heap.loadRecordFields record).2
      (checked.modifyFields new fun fields => Entries.set fields field slot) :=
    (Extends.alloc _ _).trans ((Heap.loadFields_extends _ payload).trans behind)
  obtain ⟨same, found', read⟩ := recalls heap _ kept
  cases found.symm.trans found'
  rw [Heap.readRecord, Access.fields?_modifyFields written, Option.getD_some, Heap.record, Entries.get?_map,
    Entries.get?_set_self, Option.map_some, read]

theorem get?_of_gateWrite (keeps : KeepsField service.rules name field) (nonempty : name.isEmpty = false)
    (isIdentifier : Expression.isName field = true) (action : request.action = .update)
    (named : request.collection = some name) (coherent : Coherent (withId id record))
    (found : Entries.get? (withId id record).fields field = some v) (truthy : v.truthy = true)
    {lookup : Lookup} {payload : Fields} {last : Heap}
    (done : gateWrite service lookup request (withId id record) (some payload) .empty = .ok written last) :
    Entries.get? written.fields field = some v := by
  obtain ⟨caller, heap, denied, -, checks, rfl⟩ := gateWrite_steps done
  obtain ⟨only, unassigning⟩ := keeps.resolve nonempty id
  have prepared := (heap.loadRecord (withId id record)).2.loadRecord_extends (.plain payload)
  have held := (heap.loadRecord_holds (withId id record)).mono prepared
  obtain ⟨scope, opened, allowed, checked, opens, allows, -, fields⟩ :=
    Access.enforce_ok held (Store.value_withId id record) checks
  obtain ⟨isData, isNew⟩ := Access.openScope_slots opens
  have grown := (Access.grows_openScope _ _).of_ok opens
  simp only [writeAttempt, action, named, only, Option.getD_some] at allows fields isData isNew
  have grown := grown.trans ((Access.grows_allowsAction unassigning scope _).of_ok allows)
  have source : checked.fields? scope.data = some (heap.loadRecordFields (withId id record)).1 := by
    rw [isData]
    exact (prepared.trans grown).fields? (Heap.fields?_alloc _ _)
  have target : checked.fields? scope.newData =
      some ((heap.loadRecord (withId id record)).2.loadFields payload).1 := by
    rw [isNew]
    exact grown.fields? (Heap.fields?_alloc _ _)
  have shown := heap.loadRecordFields_shows (withId id record) field
  rw [found] at shown
  generalize loaded : Entries.get? (heap.loadRecordFields (withId id record)).1 field = slot at shown
  cases shown with
  | some shown =>
      have kept := fields.symm.trans (Access.deniedFields_keeping isIdentifier source target loaded
        (Access.truthySlot_of_shows shown truthy))
      cases kept
      rw [isNew]
      exact get?_readRecord_of_set (coherent.recalls found) loaded grown

theorem kept_of_passes (keeps : KeepsField service.rules name field)
    (isIdentifier : Expression.isName field = true) (ofWriter : field ∉ systemFields)
    (distinct : (Entries.names request.payload).Nodup) (action : request.action = .update)
    (named : request.requireCollection = .ok name) (coherent : Coherent record)
    (found : Entries.get? record.fields field = some v) (truthy : v.truthy = true)
    (passes : Passes service request world (withId id record) (some request.payload) written) :
    Coherent written ∧ Entries.get? written.fields field = some v := by
  obtain ⟨⟨last, done⟩, -⟩ := checked_ok_iff.mp passes
  refine ⟨coherent_of_gateWrite distinct done, ?_⟩
  have notId : idField ≠ field := by
    rintro rfl
    exact ofWriter (by decide)
  have shown : Entries.get? (withId id record).fields field = some v := by
    rw [Store.get?_withId id record notId, found]
  obtain ⟨inCollection, nonempty⟩ := requireCollection_ok named
  exact get?_of_gateWrite keeps nonempty isIdentifier action inCollection (coherent_withId coherent id) shown
    truthy done

/-- The record under an id is coherent and has a field with a value. -/
def StoresField (store : Store) (name id field : String) (v : Value) : Prop :=
  ∃ record, Entries.get? (store.entries name) id = some record ∧ Coherent record ∧
    Entries.get? record.fields field = some v

/-- The request deletes the record under an id of a collection. -/
structure Deletes (service : Service) (name id : String) (request : Request) (world : World) : Prop where
  action : request.action = .delete
  named : request.collection = some name
  target : request.id = some id
  done : ∃ answer world', execute service request world = .ok answer world'

/-- What is put under another id changes nothing, and what is put under the same id has to be coherent and to
have the field if the record there was and did. -/
theorem StoresField.put {store : Store} (stores : StoresField store name id field v)
    {otherName otherId : String} {next : Record}
    (keeps : ∀ record, otherName = name → otherId = id →
      Entries.get? (store.entries otherName) otherId = some record → Coherent record →
      Entries.get? record.fields field = some v →
      Coherent next ∧ Entries.get? next.fields field = some v) :
    StoresField (store.put otherName otherId next) name id field v := by
  obtain ⟨record, stored, coherent, found⟩ := stores
  by_cases same : otherName = name ∧ otherId = id
  · obtain ⟨rfl, rfl⟩ := same
    obtain ⟨coherent', found'⟩ := keeps record rfl rfl stored coherent found
    exact ⟨next, by rw [Store.get?_put, if_pos ⟨rfl, rfl⟩], coherent', found'⟩
  · exact ⟨record, by rw [Store.get?_put, if_neg same, stored], coherent, found⟩

/-- A request that does not delete the record leaves the field as it was. -/
theorem execute_storesField (keeps : KeepsField service.rules name field)
    (isIdentifier : Expression.isName field = true) (ofWriter : field ∉ systemFields)
    (truthy : v.truthy = true) (distinct : (Entries.names request.payload).Nodup)
    (differ : world.supply.FreshDiffer) (stays : ¬ Deletes service name id request world)
    (stores : StoresField world.records name id field v) :
    StoresField (leaves (execute service request) world).records name id field v := by
  cases done : execute service request world with
  | error fault world' =>
      rw [leaves_of_error done]
      cases atomic_execute service request _ _ _ done
      exact stores
  | ok answer world' =>
      rw [leaves_of_ok done]
      have effect := execute_effect done
      cases effect with
      | read => exact stores
      | @created otherName =>
          refine stores.put fun record _ _ stored _ _ => ?_
          have new := world.records.nextId_notMem differ otherName
          rw [Entries.get?_eq_none_iff.mpr new] at stored
          cases stored
      | merged action named target there passes =>
          refine stores.put fun record inName underId stored coherent found => ?_
          subst inName underId
          cases there.symm.trans stored
          obtain ⟨coherent', kept⟩ := kept_of_passes keeps isIdentifier ofWriter distinct action named
            coherent found truthy passes
          refine ⟨Store.coherent_mergedRecord coherent coherent' _, ?_⟩
          rw [Store.get?_mergedRecord _ coherent'.distinct _ ofWriter, kept, Option.some_or]
      | replaced action named target there passes =>
          refine stores.put fun record inName underId stored coherent found => ?_
          subst inName underId
          cases there.symm.trans stored
          obtain ⟨coherent', kept⟩ := kept_of_passes keeps isIdentifier ofWriter distinct action named
            coherent found truthy passes
          refine ⟨Store.coherent_replacedRecord coherent coherent' _, ?_⟩
          rw [Store.get?_replacedRecord _ _ _ ofWriter, kept]
      | deleted action named target =>
          obtain ⟨record, stored, coherent, found⟩ := stores
          refine ⟨record, ?_, coherent, found⟩
          rw [Store.get?_without, if_neg, stored]
          rintro ⟨rfl, rfl⟩
          exact stays ⟨action, collection_of_required named, id_of_required target, _, _, done⟩

/-- No request of a run deletes the record under the id. -/
def NeverDeleted (service : Service) (name id : String) (requests : List Request) (world : World) : Prop :=
  ∀ done request later, requests = done ++ request :: later →
    ¬ Deletes service name id request (executeAll service done world)

theorem NeverDeleted.rest {requests : List Request}
    (never : NeverDeleted service name id (request :: requests) world) :
    NeverDeleted service name id requests (leaves (execute service request) world) := by
  rintro done next later rfl
  exact never (request :: done) next later rfl

theorem NeverDeleted.left {done later : List Request}
    (never : NeverDeleted service name id (done ++ later) world) :
    NeverDeleted service name id done world := by
  rintro before request behind rfl
  exact never before request (behind ++ later) (by simp)

/-- As long as the record is not deleted, the field stays as it is. -/
theorem executeAll_storesField (keeps : KeepsField service.rules name field)
    (isIdentifier : Expression.isName field = true) (ofWriter : field ∉ systemFields)
    (truthy : v.truthy = true) {requests : List Request}
    (distinct : ∀ request ∈ requests, (Entries.names request.payload).Nodup)
    (differ : world.supply.FreshDiffer) (never : NeverDeleted service name id requests world)
    (stores : StoresField world.records name id field v) :
    StoresField (executeAll service requests world).records name id field v := by
  induction requests generalizing world with
  | nil => exact stores
  | cons request rest ih =>
      obtain ⟨first, later⟩ := List.forall_mem_cons.mp distinct
      have stays : ¬ Deletes service name id request world := never [] request rest rfl
      exact ih later (freshDiffer_execute service request differ) never.rest
        (execute_storesField keeps isIdentifier ofWriter truthy first differ stays stores)

/-- A field that the only rule for updated fields keeps is immutable once it is true. Whatever requests have
led to the record, whatever requests follow and whoever sends them, with or without override: as long as none
of them deletes the record, the field has the value that it had. -/
theorem kept_field_survives {service : Service} {name field : String}
    (keeps : KeepsField service.rules name field) (isIdentifier : Expression.isName field = true)
    (ofWriter : field ∉ systemFields) {seeds : Snapshot} {start : World}
    (seeded : start.records = .ofSnapshot seeds) (differ : start.supply.FreshDiffer)
    (distinct : ∀ collection ∈ seeds, ∀ seed ∈ collection.2, (Entries.names seed.2).Nodup)
    {before requests : List Request}
    (distinct' : ∀ request ∈ before ++ requests, (Entries.names request.payload).Nodup)
    {id : String} {record : Record} {v : Value}
    (stored : (executeAll service before start).records.stored name id = .ok record)
    (found : Entries.get? record.fields field = some v) (truthy : v.truthy = true)
    (never : NeverDeleted service name id requests (executeAll service before start)) :
    ∀ done later, requests = done ++ later →
      ∃ left, (executeAll service done (executeAll service before start)).records.stored name id = .ok left ∧
        Entries.get? left.fields field = some v := by
  rintro done later rfl
  have coherent : StoredCoherent start.records := seeded ▸ storedCoherent_ofSnapshot distinct
  have coherent := storedCoherent_executeAll service
    (fun request member => distinct' request (List.mem_append_left _ member)) coherent
  rw [Store.stored_ok_iff] at stored
  have stores : StoresField _ name id field v := ⟨record, stored, coherent.of_stored stored, found⟩
  have given : ∀ request ∈ done, (Entries.names request.payload).Nodup := by
    intro request member
    exact distinct' request (List.mem_append_right _ (List.mem_append_left _ member))
  obtain ⟨left, there, -, kept⟩ := executeAll_storesField keeps isIdentifier ofWriter truthy given
    (freshDiffer_executeAll service before differ) never.left stores
  exact ⟨left, Store.stored_ok_iff.mpr there, kept⟩

/-- Known callers may add and update notes, but never change the tags of one. -/
def taggedRules : Access.RuleSet where
  default := { actions := { create := some (.roles [.user]), update := some (.roles [.user]) } }
  collections :=
    [(.str "notes", { fields := [("tags", { update := some (.expression "newData.tags = data.tags") })] })]

/-- An update of the first note. -/
def updateOfNote (principal : Option Access.Principal) (payload : Fields) (merge override : Bool) : Request where
  action := .update
  collection := "notes"
  id := "n1"
  principal
  payload
  merge
  override

/-- Ann adds a note. Bob sets its tags and its text, and a stranger with override replaces it by nothing: the
tags are those that Ann gave. -/
theorem tags_of_ann_survive :
    let service : Service := ⟨taggedRules, {}⟩
    let start : World := { records := .ofSnapshot [], accounts := .empty, supply := .numbered ["n1"] }
    let tags : Value := .list [.str "mine"]
    let creation : Request :=
      { action := .create, collection := "notes", principal := some { id := "ann" },
        payload := [("tags", tags)] }
    let updates : List Request :=
      [updateOfNote (some { id := "bob" }) [("tags", .list []), ("text", .str "his")] true false,
        updateOfNote none [] false true]
    KeepsField service.rules "notes" "tags" ∧ start.supply.FreshDiffer ∧
      (∀ request ∈ [creation] ++ updates, (Entries.names request.payload).Nodup) ∧
      NeverDeleted service "notes" "n1" updates (executeAll service [creation] start) ∧
      (∃ record, (executeAll service [creation] start).records.stored "notes" "n1" = .ok record ∧
        Entries.get? record.fields "tags" = some tags) ∧
      ∃ left, (executeAll service updates (executeAll service [creation] start)).records.stored "notes" "n1" =
          .ok left ∧ Entries.get? left.fields "tags" = some tags := by
  intro service start tags creation updates
  have keeps : KeepsField service.rules "notes" "tags" := ⟨⟨_, rfl, rfl, rfl⟩, rfl⟩
  have differ : start.supply.FreshDiffer := Supply.numbered_freshDiffer _
  have distinct : ∀ request ∈ [creation] ++ updates, (Entries.names request.payload).Nodup := by decide
  have never : NeverDeleted service "notes" "n1" updates (executeAll service [creation] start) := by
    intro done request later split deletes
    have member : request ∈ updates := split ▸ List.mem_append_right done List.mem_cons_self
    have updating : ∀ request ∈ updates, request.action = .update := by decide
    cases (updating request member).symm.trans deletes.action
  obtain ⟨record, stored, found⟩ : ∃ record,
      (executeAll service [creation] start).records.stored "notes" "n1" = .ok record ∧
        Entries.get? record.fields "tags" = some tags := ⟨_, rfl, rfl⟩
  exact ⟨keeps, differ, distinct, never, ⟨record, stored, found⟩,
    kept_field_survives keeps (by decide) (by decide) rfl differ nofun distinct stored found rfl never
      updates [] (List.append_nil _).symm⟩

end GuardedStore.Request
