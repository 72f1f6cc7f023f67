import GuardedStore.Proofs.Access.Stripping
import GuardedStore.Proofs.Request.Ownership

/-! # Denied fields of updates

An update loses the fields that the rules deny before the store sees it. A store that sets fields then
keeps what it has of a denied field. A store that replaces a record takes what is left of the update as
all of it, so that a denied field is gone, whatever was stored and whatever was to be written.
-/

namespace GuardedStore.Request

open Access (Attempt Denies Lookup Rule RuleSet)
open Expression (Heap Slot)

variable {service : Service} {request : Request} {world world' : World} {answer : Answer}
  {name id field : String} {existing written : Record} {rule : Rule}

theorem denies_withId {principal : Option Access.Principal}
    (denies : Denies principal existing rule) (id : String) :
    Denies principal (withId id existing) rule := by
  cases denies with
  | flag => exact .flag
  | roles denied =>
      refine .roles ?_
      simpa only [Access.rolesAdmit, Access.Principal.owns, owner_withId] using denied

/-- What is loaded for the check of a write: a record and what is to be written of it, apart from each
other, for a known or unknown caller. -/
structure Loaded (request : Request) (existing : Record) (payload : Fields) (attempt : Attempt)
    (newData : Slot) (heap : Heap) : Prop where
  action : attempt.action = request.action
  collection : attempt.collection = request.collection
  known : attempt.caller.map (·.id) = request.principal.map (·.id)
  held : heap.Holds attempt.data existing
  new : attempt.newData = some newData
  apart : attempt.data ≠ newData
  last : ∃ before : Heap, before.loadRecord (.plain payload) = (newData, heap)

theorem Loaded.fields {payload : Fields} {attempt : Attempt} {newData : Slot} {heap : Heap}
    (loaded : Loaded request existing payload attempt newData heap) :
    ∃ fields, heap.fields? newData = some fields := by
  obtain ⟨before, last⟩ := loaded.last
  obtain ⟨fields, found, -⟩ := before.loadRecord_holds (.plain payload)
  rw [last] at found
  exact ⟨fields, found⟩

/-- A write that passes its check is what the check has left of it. -/
theorem gateWrite_ok {lookup : Lookup} {payload : Fields} {last : Heap}
    (done : gateWrite service lookup request existing (some payload) .empty = .ok written last) :
    ∃ attempt newData heap denied, Loaded request existing payload attempt newData heap ∧
      Access.enforce service.rules lookup attempt heap = .ok denied last ∧
      written = last.readRecord newData := by
  obtain ⟨caller, heap₁, knows, known⟩ := loadCaller?_run request.principal .empty
  obtain ⟨data, heap₂, loads, -, held⟩ := Access.loadRecord_run existing heap₁
  obtain ⟨address, isAddress, behind⟩ := heap₂.loadRecord_behind (.plain payload)
  have grown := heap₂.loadRecord_extends (.plain payload)
  have prepares : loadPayload? (some payload) heap₂ =
      .ok (some (heap₂.loadRecord (.plain payload)).1) (heap₂.loadRecord (.plain payload)).2 := rfl
  generalize loaded : heap₂.loadRecord (.plain payload) = pair at *
  obtain ⟨newData, heap₃⟩ := pair
  cases isAddress
  have apart : data ≠ .shared address := by
    obtain ⟨place, isPlace, inside⟩ := held.inside
    rintro rfl
    cases isPlace
    omega
  rw [gateWrite, bind_of_ok knows, bind_of_ok loads, bind_of_ok prepares] at done
  obtain ⟨denied, heap₄, checks, done⟩ := bind_ok_iff.mp done
  cases done
  exact ⟨_, _, _, _, ⟨rfl, rfl, known, held.mono grown, rfl, apart, heap₂, loaded⟩, checks, rfl⟩

theorem get?_of_passes (action : request.action = .update) (named : request.collection = some name)
    (unassigning : (service.rules.resolve .update (some name) (some id)).Unassigning)
    (ruled : (field, rule) ∈ (service.rules.resolve .update (some name) (some id)).fields)
    (denies : Denies request.principal existing rule)
    (passes : Passes service request world (withId id existing) (some request.payload) written) :
    Entries.get? written.fields field = none := by
  obtain ⟨⟨last, gated⟩, -⟩ := checked_ok_iff.mp passes
  obtain ⟨attempt, newData, heap, denied, loaded, checks, rfl⟩ := gateWrite_ok gated
  have isUpdate : attempt.action = .update := loaded.action.trans action
  have isWrite : attempt.action.isWrite = true := by rw [isUpdate]; rfl
  obtain ⟨scope, opened, allowed, ruledOn, opens, allows, -, fields⟩ :=
    Access.enforce_ok loaded.held (Store.value_withId id existing) checks
  rw [isUpdate, loaded.collection.trans named] at allows fields
  have grown := ((Access.grows_openScope _ _).of_ok opens).trans
    ((Access.grows_allowsAction unassigning.rule scope _).of_ok allows)
  have stripped := Access.deniedFields_stripped isWrite loaded.new unassigning.fields fields
  have member : field ∈ denied :=
    Access.mem_of_deniedFields loaded.known isWrite loaded.new loaded.apart (loaded.held.mono grown)
      unassigning.fields ruled (denies_withId denies id) fields
  obtain ⟨newFields, found⟩ := loaded.fields
  have left := stripped.fields? newFields (grown.fields? found)
  have gone := Entries.get?_filter (fun key => decide (key ∉ denied)) newFields field
  simp only [member, not_true_eq_false, decide_false, Bool.false_eq_true, if_false] at gone
  simp only [Heap.readRecord, left, Option.getD_some, Heap.record, Entries.get?_map, gone]
  rfl

/-- An update that succeeds leaves a denied field as it was stored if it sets fields, and leaves none if
it replaces the record. -/
theorem denied_field_after_update (action : request.action = .update)
    (named : request.collection = some name) (target : request.id = some id)
    (stored : world.records.stored name id = .ok existing)
    (unassigning : (service.rules.resolve .update (some name) (some id)).Unassigning)
    (ruled : (field, rule) ∈ (service.rules.resolve .update (some name) (some id)).fields)
    (denies : Denies request.principal existing rule) (ofWriter : field ∉ systemFields)
    (done : execute service request world = .ok answer world') :
    ∃ after, world'.records.stored name id = .ok after ∧
      Entries.get? after.fields field =
        if request.merge then Entries.get? existing.fields field else none := by
  simp only [Store.stored_ok_iff] at stored ⊢
  cases execute_effect done with
  | read other | created other | deleted other => cases action.symm.trans other
  | @merged name' id' existing' payload _ named' target' stored' passes merge =>
      cases named.symm.trans (collection_of_required named')
      cases target.symm.trans (id_of_required target')
      cases stored.symm.trans stored'
      have gone := get?_of_passes action named unassigning ruled denies passes
      refine ⟨_, by rw [Store.get?_put, if_pos ⟨rfl, rfl⟩], ?_⟩
      rw [Store.get?_mergedRecord_of_missing existing _ ofWriter gone, if_pos merge]
  | @replaced name' id' existing' payload _ named' target' stored' passes merge =>
      cases named.symm.trans (collection_of_required named')
      cases target.symm.trans (id_of_required target')
      cases stored.symm.trans stored'
      have gone := get?_of_passes action named unassigning ruled denies passes
      refine ⟨_, by rw [Store.get?_put, if_pos ⟨rfl, rfl⟩], ?_⟩
      rw [Store.get?_replacedRecord existing _ _ ofWriter, gone, merge, if_neg Bool.false_ne_true]

/-- Anybody known may update notes, but only their owners the secrets in them. -/
def secretRules : RuleSet where
  collections :=
    [(.str "notes",
      { actions := { update := some (.roles [.user]) }
        fields := [("secret", { update := some (.roles [.owner]) })] })]

/-- A note of Ann's. -/
def secretNote : Record :=
  .plain [("text", .str "mine"), ("secret", .str "s"), (ownerField, .str "ann")]

def worldOfNote : World where
  records := .ofSnapshot [("notes", [("n1", secretNote.fields)])]
  accounts := .empty
  supply := .numbered []

/-- Bob's update of Ann's note. -/
def updateByBob (merge : Bool) : Request where
  action := .update
  collection := "notes"
  id := "n1"
  principal := some { id := "bob" }
  payload := [("text", .str "his"), ("secret", .str "t")]
  merge

/-- Bob merges fields into Ann's note, and its secret stays. -/
theorem denied_field_after_merge_of_bob :
    (secretRules.resolve .update (some "notes") (some "n1")).Unassigning ∧
      worldOfNote.records.stored "notes" "n1" = .ok secretNote ∧
      ("secret", .roles [.owner]) ∈ (secretRules.resolve .update (some "notes") (some "n1")).fields ∧
      Denies (updateByBob true).principal secretNote (.roles [.owner]) ∧
      ∃ answer world' after,
        execute ⟨secretRules, {}⟩ (updateByBob true) worldOfNote = .ok answer world' ∧
          world'.records.stored "notes" "n1" = .ok after ∧
          Entries.get? after.fields "secret" = some (.str "s") := by
  have unassigning : (secretRules.resolve .update (some "notes") (some "n1")).Unassigning :=
    ⟨by decide, by decide⟩
  have stored : worldOfNote.records.stored "notes" "n1" = .ok secretNote := rfl
  have ruled : ("secret", .roles [.owner]) ∈
      (secretRules.resolve .update (some "notes") (some "n1")).fields := by decide
  have denies : Denies (updateByBob true).principal secretNote (.roles [.owner]) := .roles rfl
  obtain ⟨answer, world', done⟩ : ∃ answer world',
      execute ⟨secretRules, {}⟩ (updateByBob true) worldOfNote = .ok answer world' := ⟨_, _, rfl⟩
  obtain ⟨after, left, kept⟩ :=
    denied_field_after_update rfl rfl rfl stored unassigning ruled denies (by decide) done
  exact ⟨unassigning, stored, ruled, denies, answer, world', after, done, left, kept⟩

/-- Bob replaces Ann's note, and its secret is gone, which he may not update. -/
theorem denied_field_lost_to_bob :
    (secretRules.resolve .update (some "notes") (some "n1")).Unassigning ∧
      worldOfNote.records.stored "notes" "n1" = .ok secretNote ∧
      ("secret", .roles [.owner]) ∈ (secretRules.resolve .update (some "notes") (some "n1")).fields ∧
      Denies (updateByBob false).principal secretNote (.roles [.owner]) ∧
      Entries.get? secretNote.fields "secret" = some (.str "s") ∧
      ∃ answer world' after,
        execute ⟨secretRules, {}⟩ (updateByBob false) worldOfNote = .ok answer world' ∧
          world'.records.stored "notes" "n1" = .ok after ∧
          Entries.get? after.fields "secret" = none :=
  ⟨⟨by decide, by decide⟩, rfl, by decide, .roles rfl, rfl, _, _, _, rfl, rfl, rfl⟩

end GuardedStore.Request
