import GuardedStore.Access.Enforcement
import GuardedStore.Proofs.Expression.Loading
import GuardedStore.Proofs.Run

/-! # Who is denied

What a rule for owners says about a caller depends on the record as it was stored: loading the record
does not change whether it belongs to the caller. Where the rule for an action is for owners alone, a
caller who is none cannot get past the check, whatever the rules for fields are.
-/

namespace GuardedStore.Access

open Expression (Heap Slot)
open Expression.Heap (Extends Holds ReadAs)

theorem resolve_of_no_records {ruleSet : RuleSet} {collection : Option String} {group : CollectionRules}
    (isGroup : ruleSet.group? collection = some group) (noRecords : group.records = []) (action : Action)
    (id : Option String) :
    ruleSet.resolve action collection id =
      ⟨Rule.orBroader (group.actions.rule? action)
        (Rule.orBroader (ruleSet.default.actions.rule? action) (.flag true)), group.fields.forAction action⟩ := by
  have noRecord : (nonEmpty? id).bind (Entries.get? group.records) = none := by
    rw [noRecords]
    cases nonEmpty? id <;> rfl
  unfold RuleSet.resolve
  simp only [isGroup, noRecord]

theorem looseEquals_container {v : Value} (h : v.isContainer) (text : String) :
    Value.looseEquals v (.str text) = .ok false := by
  cases v with
  | list | object => simp [Value.looseEquals, Value.kind, Value.isNumber, Value.isContainer]
  | null | bool | int | float | str => cases h

theorem ownsOwner_readAs {v read : Value} (h : ReadAs v read) (id : String) :
    Principal.ownsOwner id read = Principal.ownsOwner id v := by
  unfold ReadAs at h
  split at h
  · rename_i container
    rw [Principal.ownsOwner, Principal.ownsOwner, looseEquals_container container]
    rcases h with rfl | other
    · rfl
    · exact looseEquals_container other id
  · rw [h]

theorem readField_eq (heap : Heap) (record : Slot) (name : String) :
    readField record name heap = .ok ((heap.readRecord record).value name) heap := by
  rw [readField, get_bind, Heap.readRecord, Record.value, Value.fieldOrNull]
  cases heap.fields? record with
  | none => rfl
  | some fields =>
      rw [Option.getD_some, Heap.record, Entries.get?_map]
      rfl

theorem readField_run {heap : Heap} {slot : Slot} {record : Record} (h : Holds heap slot record)
    (name : String) :
    ∃ v, readField slot name heap = .ok v heap ∧ ReadAs (record.value name) v := by
  obtain ⟨fields, found, read⟩ := h.readAs name
  refine ⟨_, ?_, read⟩
  simp only [readField, bind_of_ok (show (get : Guarded Heap) heap = .ok heap heap from rfl), found]
  rfl

/-- Whether a loaded record belongs to a caller is decided by its stored owner. -/
theorem callerOwns_run {heap : Heap} {slot : Slot} {record : Record} (h : Holds heap slot record)
    (caller : Caller) :
    callerOwns caller slot heap =
      match Principal.ownsOwner caller.id (record.value ownerField) with
      | .ok owns => .ok owns heap
      | .error _ => .error .outOfRange heap := by
  obtain ⟨v, read, same⟩ := readField_run h ownerField
  rw [callerOwns, bind_of_ok read, ownsOwner_readAs same]
  cases Principal.ownsOwner caller.id (record.value ownerField) <;> rfl

theorem loadRecord_run (record : Record) (heap : Heap) :
    ∃ slot heap', loadRecord record heap = .ok slot heap' ∧ Extends heap heap' ∧
      Holds heap' slot record :=
  ⟨_, _, rfl, Heap.loadRecord_extends heap record, Heap.loadRecord_holds heap record⟩

theorem loadCaller_run (principal : Principal) (heap : Heap) :
    ∃ attributes heap', loadCaller principal heap = .ok ⟨principal.id, attributes⟩ heap' ∧
      Extends heap heap' :=
  ⟨_, _, rfl, Heap.loadFields_extends heap principal.attributes⟩

theorem openScope_run (lookup : Lookup) (attempt : Attempt) (heap : Heap) :
    ∃ scope heap', openScope lookup attempt heap = .ok scope heap' ∧ Extends heap heap' := by
  obtain ⟨action, collection, caller, data, newData, override⟩ := attempt
  cases caller with
  | none => exact ⟨_, heap, rfl, .refl heap⟩
  | some caller => exact ⟨_, _, rfl, .alloc heap _⟩

theorem ownersOnly_denies {attempt : Attempt} {heap : Heap} {record : Record}
    (held : Holds heap attempt.data record) (noOverride : attempt.override = false)
    (stranger : ∀ caller, attempt.caller = some caller →
      Value.looseEquals (record.value ownerField) (.str caller.id) ≠ .ok true) :
    (∃ fault, rolesAllowAction [.owner] attempt heap = .error fault heap) ∨
      rolesAllowAction [.owner] attempt heap = .ok false heap := by
  cases known : attempt.caller with
  | none =>
      refine .inl ⟨.refused .unauthorized, ?_⟩
      simp [rolesAllowAction, known, noOverride, throw, throwThe, MonadExceptOf.throw, EStateM.throw]
  | some caller =>
      have decided : rolesAllowAction [.owner] attempt heap = callerOwns caller attempt.data heap := by
        simp [rolesAllowAction, known]
      have apart := stranger caller known
      rw [decided, callerOwns_run held, Principal.ownsOwner]
      cases owns : Value.looseEquals (record.value ownerField) (.str caller.id) with
      | error _ => exact .inl ⟨.outOfRange, rfl⟩
      | ok owns' =>
          cases owns' with
          | true => exact absurd owns apart
          | false => exact .inr rfl

theorem enforce_ownersOnly {ruleSet : RuleSet} {attempt : Attempt} {heap : Heap}
    {record : Record} {id : String} (held : Holds heap attempt.data record)
    (named : record.value idField = .str id)
    (ruled : (ruleSet.resolve attempt.action attempt.collection (some id)).rule = .roles [.owner])
    (lookup : Lookup) (noOverride : attempt.override = false)
    (stranger : ∀ caller, attempt.caller = some caller →
      Value.looseEquals (record.value ownerField) (.str caller.id) ≠ .ok true) :
    ∃ fault heap', enforce ruleSet lookup attempt heap = .error fault heap' := by
  obtain ⟨v, read, same⟩ := readField_run held idField
  have isId : v = .str id := by simpa [ReadAs, named, Value.isContainer] using same
  obtain ⟨scope, heap', opened, grown⟩ := openScope_run lookup attempt heap
  rw [enforce, bind_of_ok read, isId]
  simp only [recordKey, ruled, allowsAction]
  rw [bind_of_ok opened]
  rcases ownersOnly_denies (held.mono grown) noOverride stranger with ⟨fault, ended⟩ | denied
  · exact ⟨fault, heap', bind_of_error ended⟩
  · refine ⟨.refused .forbidden, heap', ?_⟩
    rw [bind_of_ok denied]
    simp [noOverride, throw, throwThe, MonadExceptOf.throw, EStateM.throw, bind, EStateM.bind]

end GuardedStore.Access
