import GuardedStore.Proofs.Access.Stripping

/-! # Checks without expressions

Where no expression applies, the check of an attempt that writes nothing is decided by who attempts it and
by the id and the owner of the record. Everything else in the record, and in the heap, is of no account.
-/

namespace GuardedStore.Access

open Expression (Heap Slot Scope grows_of_still)
open Expression.Heap (Extends Holds)

def Rule.isExpression : Rule → Bool
  | .expression _ => true
  | _ => false

/-- None of the rules that apply is an expression. -/
structure ResolvedRules.Expressionless (resolved : ResolvedRules) : Prop where
  rule : resolved.rule.isExpression = false
  fields : ∀ entry ∈ resolved.fields, entry.2.isExpression = false

theorem Rule.assigns_of_isExpression {rule : Rule} (h : rule.isExpression = false) :
    rule.assigns = false := by
  cases rule with
  | expression => cases h
  | unset | flag | roles => rfl

theorem ResolvedRules.Expressionless.unassigning {resolved : ResolvedRules}
    (h : resolved.Expressionless) : resolved.Unassigning :=
  ⟨Rule.assigns_of_isExpression h.rule, fun entry member =>
    Rule.assigns_of_isExpression (h.fields entry member)⟩

/-- Two attempts to do the same without writing anything, by the same caller, on records of the same
owner. -/
structure SameAttempt (heap heap' : Heap) (one other : Attempt) : Prop where
  action : one.action = other.action
  collection : one.collection = other.collection
  override : one.override = other.override
  known : one.caller.map (·.id) = other.caller.map (·.id)
  nothing : one.newData = none ∧ other.newData = none
  held : ∃ record record', heap.Holds one.data record ∧ heap'.Holds other.data record' ∧
    record.value ownerField = record'.value ownerField

variable {heap heap' next next' : Heap} {one other : Attempt}

theorem SameAttempt.mono (same : SameAttempt heap heap' one other) (grown : Extends heap next)
    (grown' : Extends heap' next') : SameAttempt next next' one other := by
  obtain ⟨record, record', held, held', owner⟩ := same.held
  exact { same with held := ⟨record, record', held.mono grown, held'.mono grown', owner⟩ }

/-- Either nobody is known in both attempts, or callers with one id. -/
theorem SameAttempt.callers (same : SameAttempt heap heap' one other) :
    (one.caller = none ∧ other.caller = none) ∨
      ∃ caller caller', one.caller = some caller ∧ other.caller = some caller' ∧
        caller.id = caller'.id := by
  have known := same.known
  cases isOne : one.caller <;> cases isOther : other.caller <;> simp_all

theorem SameAttempt.outcome_callerOwns (same : SameAttempt heap heap' one other)
    {caller caller' : Caller} (id : caller.id = caller'.id) :
    outcome (callerOwns caller one.data) heap = outcome (callerOwns caller' other.data) heap' := by
  obtain ⟨record, record', held, held', owner⟩ := same.held
  simp only [outcome, callerOwns_run held, callerOwns_run held', owner, id]
  cases Principal.ownsOwner caller'.id (record'.value ownerField) <;> rfl

theorem SameAttempt.outcome_rolesAllowAction (same : SameAttempt heap heap' one other)
    (roles : List Role) :
    outcome (rolesAllowAction roles one) heap = outcome (rolesAllowAction roles other) heap' := by
  unfold rolesAllowAction
  split
  · rfl
  · rcases same.callers with ⟨isOne, isOther⟩ | ⟨caller, caller', isOne, isOther, id⟩
    · simp only [isOne, isOther, same.override]
      split <;> rfl
    · simp only [isOne, isOther]
      split
      · rfl
      · split
        · exact same.outcome_callerOwns id
        · rfl

theorem SameAttempt.outcome_rolesAllowField (same : SameAttempt heap heap' one other)
    (roles : List Role) :
    outcome (rolesAllowField roles one) heap = outcome (rolesAllowField roles other) heap' := by
  unfold rolesAllowField
  split
  · rfl
  · rcases same.callers with ⟨isOne, isOther⟩ | ⟨caller, caller', isOne, isOther, id⟩
    · simp only [isOne, isOther]
      rfl
    · simp only [isOne, isOther]
      split
      · rfl
      · split
        · exact same.outcome_callerOwns id
        · rfl

theorem SameAttempt.outcome_allowsAction (same : SameAttempt heap heap' one other) {rule : Rule}
    (h : rule.isExpression = false) (scope scope' : Scope) :
    outcome (allowsAction rule scope one) heap = outcome (allowsAction rule scope' other) heap' := by
  cases rule with
  | unset | flag => rfl
  | expression => cases h
  | roles roles => exact same.outcome_rolesAllowAction roles

theorem SameAttempt.outcome_allowsField (same : SameAttempt heap heap' one other) {rule : Rule}
    (h : rule.isExpression = false) (scope scope' : Scope) :
    outcome (allowsField rule scope one) heap = outcome (allowsField rule scope' other) heap' := by
  cases rule with
  | unset | flag => rfl
  | expression => cases h
  | roles roles => exact same.outcome_rolesAllowField roles

theorem still_allowsAction {rule : Rule} (h : rule.isExpression = false) (scope : Scope)
    (attempt : Attempt) : Still (allowsAction rule scope attempt) := by
  cases rule with
  | unset | flag => exact still_pure _
  | expression => cases h
  | roles roles => exact still_rolesAllowAction roles attempt

theorem still_allowsField {rule : Rule} (h : rule.isExpression = false) (scope : Scope)
    (attempt : Attempt) : Still (allowsField rule scope attempt) := by
  cases rule with
  | unset | flag => exact still_pure _
  | expression => cases h
  | roles roles => exact still_rolesAllowField roles attempt

theorem outcome_deniedFields_cons {attempt : Attempt} (nothing : attempt.newData = none) {name : String}
    {rule : Rule} (h : rule.isExpression = false) (rest : List (String × Rule)) (scope : Scope)
    (heap : Heap) :
    outcome (deniedFields scope attempt ((name, rule) :: rest)) heap =
      outcome (allowsField rule scope attempt) heap >>= fun allowed =>
        if allowed then outcome (deniedFields scope attempt rest) heap
        else (outcome (deniedFields scope attempt rest) heap).map (name :: ·) := by
  rw [deniedFields, (still_allowsField h scope attempt).outcome_bind]
  congr 1
  funext allowed
  cases allowed with
  | true => rfl
  | false =>
      simp only [Bool.false_eq_true, if_false, dropField, nothing]
      exact outcome_bind_pure (deniedFields scope attempt rest) (name :: ·) heap

theorem SameAttempt.outcome_deniedFields (same : SameAttempt heap heap' one other)
    {rules : List (String × Rule)} (h : ∀ entry ∈ rules, entry.2.isExpression = false)
    (scope scope' : Scope) :
    outcome (deniedFields scope one rules) heap = outcome (deniedFields scope' other rules) heap' := by
  induction rules with
  | nil => rfl
  | cons entry rest ih =>
      have here := h _ List.mem_cons_self
      have later := ih fun entry later => h entry (List.mem_cons_of_mem _ later)
      rw [outcome_deniedFields_cons same.nothing.1 here, outcome_deniedFields_cons same.nothing.2 here,
        later, same.outcome_allowsField here scope scope']

theorem mem_of_outcome_deniedFields {attempt : Attempt} (nothing : attempt.newData = none)
    {rules : List (String × Rule)} (h : ∀ entry ∈ rules, entry.2.isExpression = false) {name : String}
    (member : (name, .flag false) ∈ rules) {scope : Scope} {denied : List String}
    (done : outcome (deniedFields scope attempt rules) heap = .ok denied) : name ∈ denied := by
  induction rules generalizing denied with
  | nil => cases member
  | cons entry rest ih =>
      rw [outcome_deniedFields_cons nothing (h _ List.mem_cons_self)] at done
      obtain ⟨first, rule⟩ := entry
      have behind : (name, .flag false) ∈ rest → ∀ {others},
          outcome (deniedFields scope attempt rest) heap = .ok others → name ∈ others :=
        ih fun entry later => h entry (List.mem_cons_of_mem _ later)
      cases others : outcome (deniedFields scope attempt rest) heap with
      | error fault =>
          cases checked : outcome (allowsField rule scope attempt) heap with
          | error => simp [checked, bind, Except.bind] at done
          | ok allowed => cases allowed <;> simp [checked, others, bind, Except.bind, Except.map] at done
      | ok names =>
          rw [others] at done
          rcases List.mem_cons.mp member with here | later
          · cases here
            cases done
            exact List.mem_cons_self
          · have known := behind later others
            cases checked : outcome (allowsField rule scope attempt) heap with
            | error => simp [checked, bind, Except.bind] at done
            | ok allowed =>
                rw [checked] at done
                cases allowed with
                | true =>
                    cases done
                    exact known
                | false =>
                    cases done
                    exact List.mem_cons_of_mem _ known

theorem outcome_enforce_eq {attempt : Attempt} {record : Record} {id : String}
    (held : heap.Holds attempt.data record) (named : record.value idField = .str id) {rules : RuleSet}
    (plain : (rules.resolve attempt.action attempt.collection (some id)).Expressionless)
    (lookup : Lookup) :
    ∃ scope opened, Extends heap opened ∧
      outcome (enforce rules lookup attempt) heap =
        outcome (allowsAction (rules.resolve attempt.action attempt.collection (some id)).rule scope
          attempt) opened >>= fun allowed =>
        if !allowed && !attempt.override then .error (.refused .forbidden)
        else outcome (deniedFields scope attempt
          (rules.resolve attempt.action attempt.collection (some id)).fields) opened := by
  obtain ⟨v, read, same⟩ := readField_run held idField
  have isId : v = .str id := by simpa [Heap.ReadAs, named, Value.isContainer] using same
  obtain ⟨scope, opened, opens, grown⟩ := openScope_run lookup attempt heap
  refine ⟨scope, opened, grown, ?_⟩
  rw [outcome, enforce, bind_of_ok read, isId]
  simp only [recordKey]
  rw [bind_of_ok opens, ← outcome, (still_allowsAction plain.rule scope attempt).outcome_bind]
  congr 1
  funext allowed
  split <;> rfl

/-- Checks of two attempts that are the same end in the same way. -/
theorem SameAttempt.outcome_enforce (same : SameAttempt heap heap' one other) {record record' : Record}
    {id : String} (held : heap.Holds one.data record) (held' : heap'.Holds other.data record')
    (named : record.value idField = .str id) (named' : record'.value idField = .str id)
    {rules : RuleSet}
    (plain : (rules.resolve one.action one.collection (some id)).Expressionless)
    (lookup lookup' : Lookup) :
    outcome (enforce rules lookup one) heap = outcome (enforce rules lookup' other) heap' := by
  have plain' := plain
  rw [same.action, same.collection] at plain'
  obtain ⟨scope, opened, grown, ended⟩ := outcome_enforce_eq held named plain lookup
  obtain ⟨scope', opened', grown', ended'⟩ := outcome_enforce_eq held' named' plain' lookup'
  have same := same.mono grown grown'
  rw [ended, ended', same.outcome_allowsAction plain.rule scope scope',
    same.outcome_deniedFields plain.fields scope scope', same.action, same.collection, same.override]

theorem mem_of_outcome_enforce {attempt : Attempt} (nothing : attempt.newData = none) {record : Record}
    {id : String} (held : heap.Holds attempt.data record) (named : record.value idField = .str id)
    {rules : RuleSet}
    (plain : (rules.resolve attempt.action attempt.collection (some id)).Expressionless)
    {name : String}
    (member : (name, .flag false) ∈ (rules.resolve attempt.action attempt.collection (some id)).fields)
    {lookup : Lookup} {denied : List String}
    (done : outcome (enforce rules lookup attempt) heap = .ok denied) : name ∈ denied := by
  obtain ⟨scope, opened, -, ended⟩ := outcome_enforce_eq held named plain lookup
  rw [ended] at done
  cases allows : outcome (allowsAction (rules.resolve attempt.action attempt.collection (some id)).rule
      scope attempt) opened with
  | error fault => simp [allows, bind, Except.bind] at done
  | ok allowed =>
      simp only [allows, bind, Except.bind] at done
      split at done
      · cases done
      · exact mem_of_outcome_deniedFields nothing plain.fields member done

end GuardedStore.Access
