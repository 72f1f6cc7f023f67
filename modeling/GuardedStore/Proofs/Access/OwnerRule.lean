import GuardedStore.Proofs.Access.Stripping
import GuardedStore.Proofs.Expression.Readback
import GuardedStore.Proofs.Value.Likeness
import GuardedStore.Proofs.Value.Symmetry

/-! # Owners by role and by expression

A rule for owners can be written as a list with their role or as an expression that calls `isOwner`. The list
compares the owner of the record with the id of the caller; the expression is read, sees the caller as an
object among others and compares the other way round. For a known caller both come to the same, whatever
stands in the record and among the caller's attributes, as long as no rule assigns to what the expression
sees.
-/

namespace GuardedStore.Access

open Expression (Heap Slot Scope)
open Expression.Heap (Extends)

/-- The expression for owners. -/
def ownerSource : String := "isOwner(user, data)"

theorem compile_ownerSource :
    Expression.compile ownerSource = .ok (.call "isOwner" [.name "user", .name "data"]) := by
  cbv

theorem evaluate_ownerSource (scope : Scope) (heap : Heap) :
    Expression.evaluateSource scope ownerSource heap =
      Expression.callIsOwner scope.user scope.data heap := by
  rw [Expression.evaluateSource, compile_ownerSource]
  rfl

/-- The caller is seen as an object under the caller's id, apart from what is to be written. -/
structure SeesCaller (scope : Scope) (attempt : Attempt) (caller : Caller) (heap : Heap) : Prop where
  data : scope.data = attempt.data
  user : ∃ fields, heap.fields? scope.user = some fields ∧
    Entries.get? fields idField = some (.plain (.str caller.id))
  apart : scope.user ≠ attempt.written

variable {scope : Scope} {attempt : Attempt} {caller : Caller} {heap heap' : Heap}

theorem SeesCaller.mono (h : SeesCaller scope attempt caller heap) (grown : Extends heap heap') :
    SeesCaller scope attempt caller heap' := by
  obtain ⟨fields, found, named⟩ := h.user
  exact ⟨h.data, ⟨fields, grown.fields? found, named⟩, h.apart⟩

theorem SeesCaller.dropField (h : SeesCaller scope attempt caller heap) {name : String}
    (done : dropField attempt name heap = .ok () heap') : SeesCaller scope attempt caller heap' := by
  obtain ⟨left, done', stripped⟩ := strippedOf_dropField attempt name heap
  cases done.symm.trans done'
  obtain ⟨fields, found, named⟩ := h.user
  exact ⟨h.data, ⟨fields, stripped.beside.fields? h.apart found, named⟩, h.apart⟩

theorem seesCaller_openScope {lookup : Lookup} {opened : Heap} (known : attempt.caller = some caller)
    (stands : ∀ slot, attempt.newData = some slot → ∃ fields, heap.fields? slot = some fields)
    (opens : openScope lookup attempt heap = .ok scope opened) : SeesCaller scope attempt caller opened := by
  simp only [openScope, known] at opens
  cases opens
  refine ⟨rfl, ⟨_, Heap.fields?_alloc _ _, Entries.get?_set_self _ _ _⟩, ?_⟩
  intro same
  obtain ⟨fields, found⟩ := stands _ (Attempt.newData_of_written same.symm)
  obtain ⟨address, new, inside⟩ := Heap.inside_of_fields? found
  cases new
  exact Nat.lt_irrefl _ inside

theorem value_readRecord {record : Slot} {fields : Entries Slot} (found : heap.fields? record = some fields)
    (name : String) :
    (heap.readRecord record).value name = heap.read ((Entries.get? fields name).getD (.plain .null)) := by
  rw [Heap.readRecord, found, Option.getD_some, Heap.record, Record.value, Value.fieldOrNull, Entries.get?_map]
  cases Entries.get? fields name <;> rfl

theorem comparesEqual_text (compare : Value → Value → Except OutOfRange Bool) (text : String) (slot : Slot)
    (heap : Heap) :
    Expression.comparesEqual compare (.plain (.str text)) slot heap =
      Expression.ranged (compare (.str text) (heap.read slot)) heap := by
  cases slot <;> rfl

/-- The function `isOwner` compares the id of a user, which is a text, with the owner of a record. -/
theorem callIsOwner_run {user record : Slot} {userFields fields : Entries Slot} {id : String}
    (foundUser : heap.fields? user = some userFields)
    (named : Entries.get? userFields idField = some (.plain (.str id)))
    (found : heap.fields? record = some fields) :
    Expression.callIsOwner user record heap =
      match Value.looseEquals (.str id) (heap.read ((Entries.get? fields ownerField).getD (.plain .null))) with
      | .ok owns => .ok (.plain (.bool owns)) heap
      | .error _ => .error .outOfRange heap := by
  have compared := comparesEqual_text Value.looseEquals id
    ((Entries.get? fields ownerField).getD (.plain .null)) heap
  -- The function names the fields itself, so that their names have to be opened here.
  rw [Expression.callIsOwner, get_bind, foundUser, found]
  rw [idField] at named
  simp only [named, Option.getD_some]
  rw [ownerField] at compared ⊢
  cases owns : Value.looseEquals (.str id) (heap.read ((Entries.get? fields "_ownerId").getD (.plain .null))) with
  | ok owns' =>
      rw [owns] at compared
      exact bind_of_ok compared
  | error fault =>
      rw [owns] at compared
      exact bind_of_error compared

/-- The expression for owners is true where the record belongs to the caller, and ends early where that cannot
be told. -/
theorem holds_ownerSource (sees : SeesCaller scope attempt caller heap) :
    holds scope ownerSource heap = callerOwns caller attempt.data heap := by
  obtain ⟨user, foundUser, named⟩ := sees.user
  rw [callerOwns, bind_of_ok (readField_eq heap attempt.data ownerField)]
  cases found : heap.fields? attempt.data with
  | none =>
      rw [Heap.readRecord, found]
      simp only [holds, evaluate_ownerSource, sees.data, Expression.callIsOwner, get_bind, foundUser, found]
      rfl
  | some fields =>
      rw [value_readRecord found, Principal.ownsOwner, ← Value.looseEquals_text_comm, holds,
        evaluate_ownerSource, sees.data, callIsOwner_run foundUser named found]
      cases Value.looseEquals (.str caller.id)
        (heap.read ((Entries.get? fields ownerField).getD (.plain .null))) <;> rfl

/-- The other rule is the same, or says as an expression what a list for owners says. -/
inductive Rule.Reworded : Rule → Rule → Prop
  | same (rule : Rule) : Reworded rule rule
  | owners : Reworded (.roles [.owner]) (.expression ownerSource)

def ActionRules.Reworded (rules others : ActionRules) : Prop :=
  ∀ action, Option.Rel Rule.Reworded (rules.rule? action) (others.rule? action)

structure RecordRules.Reworded (rules others : RecordRules) : Prop where
  actions : rules.actions.Reworded others.actions
  fields : KeyByKey ActionRules.Reworded rules.fields others.fields

structure CollectionRules.Reworded (rules others : CollectionRules) : Prop where
  actions : rules.actions.Reworded others.actions
  fields : KeyByKey ActionRules.Reworded rules.fields others.fields
  records : KeyByKey RecordRules.Reworded rules.records others.records

/-- The other rule set has the same rules in the same places, but for lists for owners that it has as
expressions. -/
structure RuleSet.Reworded (ruleSet others : RuleSet) : Prop where
  default : ruleSet.default.Reworded others.default
  collections : KeyByKey CollectionRules.Reworded ruleSet.collections others.collections

structure ResolvedRules.Reworded (rules others : ResolvedRules) : Prop where
  rule : rules.rule.Reworded others.rule
  fields : KeyByKey Rule.Reworded rules.fields others.fields

theorem Rule.Reworded.isDefined_eq {rule other : Rule} (h : rule.Reworded other) :
    other.isDefined = rule.isDefined := by
  cases h <;> rfl

theorem reworded_orBroader {narrower narrower' : Option Rule} {broader broader' : Rule}
    (narrow : Option.Rel Rule.Reworded narrower narrower') (broad : broader.Reworded broader') :
    (Rule.orBroader narrower broader).Reworded (Rule.orBroader narrower' broader') := by
  cases narrow with
  | none => exact broad
  | some reworded =>
      simp only [Rule.orBroader, reworded.isDefined_eq]
      split
      · exact reworded
      · exact broad

theorem reworded_forAction {fields fields' : FieldRules} (h : KeyByKey ActionRules.Reworded fields fields')
    (action : Action) : KeyByKey Rule.Reworded (fields.forAction action) (fields'.forAction action) := by
  induction h with
  | nil => exact .nil
  | @cons entry entry' _ _ first _ ih =>
      obtain ⟨name, rules⟩ := entry
      obtain ⟨name', rules'⟩ := entry'
      obtain ⟨rfl, reworded⟩ := first
      have ruled := reworded action
      simp only [FieldRules.forAction, List.filterMap_cons] at ih ⊢
      generalize rules.rule? action = rule, rules'.rule? action = rule' at ruled ⊢
      cases ruled with
      | none => exact ih
      | some reworded => exact .cons ⟨rfl, reworded⟩ ih

theorem reworded_orBroaderFields {narrower narrower' broader broader' : List (String × Rule)}
    (narrow : KeyByKey Rule.Reworded narrower narrower') (broad : KeyByKey Rule.Reworded broader broader') :
    KeyByKey Rule.Reworded (orBroaderFields narrower broader) (orBroaderFields narrower' broader') := by
  cases narrow with
  | nil => exact broad
  | cons first rest => exact .cons first rest

namespace RuleSet.Reworded

variable {ruleSet others : RuleSet}

theorem collection? (h : ruleSet.Reworded others) (name : String) :
    Option.Rel CollectionRules.Reworded (ruleSet.collection? name) (others.collection? name) := by
  have collections := h.collections
  rw [RuleSet.collection?, RuleSet.collection?]
  generalize ruleSet.collections = entries, others.collections = entries' at collections
  induction collections with
  | nil => exact .none
  | @cons entry entry' _ _ first _ ih =>
      obtain ⟨key, group⟩ := entry
      obtain ⟨key', group'⟩ := entry'
      obtain ⟨rfl, reworded⟩ := first
      simp only [List.find?_cons]
      split
      · exact .some reworded
      · exact ih

theorem group? (h : ruleSet.Reworded others) (collection : Option String) :
    Option.Rel CollectionRules.Reworded (ruleSet.group? collection) (others.group? collection) := by
  rw [RuleSet.group?, RuleSet.group?]
  cases nonEmpty? collection with
  | none => exact .none
  | some name => exact h.collection? name

theorem resolve (h : ruleSet.Reworded others) (action : Action) (collection id : Option String) :
    (ruleSet.resolve action collection id).Reworded (others.resolve action collection id) := by
  have default := reworded_orBroader (h.default.actions action) (.same (.flag true))
  have groups := h.group? collection
  simp only [RuleSet.resolve]
  generalize ruleSet.group? collection = group, others.group? collection = group' at groups
  cases groups with
  | none => exact ⟨default, .nil⟩
  | @some group group' reworded =>
      have rule := reworded_orBroader (reworded.actions action) default
      have fields := reworded_forAction reworded.fields action
      have records : Option.Rel RecordRules.Reworded ((nonEmpty? id).bind (Entries.get? group.records))
          ((nonEmpty? id).bind (Entries.get? group'.records)) := by
        cases nonEmpty? id with
        | none => exact .none
        | some id => exact Entries.rel_get? reworded.records id
      dsimp only
      generalize (nonEmpty? id).bind (Entries.get? group.records) = record,
        (nonEmpty? id).bind (Entries.get? group'.records) = record' at records
      cases records with
      | none => exact ⟨rule, fields⟩
      | some reworded =>
          exact ⟨reworded_orBroader (reworded.actions action) rule,
            reworded_orBroaderFields (reworded_forAction reworded.fields action) fields⟩

theorem recordKey_eq (h : ruleSet.Reworded others) (collection : Option String) (id : Value) :
    recordKey others collection id = recordKey ruleSet collection id := by
  have groups := h.group? collection
  unfold recordKey
  generalize ruleSet.group? collection = group, others.group? collection = group' at groups
  cases groups <;> rfl

end RuleSet.Reworded

variable {rule other : Rule} {lookup : Lookup}

theorem allowsField_reworded (reworded : rule.Reworded other) (known : attempt.caller = some caller)
    (sees : SeesCaller scope attempt caller heap) :
    allowsField other scope attempt heap = allowsField rule scope attempt heap := by
  cases reworded with
  | same => rfl
  | owners =>
      rw [allowsField, holds_ownerSource sees]
      simp [allowsField, rolesAllowField, known]

theorem allowsAction_reworded (reworded : rule.Reworded other) (known : attempt.caller = some caller)
    (sees : SeesCaller scope attempt caller heap) :
    allowsAction other scope attempt heap = allowsAction rule scope attempt heap := by
  cases reworded with
  | same => rfl
  | owners =>
      rw [allowsAction, holds_ownerSource sees]
      simp [allowsAction, rolesAllowAction, known]

theorem deniedFields_reworded {rules others : List (String × Rule)} (reworded : KeyByKey Rule.Reworded rules others)
    (unassigning : ∀ entry ∈ rules, entry.2.assigns = false) (known : attempt.caller = some caller)
    (sees : SeesCaller scope attempt caller heap) :
    deniedFields scope attempt others heap = deniedFields scope attempt rules heap := by
  -- The heap changes from rule to rule, but the caller stays in sight.
  induction reworded generalizing heap with
  | nil => rfl
  | @cons entry entry' rest rest' first _ ih =>
      obtain ⟨name, rule⟩ := entry
      obtain ⟨name', rule'⟩ := entry'
      obtain ⟨rfl, reworded⟩ := first
      have later : ∀ entry ∈ rest, entry.2.assigns = false :=
        fun entry member => unassigning entry (List.mem_cons_of_mem _ member)
      rw [deniedFields, deniedFields]
      refine bind_run_congr (allowsField_reworded reworded known sees) fun allowed next checked => ?_
      have sees := sees.mono ((grows_allowsField (unassigning _ List.mem_cons_self) scope attempt).of_ok checked)
      cases allowed with
      | true => exact ih later sees
      | false =>
          refine bind_run_congr rfl fun _ left dropped => ?_
          exact bind_run_congr (ih later (sees.dropField dropped)) fun _ _ _ => rfl

/-- Writing a list for owners as the expression for owners changes nothing about the check of a known caller:
it ends alike, with the same denied fields or for the same reason, and leaves the same heap. -/
theorem enforce_reworded {ruleSet others : RuleSet} (reworded : ruleSet.Reworded others)
    (known : attempt.caller = some caller)
    (stands : ∀ slot, attempt.newData = some slot → ∃ fields, heap.fields? slot = some fields)
    (unassigning : ∀ id, (ruleSet.resolve attempt.action attempt.collection id).Unassigning)
    (lookup : Lookup) :
    enforce others lookup attempt heap = enforce ruleSet lookup attempt heap := by
  refine bind_run_congr rfl fun id left read => ?_
  cases (still_readField _ _).of_ok read
  rw [reworded.recordKey_eq]
  cases recordKey ruleSet attempt.collection id with
  | error fault => rfl
  | ok key =>
      have resolved := reworded.resolve attempt.action attempt.collection key
      refine bind_run_congr rfl fun scope opened opens => ?_
      have sees := seesCaller_openScope known stands opens
      refine bind_run_congr (allowsAction_reworded resolved.rule known sees) fun allowed checked check => ?_
      have sees := sees.mono ((grows_allowsAction (unassigning key).rule scope attempt).of_ok check)
      split
      · rfl
      · exact deniedFields_reworded resolved.fields (unassigning key).fields known sees

/-- Rules for games: who may update one, and who may update its score. -/
def rulesForGames (owners : Rule) : RuleSet where
  collections := [(.str "games",
    { actions := { update := some owners }, fields := [("score", { update := some owners })] })]

/-- A caller among whose attributes stands another id. -/
def playerSeven : Caller where
  id := "7"
  attributes := [(idField, .plain (.str "8"))]

/-- A game whose owner is written as a number, and what is to be written over it. -/
def heapOfGame : Heap :=
  ⟨#[.object [(idField, .plain (.str "r1")), (ownerField, .plain (.int 7))],
    .object [("score", .plain (.int 3))]]⟩

def scoring : Attempt where
  action := .update
  collection := some "games"
  caller := some playerSeven
  data := .shared 0
  newData := some (.shared 1)
  override := false

theorem resolve_rulesForGames (owners : Rule) (defined : owners.isDefined = true) (id : Option String) :
    (rulesForGames owners).resolve .update (some "games") id = ⟨owners, [("score", owners)]⟩ := by
  have isGroup : (rulesForGames owners).group? (some "games") = some
      { actions := { update := some owners }, fields := [("score", { update := some owners })] } := rfl
  simp [resolve_of_no_records isGroup rfl, ActionRules.rule?, Rule.orBroader, defined, FieldRules.forAction]

/-- The player owns the game and may score, whichever way the rules are written. -/
theorem enforce_reworded_for_scoring :
    (rulesForGames (.roles [.owner])).Reworded (rulesForGames (.expression ownerSource)) ∧
      scoring.caller = some playerSeven ∧
      (∀ slot, scoring.newData = some slot → ∃ fields, heapOfGame.fields? slot = some fields) ∧
      (∀ id, ((rulesForGames (.roles [.owner])).resolve scoring.action scoring.collection id).Unassigning) ∧
      outcome (enforce (rulesForGames (.expression ownerSource)) (fun _ _ => .error "") scoring) heapOfGame =
        .ok [] := by
  have noActions : ActionRules.Reworded {} {} := fun action => by cases action <;> exact .none
  have actions : ActionRules.Reworded { update := some (.roles [.owner]) }
      { update := some (.expression ownerSource) } := fun action => by
    cases action with
    | update => exact .some .owners
    | create | read | delete => exact .none
  have reworded : (rulesForGames (.roles [.owner])).Reworded (rulesForGames (.expression ownerSource)) :=
    ⟨⟨noActions, .nil, .nil⟩, .cons ⟨rfl, ⟨actions, .cons ⟨rfl, actions⟩ .nil, .nil⟩⟩ .nil⟩
  have stands : ∀ slot, scoring.newData = some slot → ∃ fields, heapOfGame.fields? slot = some fields := by
    rintro _ ⟨⟩
    exact ⟨_, rfl⟩
  have unassigning (id : Option String) :
      ((rulesForGames (.roles [.owner])).resolve scoring.action scoring.collection id).Unassigning := by
    rw [scoring, resolve_rulesForGames _ rfl]
    exact ⟨rfl, by simp [Rule.assigns]⟩
  refine ⟨reworded, rfl, stands, unassigning, ?_⟩
  rw [outcome, enforce_reworded reworded rfl stands unassigning]
  decide +kernel

end GuardedStore.Access
