import GuardedStore.Access.RuleSet

/-! # Reading rule sets

A rule set is read from a mapping of collection names. In an entry, keys with a leading dot are
actions, the key `*` holds the rules for fields and every other key the rules for a record. The
entry `*` of the whole is the default group, which replaces the built-in one.
-/

namespace GuardedStore.Access

/-- The key of the default group and of the field rules of a collection. -/
def wildcard : String := "*"

/-- Why a mapping is no rule set. A place is the path of keys that leads to it. -/
inductive InvalidRules where
  /-- The entry of a collection is no mapping. -/
  | collectionNotMapping (name : String)
  /-- A key with a leading dot is no action. -/
  | unknownAction (key place : String)
  /-- A list holds something else than role tags. -/
  | unknownRoles (tags : List Datum) (place : String)
  /-- A list holds something that cannot be looked up among the tags. -/
  | unlistableRole
  /-- A value is no rule. -/
  | unsupportedRule (rule : Datum) (place : String)
  /-- The rules of a field are no mapping. -/
  | fieldNotMapping (field place : String)
  /-- The entry of a record is no mapping. -/
  | recordNotMapping (key place : String)
  deriving Repr

/-- The wording of what is wrong with a rule set. -/
def InvalidRules.message? : InvalidRules → Option String
  | .collectionNotMapping name => some s!"Rules for '{name}' must be a mapping"
  | .unknownAction key place => some s!"Unknown action '{key}' at {place}"
  | .unknownRoles tags place =>
    let shown := (Datum.list tags).literal
    some s!"Unknown role(s) {shown} in rule at {place}"
  | .unlistableRole => none
  | .unsupportedRule rule place =>
    let shown := rule.literal
    some s!"Unsupported rule value {shown} at {place}"
  | .fieldNotMapping field place => some s!"Field rules for '{field}' at {place} must be a mapping"
  | .recordNotMapping key place => some s!"Rule entry '{key}' at {place} must be a mapping"

/-- The entries of a mapping with their keys as names. -/
abbrev RawEntries := List (String × Datum)

/-- The entries of a mapping with their keys as names, repeated names included. -/
def namedEntries (entries : List (Datum × Datum)) : RawEntries :=
  entries.map fun (key, value) => (key.asName, value)

def isActionKey (key : String) : Bool :=
  key.toList.head? = some '.'

/-- Whether a piece of data can be looked up among the role tags. A set can, though it is no key. -/
def canBeTag : Datum → Bool
  | .set _ => true
  | tag => tag.isKey

def roleOf? : Datum → Option Role
  | .str tag => Role.ofTag? tag
  | _ => none

def readRule (rule : Datum) (place : String) : Except InvalidRules Rule :=
  match rule with
  | .null => .ok .unset
  | .bool b => .ok (.flag b)
  | .str source => .ok (.expression source)
  | .list tags =>
    if tags.any (!canBeTag ·) then .error .unlistableRole
    else match tags.filter fun tag => (roleOf? tag).isNone with
      | [] => .ok (.roles (tags.filterMap roleOf?))
      | unknown => .error (.unknownRoles unknown place)
  | rule => .error (.unsupportedRule rule place)

/-- Adds the action rules among some entries; a later entry for an action replaces an earlier one. -/
def addActionRules (place : String) (rules : ActionRules) :
    RawEntries → Except InvalidRules ActionRules
  | [] => .ok rules
  | (key, value) :: rest =>
    if isActionKey key then
      match Action.ofKey? key with
      | none => .error (.unknownAction key place)
      | some action => do
        let rule ← readRule value s!"{place}.{key}"
        addActionRules place (rules.set action rule) rest
    else addActionRules place rules rest

def readActionRules (entries : RawEntries) (place : String) : Except InvalidRules ActionRules :=
  addActionRules place {} entries

def addFieldRules (place : String) (fields : FieldRules) :
    RawEntries → Except InvalidRules FieldRules
  | [] => .ok fields
  | (name, value) :: rest =>
    if isActionKey name then addFieldRules place fields rest
    else match value.entries? with
      | none => .error (.fieldNotMapping name place)
      | some entries => do
        let rules ← readActionRules (namedEntries entries) s!"{place}.{name}"
        addFieldRules place (Entries.set fields name rules) rest

def readFieldRules (entries : RawEntries) (place : String) : Except InvalidRules FieldRules :=
  addFieldRules place [] entries

def readRecordRules (entries : RawEntries) (place : String) : Except InvalidRules RecordRules := do
  let actions ← readActionRules entries place
  let fields ← readFieldRules entries place
  return { actions, fields }

/-- Adds the field and record rules among the entries of a collection. -/
def addGroups (place : String) (rules : CollectionRules) :
    RawEntries → Except InvalidRules CollectionRules
  | [] => .ok rules
  | (key, value) :: rest =>
    if isActionKey key then addGroups place rules rest
    else match value.entries? with
      | none => .error (.recordNotMapping key place)
      | some entries => do
        let entries := namedEntries entries
        if key = wildcard then
          let fields ← readFieldRules entries s!"{place}.*"
          addGroups place { rules with fields } rest
        else
          let record ← readRecordRules entries s!"{place}.{key}"
          addGroups place { rules with records := Entries.set rules.records key record } rest

def readCollectionRules (entries : RawEntries) (place : String) :
    Except InvalidRules CollectionRules := do
  let actions ← readActionRules entries place
  addGroups place { actions } entries

/-- The built-in default group: known callers may create, owners may update and delete. -/
def builtInRules : List (Datum × Datum) :=
  [(.str wildcard,
    .mapping
      [(.str Action.create.key, .list [.str Role.user.tag]),
        (.str Action.update.key, .list [.str Role.owner.tag]),
        (.str Action.delete.key, .list [.str Role.owner.tag])])]

def addCollections (ruleSet : RuleSet) : List (Datum × Datum) → Except InvalidRules RuleSet
  | [] => .ok ruleSet
  | (key, value) :: rest =>
    match value.entries? with
    | none => .error (.collectionNotMapping key.asName)
    | some entries => do
      let rules ← readCollectionRules (namedEntries entries) key.asName
      if key.sameKey (.str wildcard) then addCollections { ruleSet with default := rules } rest
      else
        let collections := ruleSet.collections ++ [(key, rules)]
        addCollections { ruleSet with collections } rest

/-- The rule set that a mapping of collection names stands for. -/
def RuleSet.ofEntries (entries : List (Datum × Datum)) : Except InvalidRules RuleSet :=
  addCollections {} (Datum.ofPairs (builtInRules ++ entries))

/-- The rule set without any rules but the built-in ones. -/
def RuleSet.builtIn : Except InvalidRules RuleSet :=
  RuleSet.ofEntries []

end GuardedStore.Access
