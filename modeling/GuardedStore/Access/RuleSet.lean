import GuardedStore.Config.Datum

/-! # Rule sets

A rule set layers rules for actions: the default group, a group for each collection, and in it
rules for single fields and for single records. A rule is a truth value, an expression or a list of
roles; a rule that is unset, or an expression or list without content, never replaces a broader one.
-/

namespace GuardedStore.Access

inductive Action where
  | create | read | update | delete
  deriving DecidableEq, Repr

namespace Action

def word : Action → String
  | .create => "create"
  | .read => "read"
  | .update => "update"
  | .delete => "delete"

def key (action : Action) : String :=
  "." ++ action.word

def all : List Action := [.create, .read, .update, .delete]

def ofKey? (key : String) : Option Action :=
  all.find? (·.key = key)

/-- Whether the fields that are not allowed are taken out of what is written. -/
def isWrite : Action → Bool
  | .create | .update => true
  | .read | .delete => false

end Action

inductive Role where
  /-- Anyone. -/
  | guest
  /-- Any known caller. -/
  | user
  /-- The caller whom the record belongs to. -/
  | owner
  deriving DecidableEq, Repr

namespace Role

def tag : Role → String
  | .guest => "Guest"
  | .user => "User"
  | .owner => "Owner"

def all : List Role := [.guest, .user, .owner]

def ofTag? (tag : String) : Option Role :=
  all.find? (·.tag = tag)

end Role

inductive Rule where
  | unset
  | flag (allowed : Bool)
  /-- When an expression is true. -/
  | expression (source : String)
  | roles (roles : List Role)
  deriving DecidableEq, Repr, Inhabited

namespace Rule

def isDefined : Rule → Bool
  | .unset => false
  | .flag _ => true
  | .expression source => !source.isEmpty
  | .roles list => !list.isEmpty

/-- The narrower rule if it says something, the broader one otherwise. -/
def orBroader (narrower : Option Rule) (broader : Rule) : Rule :=
  match narrower with
  | some rule => if rule.isDefined then rule else broader
  | none => broader

end Rule

/-- The rules for the four actions, as far as there are any. -/
structure ActionRules where
  create : Option Rule := none
  read : Option Rule := none
  update : Option Rule := none
  delete : Option Rule := none
  deriving DecidableEq, Repr, Inhabited

namespace ActionRules

def rule? (rules : ActionRules) : Action → Option Rule
  | .create => rules.create
  | .read => rules.read
  | .update => rules.update
  | .delete => rules.delete

def set (rules : ActionRules) (action : Action) (rule : Rule) : ActionRules :=
  match action with
  | .create => { rules with create := some rule }
  | .read => { rules with read := some rule }
  | .update => { rules with update := some rule }
  | .delete => { rules with delete := some rule }

end ActionRules

/-- Rules for fields, in order. -/
abbrev FieldRules := Entries ActionRules

/-- The fields that have a rule for an action, with the rule. -/
def FieldRules.forAction (fields : FieldRules) (action : Action) : List (String × Rule) :=
  fields.filterMap fun (name, rules) => (rules.rule? action).map (name, ·)

structure RecordRules where
  actions : ActionRules
  fields : FieldRules
  deriving Repr, Inhabited

/-- The rules for a collection: for its actions, for the fields of every record and for single
    records. -/
structure CollectionRules where
  actions : ActionRules := {}
  fields : FieldRules := []
  records : Entries RecordRules := []
  deriving Repr, Inhabited

/-- All rules. A collection is named by the key that its entry was written under. -/
structure RuleSet where
  default : CollectionRules := {}
  collections : List (Datum × CollectionRules) := []
  deriving Repr, Inhabited

/-- The rules for a collection, whose entry must be written under a text. -/
def RuleSet.collection? (ruleSet : RuleSet) (name : String) : Option CollectionRules :=
  (ruleSet.collections.find? fun (key, _) => key.sameKey (.str name)).map (·.2)

end GuardedStore.Access
