import GuardedStore.Access.RawRules

/-! # Which rule applies

The rule for an action on a record is the narrowest one that says something: the record's, the
collection's, the default group's, and permission when there is none. The rules for fields come
from the record when it has any for the action, from the collection otherwise.
-/

namespace GuardedStore.Access

/-- The rules that apply to an action on a target. -/
structure ResolvedRules where
  rule : Rule
  fields : List (String × Rule)
  deriving DecidableEq, Repr

/-- A text, unless it is missing or empty. -/
def nonEmpty? (text : Option String) : Option String :=
  text.filter (!·.isEmpty)

/-- The field rules of a narrower group if there are any, the broader ones otherwise. -/
def orBroaderFields (narrower broader : List (String × Rule)) : List (String × Rule) :=
  if narrower.isEmpty then broader else narrower

namespace RuleSet

def group? (ruleSet : RuleSet) (collection : Option String) : Option CollectionRules :=
  (nonEmpty? collection).bind ruleSet.collection?

/-- The rules that apply to an action on a record of a collection. -/
def resolve (ruleSet : RuleSet) (action : Action) (collection id : Option String) :
    ResolvedRules :=
  let default := Rule.orBroader (ruleSet.default.actions.rule? action) (.flag true)
  match ruleSet.group? collection with
  | none => ⟨default, []⟩
  | some group =>
    let rule := Rule.orBroader (group.actions.rule? action) default
    let fields := group.fields.forAction action
    match (nonEmpty? id).bind (Entries.get? group.records) with
    | none => ⟨rule, fields⟩
    | some record =>
      ⟨Rule.orBroader (record.actions.rule? action) rule,
        orBroaderFields (record.fields.forAction action) fields⟩

end RuleSet

end GuardedStore.Access
