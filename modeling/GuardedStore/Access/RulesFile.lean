import GuardedStore.Access.RawRules
import GuardedStore.Yaml.Document

/-! # Files of rules

A rule set is kept as a YAML file that holds a mapping of collection names, or nothing. A document may
hold a mapping in itself, so what rules are read from is first cut to the places where rules can
stand; nothing else in the file matters.
-/

namespace GuardedStore.Access

/-- Why a file holds no rule set. Files are named as their paths. -/
inductive InvalidRulesFile where
  | unreadable (file : String) (flaw : Yaml.Flaw)
  /-- The file holds something else than a mapping. -/
  | notMapping (file : String)
  | invalid (reason : InvalidRules)
  deriving Repr

/-- The wording of what is wrong with a file of rules, where there is one. -/
def InvalidRulesFile.message? : InvalidRulesFile → Option String
  | .unreadable file .malformed => some s!"Rules file {file} is not valid YAML"
  | .unreadable _ (.misspelled details) => some details
  | .unreadable _ _ => none
  | .notMapping file => some s!"Rules file {file} must contain a mapping of collections"
  | .invalid reason => reason.message?

open Yaml (Document Item)

/-- The value of a rule. What lists and mappings in a list hold does not matter: none of them can be a
    role. Sets keep their members, which are shown where one stands among roles. -/
def ruleDatum (document : Document) (item : Item) : Datum :=
  match item with
  | .plain datum => datum
  | .shared number =>
    match document.held number with
    | .list items => .list (items.map document.surface)
    | .pairs pairs => .list (pairs.map fun (a, b) => .tuple [document.surface a, document.surface b])
    | .set _ | .mapping _ => document.datum item

/-- A mapping of which `part` says what is read under a name; null stands for anything else. -/
def partsOf (document : Document) (part : String → Item → Datum) (item : Item) : Datum :=
  match document.entries? item with
  | none => .null
  | some entries => .mapping (entries.map fun (key, value) => (key, part key.asName value))

/-- The rules of a field: what stands under its actions. -/
def fieldParts (document : Document) : Item → Datum :=
  partsOf document fun name item => if isActionKey name then ruleDatum document item else .null

/-- The rules for fields: what stands under anything but actions. -/
def fieldGroupParts (document : Document) : Item → Datum :=
  partsOf document fun name item => if isActionKey name then .null else fieldParts document item

def recordParts (document : Document) : Item → Datum :=
  partsOf document fun name item =>
    if isActionKey name then ruleDatum document item else fieldParts document item

def collectionParts (document : Document) : Item → Datum :=
  partsOf document fun name item =>
    if isActionKey name then ruleDatum document item
    else if name = wildcard then fieldGroupParts document item
    else recordParts document item

/-- The rule set of a document; none if it is no mapping. -/
def RuleSet.ofDocument? (document : Document) : Option (Except InvalidRules RuleSet) :=
  match document.root, document.entries? document.root with
  | .plain .null, _ => some RuleSet.builtIn
  | _, some entries =>
    some (RuleSet.ofEntries (entries.map fun (key, item) => (key, collectionParts document item)))
  | _, none => none

def RuleSet.ofFile (file text : String) : Except InvalidRulesFile RuleSet :=
  match Document.parse text with
  | .error flaw => .error (.unreadable file flaw)
  | .ok document =>
    match RuleSet.ofDocument? document with
    | some rules => rules.mapError .invalid
    | none => .error (.notMapping file)

end GuardedStore.Access
