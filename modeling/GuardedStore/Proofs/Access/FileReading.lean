import GuardedStore.Access.RulesFile
import GuardedStore.Proofs.Access.Layering
import GuardedStore.Proofs.Value.Likeness

/-! # What a file of rules protects

The keys of a file need not be texts. A collection is looked up under its name as a text, so an entry
applies where it stands under a text. A number, a truth value, a date or null is another key than the text
that it looks like: what stands under it is checked and then applies to no collection. Inside an entry keys
are names, of which the last of each counts.
-/

namespace GuardedStore

namespace Datum

variable {α : Type}

/-- What stands under a text among entries with keys of any kind. -/
def atText? (entries : List (Datum × α)) (name : String) : Option α :=
  (entries.find? fun entry => entry.1.sameKey (.str name)).map (·.2)

theorem sameKey_text {key : Datum} {name : String} : key.sameKey (.str name) = true ↔ key = .str name := by
  cases key with
  | float x => cases x <;> simp [sameKey, place?]
  | _ => simp [sameKey, place?]

theorem text_sameKey {key : Datum} {name : String} : (Datum.str name).sameKey key = true ↔ key = .str name := by
  cases key with
  | float x => cases x <;> simp [sameKey, place?]
  | _ => simp [sameKey, place?, eq_comm]

@[simp] theorem sameKey_self_text (name : String) : (Datum.str name).sameKey (.str name) = true :=
  sameKey_text.mpr rfl

theorem atText?_cons (key : Datum) (value : α) (rest : List (Datum × α)) (name : String) :
    atText? ((key, value) :: rest) name =
      if key.sameKey (.str name) then some value else atText? rest name := by
  by_cases same : key.sameKey (.str name) = true <;> simp [atText?, same]

theorem atText?_append (entries others : List (Datum × α)) (name : String) :
    atText? (entries ++ others) name = (atText? entries name).or (atText? others name) := by
  simp only [atText?, List.find?_append, Option.map_or]

theorem atText?_setEntry (entries : List (Datum × α)) (key : Datum) (value : α) (name : String) :
    atText? (setEntry entries key value) name =
      if key.sameKey (.str name) then some value else atText? entries name := by
  induction entries with
  | nil => simp [setEntry, atText?_cons]
  | cons entry rest ih =>
      obtain ⟨old, before⟩ := entry
      rw [setEntry]
      by_cases named : key.sameKey (.str name) = true
      · rw [sameKey_text] at named
        subst named
        split
        · rename_i same
          simp [atText?_cons, same]
        · rename_i apart
          simp [atText?_cons, apart, ih]
      · have silent : (Datum.str name).sameKey key = false := by
          rw [Bool.eq_false_iff]
          intro same
          apply named
          rw [text_sameKey.mp same, sameKey_text]
        split
        · rename_i same
          have apart : old.sameKey (.str name) = false := by
            rw [Bool.eq_false_iff]
            intro isText
            rw [sameKey_text.mp isText, silent] at same
            cases same
          simp [atText?_cons, apart]
        · simp [atText?_cons, ih, named]

theorem atText?_ofPairs (pairs : List (Datum × α)) (name : String) :
    atText? (ofPairs pairs) name = atText? pairs.reverse name := by
  have folds (start : List (Datum × α)) :
      atText? (pairs.foldl (fun entries pair => setEntry entries pair.1 pair.2) start) name =
        (atText? pairs.reverse name).or (atText? start name) := by
    induction pairs generalizing start with
    | nil => rfl
    | cons pair rest ih =>
        obtain ⟨key, value⟩ := pair
        rw [List.foldl_cons, ih, atText?_setEntry, List.reverse_cons, atText?_append, atText?_cons]
        by_cases named : key.sameKey (.str name) = true <;>
          cases atText? rest.reverse name <;> simp [named, atText?]
  have whole := folds []
  rwa [show atText? ([] : List (Datum × α)) name = none from rfl, Option.or_none] at whole

theorem atText?_eq_none {entries : List (Datum × α)} {name : String}
    (missing : ∀ entry ∈ entries, entry.1 ≠ .str name) : atText? entries name = none := by
  rw [atText?, Option.map_eq_none_iff, List.find?_eq_none]
  intro entry member same
  exact missing entry member (sameKey_text.mp same)

theorem atText?_of_alone {entries : List (Datum × α)} {name : String} {value : α}
    (member : (.str name, value) ∈ entries)
    (alone : ∀ entry ∈ entries, entry.1 = .str name → entry.2 = value) :
    atText? entries name = some value := by
  cases found : entries.find? fun entry => entry.1.sameKey (.str name) with
  | none =>
      have apart := List.find?_eq_none.mp found _ member
      simp at apart
  | some entry =>
      have isText : entry.1 = .str name := sameKey_text.mp (by simpa using List.find?_some found)
      have same := alone entry (List.mem_of_find?_eq_some found) isText
      simp only [atText?, found, Option.map_some, same]

end Datum

namespace Access

section

variable {place : String} {entries : RawEntries}

theorem addActionRules_last {rules rules' : ActionRules}
    (read : addActionRules place rules entries = .ok rules') (action : Action) :
    (rules'.rule? action).map Rule.written =
      (Entries.get? entries.reverse action.key).or ((rules.rule? action).map Rule.written) := by
  induction entries generalizing rules with
  | nil =>
      cases read
      rfl
  | cons entry rest ih =>
      obtain ⟨key, value⟩ := entry
      rw [addActionRules] at read
      rw [List.reverse_cons, Entries.get?_append, Option.or_assoc, Entries.get?_cons, Entries.get?_nil]
      split at read
      · split at read
        · cases read
        · rename_i here isAction
          obtain ⟨rule, isRule, read⟩ := except_bind_ok_iff.mp read
          rw [ih read, ActionRules.rule?_set, ← Action.key_of_ofKey? isAction]
          by_cases same : here = action
          · simp [same, readRule_written isRule]
          · have apart : here.key ≠ action.key := fun h => same (Action.key_inj h)
            simp [same, apart]
      · rename_i noAction
        have apart : key ≠ action.key := fun h => noAction (h ▸ action.isActionKey_key)
        rw [ih read, if_neg apart, Option.none_or]

theorem addGroups_actions {rules rules' : CollectionRules}
    (read : addGroups place rules entries = .ok rules') : rules'.actions = rules.actions := by
  induction entries generalizing rules with
  | nil =>
      cases read
      rfl
  | cons entry rest ih =>
      obtain ⟨key, value⟩ := entry
      rw [addGroups] at read
      split at read
      · exact ih read
      · split at read
        · cases read
        · split at read
          · obtain ⟨fields, _, later⟩ := except_bind_ok_iff.mp read
            rw [ih later]
          · obtain ⟨record, _, later⟩ := except_bind_ok_iff.mp read
            rw [ih later]

/-- Whether the rules for a collection are what is read of its entry. -/
def CollectionRules.IsReadOf (rules : CollectionRules) (d : Datum) : Prop :=
  ∃ raw place, d.entries? = some raw ∧ readCollectionRules (namedEntries raw) place = .ok rules

theorem CollectionRules.IsReadOf.actions {rules : CollectionRules} {d : Datum} (read : rules.IsReadOf d) :
    ∃ raw, d.entries? = some raw ∧ ∀ action,
      (rules.actions.rule? action).map Rule.written =
        Entries.get? (namedEntries raw).reverse action.key := by
  obtain ⟨raw, place, isMapping, read⟩ := read
  obtain ⟨actions, readActions, done⟩ := except_bind_ok_iff.mp read
  refine ⟨raw, isMapping, ?_⟩
  intro action
  rw [addGroups_actions done, addActionRules_last readActions action]
  cases action <;> exact Option.or_none

end

section

variable {ruleSet ruleSet' : RuleSet} {name : String}

theorem collection?_concat_key (collections : List (Datum × CollectionRules)) (key : Datum)
    (rules : CollectionRules) :
    RuleSet.collection? { ruleSet with collections := collections ++ [(key, rules)] } name =
      (RuleSet.collection? { ruleSet with collections } name).or
        (if key.sameKey (.str name) then some rules else none) := by
  simp only [RuleSet.collection?, List.find?_append, List.find?_singleton, Option.map_or]
  by_cases same : key.sameKey (.str name) = true <;> simp [same]

theorem addCollections_collection? (noWildcard : name ≠ wildcard) {entries : List (Datum × Datum)}
    (done : addCollections ruleSet entries = .ok ruleSet') :
    (∀ rules, ruleSet.collection? name = some rules → ruleSet'.collection? name = some rules) ∧
    (ruleSet.collection? name = none →
      Option.Rel CollectionRules.IsReadOf (ruleSet'.collection? name) (Datum.atText? entries name)) := by
  induction entries generalizing ruleSet with
  | nil =>
      cases done
      refine ⟨fun rules found => found, ?_⟩
      intro missing
      rw [missing]
      exact .none
  | cons entry rest ih =>
      obtain ⟨key, value⟩ := entry
      rw [addCollections] at done
      rw [Datum.atText?_cons]
      split at done
      · cases done
      · rename_i raw isMapping
        obtain ⟨rules, readRules, later⟩ := except_bind_ok_iff.mp done
        split at later
        · rename_i isWildcard
          have apart : key.sameKey (.str name) = false := by
            rw [Bool.eq_false_iff, Datum.sameKey_text.mp isWildcard]
            intro same
            exact noWildcard (Datum.str.inj (Datum.text_sameKey.mp same))
          rw [apart]
          have read := ih later
          exact read
        · obtain ⟨kept, added⟩ := ih later
          rw [collection?_concat_key] at kept added
          by_cases named : key.sameKey (.str name) = true
          · rw [if_pos named] at kept added ⊢
            refine ⟨fun old found => kept old (by rw [found, Option.some_or]), ?_⟩
            intro missing
            rw [kept rules (by rw [missing, Option.none_or])]
            exact .some ⟨raw, _, isMapping, readRules⟩
          · rw [if_neg named, Option.or_none] at kept added
            rw [if_neg named]
            exact ⟨kept, added⟩

theorem ofEntries_collection? (noWildcard : name ≠ wildcard) {entries : List (Datum × Datum)}
    (accepted : RuleSet.ofEntries entries = .ok ruleSet) :
    Option.Rel CollectionRules.IsReadOf (ruleSet.collection? name)
      (Datum.atText? entries.reverse name) := by
  have read := (addCollections_collection? noWildcard accepted).2 rfl
  rw [Datum.atText?_ofPairs, List.reverse_append, Datum.atText?_append] at read
  have builtIn : Datum.atText? builtInRules.reverse name = none := by
    apply Datum.atText?_eq_none
    intro entry member same
    rw [List.mem_singleton.mp member] at same
    exact noWildcard (Datum.str.inj same).symm
  rwa [builtIn, Option.or_none] at read

end

open Yaml (Document Item)

/-- The rule for an action in an entry of a file. -/
def entryRule? (document : Document) (item : Item) (action : Action) : Option Datum :=
  (document.entries? item).bind fun entries =>
    let named := entries.map fun (key, value) => (key.asName, value)
    (Entries.get? named.reverse action.key).map (ruleDatum document)

theorem get?_collectionParts {document : Document} {item : Item} {raw : List (Datum × Datum)}
    (isMapping : (collectionParts document item).entries? = some raw) (action : Action) :
    Entries.get? (namedEntries raw).reverse action.key = entryRule? document item action := by
  simp only [collectionParts, partsOf] at isMapping
  simp only [entryRule?]
  cases inside : document.entries? item with
  | none => simp [inside, Datum.entries?] at isMapping
  | some entries =>
      simp only [inside, Datum.entries?, Option.some.injEq] at isMapping
      subst isMapping
      simp only [Option.bind_some, namedEntries, List.map_map]
      rw [← List.map_reverse, ← List.map_reverse]
      induction entries.reverse with
      | nil => rfl
      | cons entry rest ih =>
          obtain ⟨key, value⟩ := entry
          simp only [List.map_cons, Function.comp_apply, Entries.get?_cons]
          by_cases named : key.asName = action.key
          · simp [named, action.isActionKey_key]
          · simpa only [named, if_false] using ih

section

variable {file text : String} {document : Document} {ruleSet : RuleSet}
  {entries : List (Datum × Item)} {key : Datum} {item : Item} {action : Action} {rule : Datum}

theorem ofFile_entries (parsed : Document.parse text = .ok document)
    (root : document.entries? document.root = some entries)
    (accepted : RuleSet.ofFile file text = .ok ruleSet) :
    RuleSet.ofEntries (entries.map fun entry => (entry.1, collectionParts document entry.2)) =
      .ok ruleSet := by
  have read : RuleSet.ofDocument? document = some (RuleSet.ofEntries
      (entries.map fun entry => (entry.1, collectionParts document entry.2))) := by
    rw [RuleSet.ofDocument?, root]
    cases isRoot : document.root with
    | plain datum => simp [isRoot, Document.entries?] at root
    | shared number => rfl
  simp only [RuleSet.ofFile, parsed, read] at accepted
  cases rules : RuleSet.ofEntries (entries.map fun entry => (entry.1, collectionParts document entry.2)) with
  | ok rules' => rw [rules] at accepted; cases accepted; rfl
  | error reason => rw [rules] at accepted; cases accepted

theorem atText?_alone (alone : ∀ other ∈ entries, other.1.asName = key.asName → other = (key, item))
    (member : (key, item) ∈ entries) (isText : key = .str key.asName) (part : Item → Datum) :
    Datum.atText? (entries.map fun entry => (entry.1, part entry.2)).reverse key.asName =
      some (part item) := by
  apply Datum.atText?_of_alone
  · rw [← isText]
    exact List.mem_reverse.mpr (List.mem_map.mpr ⟨_, member, rfl⟩)
  · intro entry inside sameText
    obtain ⟨other, among, rfl⟩ := List.mem_map.mp (List.mem_reverse.mp inside)
    have sameName : other.1.asName = key.asName := by
      rw [show other.1 = .str key.asName from sameText]
      rfl
    rw [alone other among sameName]

theorem atText?_noText (alone : ∀ other ∈ entries, other.1.asName = key.asName → other = (key, item))
    (noText : key ≠ .str key.asName) (part : Item → Datum) :
    Datum.atText? (entries.map fun entry => (entry.1, part entry.2)).reverse key.asName = none := by
  apply Datum.atText?_eq_none
  intro entry inside sameText
  obtain ⟨other, among, rfl⟩ := List.mem_map.mp (List.mem_reverse.mp inside)
  have sameText : other.1 = .str key.asName := sameText
  have sameName : other.1.asName = key.asName := by
    rw [sameText]
    rfl
  rw [alone other among sameName] at sameText
  exact noText sameText

/-- An entry of a file takes effect where it stands under a text: what it says of an action is the rule for
its collection. Under any other key it has none: for the collection with the name of the key there are
only the rules of the default group. -/
theorem resolve_entry_of_file (parsed : Document.parse text = .ok document)
    (root : document.entries? document.root = some entries)
    (accepted : RuleSet.ofFile file text = .ok ruleSet) (member : (key, item) ∈ entries)
    (alone : ∀ other ∈ entries, other.1.asName = key.asName → other = (key, item))
    (named : key.asName ≠ "") (noWildcard : key.asName ≠ wildcard)
    (ruled : entryRule? document item action = some rule) (said : saysNothing rule = false) :
    (key = .str key.asName →
      (ruleSet.resolve action (some key.asName) none).rule.written = rule) ∧
    (key ≠ .str key.asName →
      ruleSet.resolve action (some key.asName) none = ruleSet.resolve action none none) := by
  have read := ofEntries_collection? noWildcard (ofFile_entries parsed root accepted)
  have group : ruleSet.group? (some key.asName) = ruleSet.collection? key.asName := by
    simp [RuleSet.group?, nonEmpty?, Option.filter, named]
  constructor
  · intro isText
    rw [atText?_alone alone member isText] at read
    cases isCollection : ruleSet.collection? key.asName with
    | none =>
        rw [isCollection] at read
        cases read
    | some rules =>
        rw [isCollection] at read
        cases read with
        | some readRules =>
            obtain ⟨raw, isMapping, written⟩ := readRules.actions
            have written := written action
            rw [get?_collectionParts isMapping, ruled, Option.map_eq_some_iff] at written
            obtain ⟨own, isRule, rfl⟩ := written
            have defined : own.isDefined = true := by simpa [saysNothing_written] using said
            simp [RuleSet.resolve, group, isCollection, nonEmpty?, isRule, Rule.orBroader, defined]
  · intro noText
    rw [atText?_noText alone noText] at read
    cases isCollection : ruleSet.collection? key.asName with
    | none =>
        rw [isCollection] at group
        rw [RuleSet.resolve, group]
        rfl
    | some rules =>
        rw [isCollection] at read
        cases read

end

/-- Nobody may read notes, nor what the number seven stands for. -/
def numberedRules : String :=
  "notes: \x7b.read: false\x7d\n7: \x7b.read: false\x7d\n"

/-- The document of that file. The nodes that are no mappings leave their numbers unused. -/
def numberedDocument : Document where
  root := .shared 0
  contents := #[.mapping [(.str "notes", .shared 2), (.int 7, .shared 6)], .list [],
    .mapping [(.str ".read", .plain (.bool false))], .list [], .list [], .list [],
    .mapping [(.str ".read", .plain (.bool false))], .list [], .list []]

def isNumberedDocument : Except Yaml.Flaw Document → Bool
  | .ok ⟨.shared 0, ⟨[.mapping [(.str "notes", .shared 2), (.int 7, .shared 6)], .list [],
      .mapping [(.str ".read", .plain (.bool false))], .list [], .list [], .list [],
      .mapping [(.str ".read", .plain (.bool false))], .list [], .list []]⟩⟩ => true
  | _ => false

theorem parse_numberedRules : Document.parse numberedRules = .ok numberedDocument := by
  have isThat : isNumberedDocument (Document.parse numberedRules) = true := by decide +kernel
  generalize Document.parse numberedRules = parsed at isThat
  rw [isNumberedDocument.eq_def] at isThat
  split at isThat
  · rfl
  · cases isThat

/-- What is read of that file, above the built-in default group. -/
def numberedRuleSet : RuleSet where
  default.actions :=
    { create := some (.roles [.user]), update := some (.roles [.owner]), delete := some (.roles [.owner]) }
  collections :=
    [(.str "notes", { actions.read := some (.flag false) }), (.int 7, { actions.read := some (.flag false) })]

theorem ofFile_numberedRules : RuleSet.ofFile "rules.yaml" numberedRules = .ok numberedRuleSet := by
  simp only [RuleSet.ofFile, parse_numberedRules]
  rfl

theorem alone_in_numberedDocument {key : Datum} {item : Item}
    (h : (key, item) ∈ [(Datum.str "notes", Item.shared 2), (.int 7, .shared 6)]) :
    ∀ other ∈ [(Datum.str "notes", Item.shared 2), (.int 7, .shared 6)],
      other.1.asName = key.asName → other = (key, item) := by
  have apart : (Datum.int 7).asName ≠ (Datum.str "notes").asName := by decide
  simp only [List.mem_cons, List.not_mem_nil, or_false, Prod.mk.injEq] at h
  rcases h with ⟨rfl, rfl⟩ | ⟨rfl, rfl⟩
  · simp [apart]
  · simp [apart.symm]

/-- Nobody may read notes by that file, and the entry of the number is without effect. -/
theorem resolve_entries_of_numbered_file :
    (numberedRuleSet.resolve .read (some "notes") none).rule.written = .bool false ∧
      numberedRuleSet.resolve .read (some "7") none = numberedRuleSet.resolve .read none none := by
  have inside := List.mem_cons_self (a := (Datum.str "notes", Item.shared 2)) (l := [(.int 7, .shared 6)])
  have inside' := List.mem_cons_of_mem (Datum.str "notes", Item.shared 2)
    (List.mem_singleton_self (Datum.int 7, Item.shared 6))
  have rule : entryRule? numberedDocument (.shared 2) .read = some (.bool false) := rfl
  have rule' : entryRule? numberedDocument (.shared 6) .read = some (.bool false) := rfl
  have notes := resolve_entry_of_file parse_numberedRules rfl ofFile_numberedRules inside
    (alone_in_numberedDocument inside) (by decide) (by decide) rule rfl
  have number := resolve_entry_of_file parse_numberedRules rfl ofFile_numberedRules inside'
    (alone_in_numberedDocument inside') (by decide) (by decide) rule' rfl
  exact ⟨notes.1 rfl, number.2 nofun⟩

/-- The entry of the number forbids reading, and yet what has its name may be read. -/
theorem numbered_entry_ignored :
    ∃ document ruleSet item, Document.parse numberedRules = .ok document ∧
      RuleSet.ofFile "rules.yaml" numberedRules = .ok ruleSet ∧
      document.entries? document.root = some [(.str "notes", .shared 2), (.int 7, item)] ∧
      (Datum.int 7).asName = "7" ∧ entryRule? document item .read = some (.bool false) ∧
      (ruleSet.resolve .read (some "7") none).rule = .flag true :=
  ⟨numberedDocument, numberedRuleSet, .shared 6, parse_numberedRules, ofFile_numberedRules,
    rfl, rfl, rfl, rfl⟩

end Access

end GuardedStore
