import GuardedStore.Proofs.Access.FileReading
import GuardedStore.Proofs.Access.WellFormed

/-! # How loading a file of rules ends

A file that cannot be taken for rules is turned down with a message that says what is wrong. All flaws have
one but for a list with something in it that cannot be looked up among the role tags: a list or a mapping, or
a tuple that holds one of these or a set. Where such a list stands for a rule, loading stops without a word.
-/

namespace GuardedStore.Access

open Yaml (Document Item)

/-- A list with something in it that cannot be looked up among the role tags. -/
def Unlistable (rule : Datum) : Prop :=
  ∃ tags, rule = .list tags ∧ ∃ tag ∈ tags, canBeTag tag = false

theorem InvalidRules.message?_eq_none {reason : InvalidRules} (silent : reason.message? = none) :
    reason = .unlistableRole := by
  cases reason with
  | unlistableRole => rfl
  | _ => cases silent

/-- The place of what stands at a place under a key that is no action. -/
def Place.inner? : Place → String → Option Place
  | .collection, key => some (if key = wildcard then .fieldGroup else .record)
  | .fieldGroup, _ => some .field
  | .record, _ => some .recordField
  | .field, _ | .recordField, _ => none

/-- A rule stands under an action in some entries at a place, or further inside. -/
inductive RuleIn : Place → RawEntries → Datum → Prop
  | here {place : Place} {entries : RawEntries} {key : String} {rule : Datum} (ruled : place ≠ .fieldGroup)
      (isAction : isActionKey key = true) (member : (key, rule) ∈ entries) : RuleIn place entries rule
  | inside {place inner : Place} {entries : RawEntries} {key : String} {d rule : Datum}
      {raw : List (Datum × Datum)} (leads : place.inner? key = some inner)
      (noAction : isActionKey key = false) (member : (key, d) ∈ entries) (isMapping : d.entries? = some raw)
      (within : RuleIn inner (namedEntries raw) rule) : RuleIn place entries rule

/-- One of the rules in some entries at a place cannot be looked up. -/
def UnlistableIn (place : Place) (entries : RawEntries) : Prop :=
  ∃ rule, RuleIn place entries rule ∧ Unlistable rule

section

variable {place : String} {outer inner : Place} {entries : RawEntries} {entry : String × Datum}

theorem UnlistableIn.later : UnlistableIn outer entries → UnlistableIn outer (entry :: entries)
  | ⟨rule, .here ruled isAction member, unlistable⟩ =>
      ⟨rule, .here ruled isAction (List.mem_cons_of_mem _ member), unlistable⟩
  | ⟨rule, .inside leads noAction member isMapping within, unlistable⟩ =>
      ⟨rule, .inside leads noAction (List.mem_cons_of_mem _ member) isMapping within, unlistable⟩

theorem UnlistableIn.inside {key : String} {d : Datum} {raw : List (Datum × Datum)}
    (leads : outer.inner? key = some inner) (noAction : ¬isActionKey key = true)
    (isMapping : d.entries? = some raw) :
    UnlistableIn inner (namedEntries raw) → UnlistableIn outer ((key, d) :: entries)
  | ⟨rule, within, unlistable⟩ =>
      ⟨rule, .inside leads (by simpa using noAction) List.mem_cons_self isMapping within, unlistable⟩

theorem unlistable_of_readRule {rule : Datum} (stopped : readRule rule place = .error .unlistableRole) :
    Unlistable rule := by
  cases rule with
  | list tags =>
      rw [readRule] at stopped
      split at stopped
      · rename_i odd
        obtain ⟨tag, member, noKey⟩ := List.any_eq_true.mp odd
        exact ⟨tags, rfl, tag, member, by simpa using noKey⟩
      · split at stopped
        · cases stopped
        · cases stopped
  | _ => cases stopped

theorem unlistableIn_of_addActionRules (ruled : outer ≠ .fieldGroup) {rules : ActionRules}
    (stopped : addActionRules place rules entries = .error .unlistableRole) : UnlistableIn outer entries := by
  induction entries generalizing rules with
  | nil => cases stopped
  | cons entry rest ih =>
      obtain ⟨key, value⟩ := entry
      rw [addActionRules] at stopped
      split at stopped
      · rename_i isAction
        split at stopped
        · cases stopped
        · rcases except_bind_error_iff.mp stopped with first | ⟨_, -, later⟩
          · exact ⟨value, .here ruled isAction List.mem_cons_self, unlistable_of_readRule first⟩
          · exact (ih later).later
      · exact (ih stopped).later

theorem unlistableIn_of_addFieldRules (leads : ∀ name, outer.inner? name = some inner)
    (ruled : inner ≠ .fieldGroup) {fields : FieldRules}
    (stopped : addFieldRules place fields entries = .error .unlistableRole) : UnlistableIn outer entries := by
  induction entries generalizing fields with
  | nil => cases stopped
  | cons entry rest ih =>
      obtain ⟨name, value⟩ := entry
      rw [addFieldRules] at stopped
      split at stopped
      · exact (ih stopped).later
      · rename_i noAction
        split at stopped
        · cases stopped
        · rename_i raw isMapping
          rcases except_bind_error_iff.mp stopped with first | ⟨_, -, later⟩
          · exact .inside (leads name) noAction isMapping (unlistableIn_of_addActionRules ruled first)
          · exact (ih later).later

theorem unlistableIn_of_readRecordRules
    (stopped : readRecordRules entries place = .error .unlistableRole) : UnlistableIn .record entries := by
  rcases except_bind_error_iff.mp stopped with actions | ⟨_, -, stopped⟩
  · exact unlistableIn_of_addActionRules (by decide) actions
  · rcases except_bind_error_iff.mp stopped with fields | ⟨_, -, ends⟩
    · exact unlistableIn_of_addFieldRules (fun _ => rfl) (by decide) fields
    · cases ends

theorem unlistableIn_of_addGroups {rules : CollectionRules}
    (stopped : addGroups place rules entries = .error .unlistableRole) :
    UnlistableIn .collection entries := by
  induction entries generalizing rules with
  | nil => cases stopped
  | cons entry rest ih =>
      obtain ⟨key, value⟩ := entry
      rw [addGroups] at stopped
      split at stopped
      · exact (ih stopped).later
      · rename_i noAction
        split at stopped
        · cases stopped
        · rename_i raw isMapping
          split at stopped
          · rename_i isWildcard
            have leads : Place.collection.inner? key = some .fieldGroup := by simp [Place.inner?, isWildcard]
            rcases except_bind_error_iff.mp stopped with first | ⟨_, -, later⟩
            · exact .inside leads noAction isMapping
                (unlistableIn_of_addFieldRules (fun _ => rfl) (by decide) first)
            · exact (ih later).later
          · rename_i other
            have leads : Place.collection.inner? key = some .record := by simp [Place.inner?, other]
            rcases except_bind_error_iff.mp stopped with first | ⟨_, -, later⟩
            · exact .inside leads noAction isMapping (unlistableIn_of_readRecordRules first)
            · exact (ih later).later

theorem unlistableIn_of_readCollectionRules
    (stopped : readCollectionRules entries place = .error .unlistableRole) :
    UnlistableIn .collection entries := by
  rcases except_bind_error_iff.mp stopped with actions | ⟨_, -, groups⟩
  · exact unlistableIn_of_addActionRules (by decide) actions
  · exact unlistableIn_of_addGroups groups

end

section

variable {raw : List (Datum × Datum)}

theorem unlistableIn_of_addCollections {ruleSet : RuleSet}
    (stopped : addCollections ruleSet raw = .error .unlistableRole) :
    ∃ entry ∈ raw, ∃ inner, entry.2.entries? = some inner ∧
      UnlistableIn .collection (namedEntries inner) := by
  induction raw generalizing ruleSet with
  | nil => cases stopped
  | cons entry rest ih =>
      obtain ⟨key, value⟩ := entry
      have behind {ruleSet : RuleSet} (later : addCollections ruleSet rest = .error .unlistableRole) :
          ∃ entry ∈ (key, value) :: rest, ∃ inner, entry.2.entries? = some inner ∧
            UnlistableIn .collection (namedEntries inner) := by
        obtain ⟨entry, member, found⟩ := ih later
        exact ⟨entry, List.mem_cons_of_mem _ member, found⟩
      rw [addCollections] at stopped
      split at stopped
      · cases stopped
      · rename_i inner isMapping
        rcases except_bind_error_iff.mp stopped with first | ⟨_, -, later⟩
        · exact ⟨_, List.mem_cons_self, inner, isMapping, unlistableIn_of_readCollectionRules first⟩
        · split at later
          · exact behind later
          · exact behind later

theorem value_mem_setEntry {α : Type} {entries : List (Datum × α)} {key : Datum} {value : α}
    {entry : Datum × α} (member : entry ∈ Datum.setEntry entries key value) :
    entry.2 = value ∨ ∃ old ∈ entries, old.2 = entry.2 := by
  induction entries with
  | nil => exact .inl (congrArg Prod.snd (List.mem_singleton.mp member))
  | cons first rest ih =>
      obtain ⟨old, before⟩ := first
      rw [Datum.setEntry] at member
      split at member
      · rcases List.mem_cons.mp member with rfl | later
        · exact .inl rfl
        · exact .inr ⟨entry, List.mem_cons_of_mem _ later, rfl⟩
      · rcases List.mem_cons.mp member with rfl | later
        · exact .inr ⟨_, List.mem_cons_self, rfl⟩
        · rcases ih later with set | ⟨other, among, same⟩
          · exact .inl set
          · exact .inr ⟨other, List.mem_cons_of_mem _ among, same⟩

theorem value_mem_ofPairs {α : Type} {pairs : List (Datum × α)} {entry : Datum × α}
    (member : entry ∈ Datum.ofPairs pairs) : ∃ pair ∈ pairs, pair.2 = entry.2 := by
  have folds (start : List (Datum × α))
      (inside : entry ∈ pairs.foldl (fun entries pair => Datum.setEntry entries pair.1 pair.2) start) :
      (∃ pair ∈ pairs, pair.2 = entry.2) ∨ ∃ old ∈ start, old.2 = entry.2 := by
    clear member
    induction pairs generalizing start with
    | nil => exact .inr ⟨entry, inside, rfl⟩
    | cons pair rest ih =>
        rcases ih _ inside with ⟨later, among, same⟩ | ⟨old, among, same⟩
        · exact .inl ⟨later, List.mem_cons_of_mem _ among, same⟩
        · rcases value_mem_setEntry among with set | ⟨older, among, same'⟩
          · exact .inl ⟨pair, List.mem_cons_self, set.symm.trans same⟩
          · exact .inr ⟨older, among, same'.trans same⟩
  rcases folds [] member with given | ⟨old, among, -⟩
  · exact given
  · cases among

theorem not_unlistableIn_builtIn {entry : Datum × Datum} (member : entry ∈ builtInRules)
    (isMapping : entry.2.entries? = some raw) : ¬UnlistableIn .collection (namedEntries raw) := by
  cases List.mem_singleton.mp member
  cases isMapping
  rintro ⟨rule, within, tags, rfl, tag, among, noKey⟩
  cases within with
  | here _ _ member =>
      simp only [namedEntries, List.map_cons, List.map_nil, List.mem_cons, Prod.mk.injEq, Datum.list.injEq,
        List.not_mem_nil, or_false] at member
      rcases member with ⟨-, rfl⟩ | ⟨-, rfl⟩ | ⟨-, rfl⟩
      all_goals
        cases List.mem_singleton.mp among
        cases noKey
  | inside _ noAction member =>
      simp only [namedEntries, List.map_cons, List.map_nil, List.mem_cons, Prod.mk.injEq, List.not_mem_nil,
        or_false] at member
      rcases member with ⟨rfl, -⟩ | ⟨rfl, -⟩ | ⟨rfl, -⟩
      all_goals
        cases noAction

theorem unlistableIn_of_ofEntries (stopped : RuleSet.ofEntries raw = .error .unlistableRole) :
    ∃ entry ∈ raw, ∃ inner, entry.2.entries? = some inner ∧
      UnlistableIn .collection (namedEntries inner) := by
  obtain ⟨entry, member, inner, isMapping, unlistable⟩ := unlistableIn_of_addCollections stopped
  obtain ⟨pair, given, same⟩ := value_mem_ofPairs member
  rw [← same] at isMapping
  rcases List.mem_append.mp given with builtIn | own
  · exact absurd unlistable (not_unlistableIn_builtIn builtIn isMapping)
  · exact ⟨pair, own, inner, isMapping, unlistable⟩

end

/-- An item of a document stands for a rule: under an action in a mapping at a place, or further inside. -/
inductive RuleAt (document : Document) : Place → Item → Item → Prop
  | here {place : Place} {outer rule : Item} {key : Datum} {entries : List (Datum × Item)}
      (ruled : place ≠ .fieldGroup) (isAction : isActionKey key.asName = true)
      (isMapping : document.entries? outer = some entries) (member : (key, rule) ∈ entries) :
      RuleAt document place outer rule
  | inside {place inner : Place} {outer item rule : Item} {key : Datum} {entries : List (Datum × Item)}
      (leads : place.inner? key.asName = some inner) (noAction : isActionKey key.asName = false)
      (isMapping : document.entries? outer = some entries) (member : (key, item) ∈ entries)
      (within : RuleAt document inner item rule) : RuleAt document place outer rule

/-- What is read of an item at a place. -/
def partsAt (document : Document) : Place → Item → Datum
  | .collection => collectionParts document
  | .fieldGroup => fieldGroupParts document
  | .field | .recordField => fieldParts document
  | .record => recordParts document

/-- What is read under a name in a mapping at a place. -/
def partUnder (document : Document) (place : Place) (name : String) (item : Item) : Datum :=
  if isActionKey name then if place = .fieldGroup then .null else ruleDatum document item
  else match place.inner? name with
    | some inner => partsAt document inner item
    | none => .null

section

variable {document : Document} {place : Place} {item : Item} {raw : List (Datum × Datum)}

theorem partsAt_eq (document : Document) (place : Place) (item : Item) :
    partsAt document place item = partsOf document (partUnder document place) item := by
  cases place with
  | collection =>
      rw [partsAt, collectionParts]
      congr 1
      funext name inside
      by_cases isWildcard : name = wildcard <;> simp [partUnder, Place.inner?, isWildcard, partsAt]
  | fieldGroup | field | record | recordField => rfl

theorem entries_of_partsAt (isMapping : (partsAt document place item).entries? = some raw) :
    ∃ entries, document.entries? item = some entries ∧
      namedEntries raw = entries.map fun entry =>
        (entry.1.asName, partUnder document place entry.1.asName entry.2) := by
  rw [partsAt_eq, partsOf] at isMapping
  cases inside : document.entries? item with
  | none =>
      rw [inside] at isMapping
      cases isMapping
  | some entries =>
      rw [inside] at isMapping
      cases isMapping
      exact ⟨entries, rfl, by simp [namedEntries]⟩

theorem ruleAt_of_ruleIn {entries : RawEntries} {rule : Datum} (within : RuleIn place entries rule)
    (named : entries = namedEntries raw) (isMapping : (partsAt document place item).entries? = some raw) :
    ∃ standing, RuleAt document place item standing ∧ rule = ruleDatum document standing := by
  induction within generalizing item raw with
  | here ruled isAction member =>
      obtain ⟨entries, holds, read⟩ := entries_of_partsAt isMapping
      rw [named, read] at member
      obtain ⟨⟨key, standing⟩, among, same⟩ := List.mem_map.mp member
      cases same
      exact ⟨standing, .here ruled isAction holds among, by simp [partUnder, isAction, ruled]⟩
  | inside leads noAction member inner within ih =>
      obtain ⟨entries, holds, read⟩ := entries_of_partsAt isMapping
      rw [named, read] at member
      obtain ⟨⟨key, held⟩, among, same⟩ := List.mem_map.mp member
      cases same
      simp only [partUnder, noAction, leads, Bool.false_eq_true, if_false] at inner
      obtain ⟨standing, stands, isRule⟩ := ih rfl inner
      exact ⟨standing, .inside leads noAction holds among stands, isRule⟩

end

/-- A text is turned into a document, or turned down as none. -/
def IsDecoded (text : String) : Prop :=
  (∃ document, Document.parse text = .ok document) ∨ Document.parse text = .error .malformed

/-- How loading rules from a text ends: there are rules, or a message, or it stops at a rule that cannot be
looked up. -/
inductive LoadEnds (text : String) : Except InvalidRulesFile RuleSet → Prop
  | loaded {rules : RuleSet} : LoadEnds text (.ok rules)
  | rejected {flaw : InvalidRulesFile} {message : String} (said : flaw.message? = some message) :
      LoadEnds text (.error flaw)
  | stopped {document : Document} {entries : List (Datum × Item)} {collection : Datum × Item} {rule : Item}
      (parsed : Document.parse text = .ok document) (root : document.entries? document.root = some entries)
      (member : collection ∈ entries) (stands : RuleAt document .collection collection.2 rule)
      (unlistable : Unlistable (ruleDatum document rule)) :
      LoadEnds text (.error (.invalid .unlistableRole))

theorem ofFile_of_error {file text : String} {flaw : Yaml.Flaw} (fails : Document.parse text = .error flaw) :
    RuleSet.ofFile file text = .error (.unreadable file flaw) := by
  simp only [RuleSet.ofFile, fails]

/-- Only at such a rule loading a document stops without a message. -/
theorem stops_of_ofDocument? {document : Document} {read : Except InvalidRules RuleSet}
    (isRead : RuleSet.ofDocument? document = some read) (stopped : read = .error .unlistableRole) :
    ∃ entries collection rule, document.entries? document.root = some entries ∧ collection ∈ entries ∧
      RuleAt document .collection collection.2 rule ∧ Unlistable (ruleDatum document rule) := by
  subst stopped
  rw [RuleSet.ofDocument?] at isRead
  split at isRead
  · have builtIn := Option.some.inj isRead
    obtain ⟨entry, member, -⟩ := unlistableIn_of_ofEntries builtIn
    cases member
  · rename_i entries root _
    obtain ⟨entry, member, raw, isMapping, rule, within, unlistable⟩ :=
      unlistableIn_of_ofEntries (Option.some.inj isRead)
    obtain ⟨collection, among, rfl⟩ := List.mem_map.mp member
    obtain ⟨standing, stands, rfl⟩ := ruleAt_of_ruleIn within rfl isMapping
    exact ⟨entries, collection, standing, root, among, stands, unlistable⟩
  · cases isRead

/-- Loading rules from a text that a document can be read of, or that is turned down as none, ends with rules
or with a message, unless a list that stands for a rule holds something that cannot be looked up. -/
theorem ofFile_ends {text : String} (decoded : IsDecoded text) (file : String) :
    LoadEnds text (RuleSet.ofFile file text) := by
  rcases decoded with ⟨document, parsed⟩ | malformed
  · cases read : RuleSet.ofDocument? document with
    | none =>
        have ends : RuleSet.ofFile file text = .error (.notMapping file) := by
          simp only [RuleSet.ofFile, parsed, read]
        rw [ends]
        exact .rejected rfl
    | some result =>
        have ends : RuleSet.ofFile file text = result.mapError .invalid := by
          simp only [RuleSet.ofFile, parsed, read]
        rw [ends]
        cases result with
        | ok rules => exact .loaded
        | error reason =>
            cases said : reason.message? with
            | some message => exact .rejected said
            | none =>
                cases InvalidRules.message?_eq_none said
                obtain ⟨entries, collection, rule, root, member, stands, unlistable⟩ :=
                  stops_of_ofDocument? read rfl
                exact .stopped parsed root member stands unlistable
  · rw [ofFile_of_error malformed]
    exact .rejected rfl

/-- Rules for notes in which a list stands among the role tags. -/
def nestedTags : String :=
  "notes:\n  .read: [[User]]\n"

def isDecoded (text : String) : Bool :=
  match Document.parse text with
  | .ok _ | .error .malformed => true
  | .error _ => false

theorem isDecoded_of_true {text : String} (h : isDecoded text = true) : IsDecoded text := by
  rw [isDecoded] at h
  split at h
  · exact .inl ⟨_, ‹_›⟩
  · exact .inr ‹_›
  · cases h

theorem ofFile_nestedTags_ends :
    IsDecoded nestedTags ∧ LoadEnds nestedTags (RuleSet.ofFile "rules.yaml" nestedTags) := by
  have decoded : IsDecoded nestedTags := isDecoded_of_true (by decide +kernel)
  exact ⟨decoded, ofFile_ends decoded "rules.yaml"⟩

/-- A set among role tags is none of them, and shown as it is. -/
example : readRule (.list [.str "User", .set [.str "Owner"]]) "notes..read" =
    .error (.unknownRoles [.set [.str "Owner"]] "notes..read") := by
  rfl

/-- Whether loading ends with rules or with a message. -/
def loadsOrSays : Except InvalidRulesFile RuleSet → Bool
  | .ok _ => true
  | .error flaw => flaw.message?.isSome

/-- A list among role tags is neither loaded nor turned down with a message. -/
theorem nestedTags_neither_loaded_nor_rejected :
    IsDecoded nestedTags ∧ ¬((∃ rules, RuleSet.ofFile "rules.yaml" nestedTags = .ok rules) ∨
      ∃ flaw message, RuleSet.ofFile "rules.yaml" nestedTags = .error flaw ∧
        flaw.message? = some message) := by
  have silent : loadsOrSays (RuleSet.ofFile "rules.yaml" nestedTags) = false := by decide +kernel
  refine ⟨isDecoded_of_true (by decide +kernel), ?_⟩
  rintro (⟨rules, loaded⟩ | ⟨flaw, message, rejected, said⟩)
  · rw [loaded] at silent
    cases silent
  · rw [rejected, loadsOrSays, said] at silent
    cases silent

end GuardedStore.Access
