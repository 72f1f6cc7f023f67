import GuardedStore.Proofs.Access.RawReading
import GuardedStore.Proofs.Value.Likeness

/-! # Which raw rules are accepted

A raw mapping is read as a rule set exactly if its parts are well-formed: collections, groups of fields,
fields and records are mappings, and what stands under a key with a leading dot is a rule for one of the
four actions. The one place where such keys are passed over without a look is the group `*` of a
collection itself; those of the fields in it are looked at.
-/

namespace GuardedStore.Access

open Datum (textKeyed TextKeyed)

def actionKeys : List String := [".create", ".read", ".update", ".delete"]

def roleTags : List String := ["Guest", "User", "Owner"]

/-- Whether a piece of data can be a rule: null, a truth value, a text or a list of role tags. -/
def IsRule : Datum → Prop
  | .null | .bool _ | .str _ => True
  | .list tags => ∀ tag ∈ tags, ∃ name ∈ roleTags, tag = .str name
  | _ => False

/-- What stands under keys with a leading dot are rules for actions. -/
def RulesIn (entries : RawEntries) : Prop :=
  ∀ entry ∈ entries, isActionKey entry.1 = true → entry.1 ∈ actionKeys ∧ IsRule entry.2

/-- What stands under other keys are mappings of a kind. -/
def MappingsIn (inner : String → RawEntries → Prop) (entries : RawEntries) : Prop :=
  ∀ entry ∈ entries, isActionKey entry.1 = false →
    ∃ raw, entry.2.entries? = some raw ∧ inner entry.1 (namedEntries raw)

/-- Rules for fields, each for its actions. -/
def FieldsIn : RawEntries → Prop :=
  MappingsIn fun _ => RulesIn

def GroupsIn : RawEntries → Prop :=
  MappingsIn fun key entries => (key ≠ wildcard → RulesIn entries) ∧ FieldsIn entries

/-- The entry of a collection. -/
def CollectionIn (d : Datum) : Prop :=
  ∃ raw, d.entries? = some raw ∧ RulesIn (namedEntries raw) ∧ GroupsIn (namedEntries raw)

/-- Whether something is read without a complaint. -/
def Accepted {ε α : Type} (read : Except ε α) : Prop :=
  ∃ a, read = .ok a

@[simp] theorem accepted_ok {ε α : Type} (a : α) : Accepted (.ok a : Except ε α) :=
  ⟨a, rfl⟩

@[simp] theorem not_accepted_error {ε α : Type} (e : ε) : ¬ Accepted (.error e : Except ε α) := nofun

/-- What is read in two steps, of which the second is accepted whatever the first one gives. -/
theorem accepted_bind_iff {ε α β : Type} {first : Except ε α} {second : α → Except ε β} {rest : Prop}
    (h : ∀ a, Accepted (second a) ↔ rest) : Accepted (first >>= second) ↔ Accepted first ∧ rest := by
  cases first with
  | ok a =>
      rw [and_iff_right (accepted_ok a)]
      exact h a
  | error e =>
      constructor
      · intro accepted
        exact absurd accepted (not_accepted_error e)
      · intro accepted
        exact absurd accepted.1 (not_accepted_error e)

section

variable {place : String} {d : Datum}

theorem roleOf?_isSome_iff {tag : Datum} :
    (roleOf? tag).isSome = true ↔ ∃ name ∈ roleTags, tag = .str name := by
  cases tag with
  | str tag =>
      simp only [roleOf?, Role.ofTag?, List.find?_isSome, decide_eq_true_eq]
      simp [Role.all, Role.tag, roleTags, eq_comm (a := tag)]
  | _ => simp [roleOf?]

theorem Action.ofKey?_isSome_iff {key : String} :
    (Action.ofKey? key).isSome = true ↔ key ∈ actionKeys := by
  simp only [Action.ofKey?, List.find?_isSome, decide_eq_true_eq]
  simp [Action.all, Action.key, Action.word, actionKeys, eq_comm (a := key)]

theorem readRule_accepted_iff : Accepted (readRule d place) ↔ IsRule d := by
  cases d with
  | list tags =>
      simp only [readRule, IsRule]
      have known : (∀ tag ∈ tags, ∃ name ∈ roleTags, tag = .str name) ↔
          tags.filter (fun tag => (roleOf? tag).isNone) = [] := by
        simp only [← roleOf?_isSome_iff, List.filter_eq_nil_iff, Option.isNone_iff_eq_none,
          Option.isSome_iff_ne_none, ne_eq]
      rw [known]
      split
      · rename_i unlistable
        obtain ⟨tag, member, noKey⟩ := List.any_eq_true.mp unlistable
        have noRole : (roleOf? tag).isNone = true := by
          cases tag <;> first | rfl | simp [canBeTag, Datum.isKey] at noKey
        have unknown : tag ∈ tags.filter fun tag => (roleOf? tag).isNone :=
          List.mem_filter.mpr ⟨member, noRole⟩
        simp [List.ne_nil_of_mem unknown]
      · split
        · rename_i none
          simp [none]
        · rename_i unknown
          exact iff_of_false (not_accepted_error _) unknown
  | _ => simp [readRule, IsRule]

variable {entries : RawEntries}

theorem rulesIn_cons {entry : String × Datum} :
    RulesIn (entry :: entries) ↔
      (isActionKey entry.1 = true → entry.1 ∈ actionKeys ∧ IsRule entry.2) ∧ RulesIn entries :=
  List.forall_mem_cons

theorem mappingsIn_cons {inner : String → RawEntries → Prop} {entry : String × Datum} :
    MappingsIn inner (entry :: entries) ↔
      (isActionKey entry.1 = false → ∃ raw, entry.2.entries? = some raw ∧ inner entry.1 (namedEntries raw)) ∧
        MappingsIn inner entries :=
  List.forall_mem_cons

theorem addActionRules_accepted_iff {rules : ActionRules} :
    Accepted (addActionRules place rules entries) ↔ RulesIn entries := by
  induction entries generalizing rules with
  | nil => simp [addActionRules, RulesIn]
  | cons entry rest ih =>
      obtain ⟨key, value⟩ := entry
      rw [addActionRules, rulesIn_cons]
      by_cases isAction : isActionKey key = true
      · rw [if_pos isAction]
        simp only [isAction, forall_const]
        cases action : Action.ofKey? key with
        | none =>
            have unknown : key ∉ actionKeys := by simp [← Action.ofKey?_isSome_iff, action]
            simp [unknown]
        | some action' =>
            have known : key ∈ actionKeys := by simp [← Action.ofKey?_isSome_iff, action]
            rw [accepted_bind_iff fun _ => ih, readRule_accepted_iff]
            simp [known]
      · rw [if_neg isAction, ih]
        simp [isAction]

theorem addFieldRules_accepted_iff {fields : FieldRules} :
    Accepted (addFieldRules place fields entries) ↔ FieldsIn entries := by
  induction entries generalizing fields with
  | nil => simp [addFieldRules, FieldsIn, MappingsIn]
  | cons entry rest ih =>
      obtain ⟨name, value⟩ := entry
      rw [addFieldRules, FieldsIn, mappingsIn_cons, ← FieldsIn]
      by_cases isAction : isActionKey name = true
      · rw [if_pos isAction, ih]
        simp [isAction]
      · rw [if_neg isAction]
        cases isMapping : value.entries? with
        | none => simp [isAction]
        | some raw =>
            rw [accepted_bind_iff fun _ => ih, readActionRules, addActionRules_accepted_iff]
            simp [isAction]

theorem readRecordRules_accepted_iff :
    Accepted (readRecordRules entries place) ↔ RulesIn entries ∧ FieldsIn entries := by
  have whole (actions : ActionRules) (fields : FieldRules) :
      Accepted (pure { actions, fields } : Except InvalidRules RecordRules) ↔ True :=
    iff_true_intro (accepted_ok _)
  have fields (actions : ActionRules) : Accepted (readFieldRules entries place >>= fun fields =>
      (pure { actions, fields } : Except InvalidRules RecordRules)) ↔ FieldsIn entries := by
    rw [accepted_bind_iff (whole actions), readFieldRules, addFieldRules_accepted_iff, and_true]
  rw [readRecordRules, accepted_bind_iff fields, readActionRules, addActionRules_accepted_iff]

theorem addGroups_accepted_iff {rules : CollectionRules} :
    Accepted (addGroups place rules entries) ↔ GroupsIn entries := by
  induction entries generalizing rules with
  | nil => simp [addGroups, GroupsIn, MappingsIn]
  | cons entry rest ih =>
      obtain ⟨key, value⟩ := entry
      rw [addGroups, GroupsIn, mappingsIn_cons, ← GroupsIn]
      by_cases isAction : isActionKey key = true
      · rw [if_pos isAction, ih]
        simp [isAction]
      · rw [if_neg isAction]
        cases isMapping : value.entries? with
        | none => simp [isAction]
        | some raw =>
            by_cases isWildcard : key = wildcard
            · simp only [isWildcard, if_true]
              rw [accepted_bind_iff fun _ => ih, readFieldRules, addFieldRules_accepted_iff]
              simp [← isWildcard, isAction]
            · simp only [isWildcard, if_false]
              rw [accepted_bind_iff fun _ => ih, readRecordRules_accepted_iff]
              simp [isAction, isWildcard]

theorem readCollectionRules_accepted_iff :
    Accepted (readCollectionRules entries place) ↔ RulesIn entries ∧ GroupsIn entries := by
  rw [readCollectionRules, accepted_bind_iff fun _ => addGroups_accepted_iff, readActionRules,
    addActionRules_accepted_iff]

theorem addCollections_accepted_iff {ruleSet : RuleSet} {raw : List (Datum × Datum)} :
    Accepted (addCollections ruleSet raw) ↔ ∀ entry ∈ raw, CollectionIn entry.2 := by
  induction raw generalizing ruleSet with
  | nil => simp [addCollections]
  | cons entry rest ih =>
      obtain ⟨key, value⟩ := entry
      rw [addCollections, List.forall_mem_cons, CollectionIn]
      cases isMapping : value.entries? with
      | none => simp
      | some inner =>
          simp only [Option.some.injEq, exists_eq_left']
          have later (rules : CollectionRules) : Accepted
              (if key.sameKey (.str wildcard) then addCollections { ruleSet with default := rules } rest
              else
                let collections := ruleSet.collections ++ [(key, rules)]
                addCollections { ruleSet with collections } rest) ↔
              ∀ entry ∈ rest, CollectionIn entry.2 := by
            split
            · exact ih
            · exact ih
          rw [accepted_bind_iff later, readCollectionRules_accepted_iff]

end

theorem collectionIn_writtenDefault : CollectionIn writtenDefault := by
  have rules : RulesIn [(".create", .list [.str "User"]), (".update", .list [.str "Owner"]),
      (".delete", .list [.str "Owner"])] := by
    simp [RulesIn, IsRule, actionKeys, roleTags]
  have groups : GroupsIn [(".create", .list [.str "User"]), (".update", .list [.str "Owner"]),
      (".delete", .list [.str "Owner"])] := by
    simp [GroupsIn, MappingsIn, isActionKey]
  exact ⟨_, rfl, by simpa using rules, by simpa using groups⟩

/-- A raw mapping with texts for keys, none of them twice, is accepted if each of its entries is. -/
theorem ofEntries_accepted_iff {entries : Entries Datum} (unique : (Entries.names entries).Nodup) :
    Accepted (RuleSet.ofEntries (textKeyed entries)) ↔ ∀ entry ∈ entries, CollectionIn entry.2 := by
  have layered : builtInRules ++ textKeyed entries = textKeyed ((wildcard, writtenDefault) :: entries) :=
    rfl
  rw [RuleSet.ofEntries, layered, Datum.ofPairs_textKeyed, Entries.ofPairs, Entries.overlay_cons,
    addCollections_accepted_iff]
  simp only [textKeyed, List.forall_mem_map]
  constructor
  · intro all entry member
    have found : Entries.get? (Entries.overlay [(wildcard, writtenDefault)] entries) entry.1 =
        some entry.2 := by
      rw [Entries.get?_overlay unique, Entries.get?_of_mem unique member, Option.some_or]
    exact all _ (Entries.mem_of_get? found)
  · intro all entry member
    rcases mem_overlay member with builtIn | own
    · cases List.mem_singleton.mp builtIn
      exact collectionIn_writtenDefault
    · exact all entry own

/-- Where a mapping with rules can stand. -/
inductive Place where
  | collection
  /-- The group `*` in the entry of a collection. -/
  | fieldGroup
  /-- A field in such a group. -/
  | field
  | record
  /-- A field in the entry of a record. -/
  | recordField
  deriving DecidableEq

/-- A piece of data stands at a place of a raw mapping. -/
inductive StandsAt (raw : Datum) : Place → Datum → Prop
  | collection {name : String} {d : Datum} (found : raw.under? name = some d) : StandsAt raw .collection d
  | fieldGroup {entry d : Datum} (outer : StandsAt raw .collection entry)
      (found : entry.under? wildcard = some d) : StandsAt raw .fieldGroup d
  | field {name : String} {group d : Datum} (outer : StandsAt raw .fieldGroup group)
      (noAction : isActionKey name = false) (found : group.under? name = some d) : StandsAt raw .field d
  | record {key : String} {entry d : Datum} (outer : StandsAt raw .collection entry)
      (isRecord : isRecordKey key = true) (found : entry.under? key = some d) : StandsAt raw .record d
  | recordField {name : String} {entry d : Datum} (outer : StandsAt raw .record entry)
      (noAction : isActionKey name = false) (found : entry.under? name = some d) :
      StandsAt raw .recordField d

/-- Keys with a leading dot are actions and have rules. -/
def RulesUnder (d : Datum) : Prop :=
  ∀ key rule, isActionKey key = true → d.under? key = some rule → key ∈ actionKeys ∧ IsRule rule

/-- What stands under other keys are mappings of a kind. -/
def MappingsUnder (inner : String → Datum → Prop) (d : Datum) : Prop :=
  ∀ key d', isActionKey key = false → d.under? key = some d' → d'.entries?.isSome ∧ inner key d'

section

variable {d : Datum} {raw : List (Datum × Datum)}

theorem mem_namedEntries_iff (keyed : TextKeyed d) (isMapping : d.entries? = some raw)
    {entry : String × Datum} : entry ∈ namedEntries raw ↔ d.under? entry.1 = some entry.2 := by
  obtain ⟨entries, rfl, rfl, unique, -⟩ := keyed.entries isMapping
  rw [namedEntries_textKeyed, Datum.under?_textKeyed]
  exact ⟨fun member => Entries.get?_of_mem unique member, Entries.mem_of_get?⟩

theorem under?_of_noMapping (noMapping : d.entries? = none) (key : String) : d.under? key = none := by
  cases d with
  | mapping entries => cases noMapping
  | _ => rfl

theorem textKeyed_under? (keyed : TextKeyed d) {key : String} {d' : Datum}
    (found : d.under? key = some d') : TextKeyed d' := by
  cases isMapping : d.entries? with
  | none => simp [under?_of_noMapping isMapping] at found
  | some raw =>
      obtain ⟨entries, rfl, -, -, inner⟩ := keyed.entries isMapping
      rw [Datum.under?_textKeyed] at found
      exact inner _ (Entries.mem_of_get? found)

theorem rulesIn_iff (keyed : TextKeyed d) (isMapping : d.entries? = some raw) :
    RulesIn (namedEntries raw) ↔ RulesUnder d := by
  simp only [RulesIn, RulesUnder, mem_namedEntries_iff keyed isMapping, Prod.forall]
  constructor
  · intro all key rule isAction found
    exact all key rule found isAction
  · intro all key rule found isAction
    exact all key rule isAction found

theorem mappingsIn_iff (keyed : TextKeyed d) (isMapping : d.entries? = some raw)
    {inner : String → RawEntries → Prop} {inner' : String → Datum → Prop}
    (same : ∀ key d' raw', TextKeyed d' → d'.entries? = some raw' →
      (inner key (namedEntries raw') ↔ inner' key d')) :
    MappingsIn inner (namedEntries raw) ↔ MappingsUnder inner' d := by
  simp only [MappingsIn, MappingsUnder, mem_namedEntries_iff keyed isMapping, Prod.forall]
  constructor
  · intro all key d' noAction found
    obtain ⟨raw', isMapping', said⟩ := all key d' found noAction
    rw [isMapping']
    exact ⟨rfl, (same key d' raw' (textKeyed_under? keyed found) isMapping').mp said⟩
  · intro all key d' found noAction
    obtain ⟨isSome, said⟩ := all key d' noAction found
    obtain ⟨raw', isMapping'⟩ := Option.isSome_iff_exists.mp isSome
    exact ⟨raw', isMapping', (same key d' raw' (textKeyed_under? keyed found) isMapping').mpr said⟩

theorem fieldsIn_iff (keyed : TextKeyed d) (isMapping : d.entries? = some raw) :
    FieldsIn (namedEntries raw) ↔ MappingsUnder (fun _ => RulesUnder) d :=
  mappingsIn_iff keyed isMapping fun _ _ _ => rulesIn_iff

/-- What stands under other keys in the entry of a collection are records and the group `*`, with mappings
for fields in them. -/
def GroupsUnder (d : Datum) : Prop :=
  MappingsUnder (fun key d' => (key ≠ wildcard → RulesUnder d') ∧ MappingsUnder (fun _ => RulesUnder) d') d

theorem collectionIn_iff (keyed : TextKeyed d) :
    CollectionIn d ↔ d.entries?.isSome ∧ RulesUnder d ∧ GroupsUnder d := by
  cases isMapping : d.entries? with
  | none => simp [CollectionIn, isMapping]
  | some raw =>
      have groups : GroupsIn (namedEntries raw) ↔ GroupsUnder d :=
        mappingsIn_iff keyed isMapping fun key d' raw' keyed' isMapping' =>
          and_congr (imp_congr_right fun _ => rulesIn_iff keyed' isMapping') (fieldsIn_iff keyed' isMapping')
      simp [CollectionIn, isMapping, rulesIn_iff keyed isMapping, groups]

theorem rulesUnder_of_standsAt
    (all : ∀ name entry, d.under? name = some entry →
      entry.entries?.isSome ∧ RulesUnder entry ∧ GroupsUnder entry)
    {place : Place} {d' : Datum} (stands : StandsAt d place d') :
    d'.entries?.isSome ∧ (place ≠ .fieldGroup → RulesUnder d') := by
  have groups {entry : Datum} (outer : StandsAt d .collection entry) : GroupsUnder entry := by
    cases outer with
    | collection found => exact (all _ _ found).2.2
  have notWildcard {key : String} (isRecord : isRecordKey key = true) :
      key ≠ wildcard ∧ isActionKey key = false := by
    simpa [isRecordKey] using isRecord
  cases stands with
  | collection found => exact ⟨(all _ _ found).1, fun _ => (all _ _ found).2.1⟩
  | fieldGroup outer found =>
      exact ⟨(groups outer _ _ rfl found).1, fun apart => absurd rfl apart⟩
  | field outer noAction found =>
      cases outer with
      | fieldGroup outer group =>
          obtain ⟨isMapping, rules⟩ := (groups outer _ _ rfl group).2.2 _ _ noAction found
          exact ⟨isMapping, fun _ => rules⟩
  | record outer isRecord found =>
      obtain ⟨apart, noAction⟩ := notWildcard isRecord
      obtain ⟨isMapping, rules, -⟩ := groups outer _ _ noAction found
      exact ⟨isMapping, fun _ => rules apart⟩
  | recordField outer noAction found =>
      cases outer with
      | record outer isRecord record =>
          obtain ⟨isMapping, rules⟩ :=
            (groups outer _ _ (notWildcard isRecord).2 record).2.2 _ _ noAction found
          exact ⟨isMapping, fun _ => rules⟩

theorem groupsUnder_of_standsAt
    (all : ∀ place d', StandsAt d place d' →
      d'.entries?.isSome ∧ (place ≠ .fieldGroup → RulesUnder d'))
    {name : String} {entry : Datum} (found : d.under? name = some entry) :
    entry.entries?.isSome ∧ RulesUnder entry ∧ GroupsUnder entry := by
  have here := StandsAt.collection found
  refine ⟨(all _ _ here).1, (all _ _ here).2 (by decide), ?_⟩
  intro key d' noAction found
  by_cases isWildcard : key = wildcard
  · subst isWildcard
    have group := StandsAt.fieldGroup here found
    refine ⟨(all _ _ group).1, fun apart => absurd rfl apart, ?_⟩
    intro name field noAction' found'
    have inGroup := all _ _ (.field group noAction' found')
    exact ⟨inGroup.1, inGroup.2 (by decide)⟩
  · have record := StandsAt.record here (by simp [isRecordKey, isWildcard, noAction]) found
    refine ⟨(all _ _ record).1, fun _ => (all _ _ record).2 (by decide), ?_⟩
    intro name field noAction' found'
    have inRecord := all _ _ (.recordField record noAction' found')
    exact ⟨inRecord.1, inRecord.2 (by decide)⟩

end

/-- A raw mapping with texts for keys is a rule set exactly if mappings stand at all of its places and, but
for the groups `*` themselves, each key with a leading dot in them is an action with a rule: null, a truth
value, a text or a list of known role tags. -/
theorem accepted_iff_rules_well_formed {raw : List (Datum × Datum)} (keyed : TextKeyed (.mapping raw)) :
    (∃ ruleSet, RuleSet.ofEntries raw = .ok ruleSet) ↔
      ∀ place d, StandsAt (.mapping raw) place d →
        d.entries?.isSome ∧ (place ≠ .fieldGroup → RulesUnder d) := by
  obtain ⟨entries, -, rfl, unique, inner⟩ := keyed.entries rfl
  have mem_iff (entry : String × Datum) :
      entry ∈ entries ↔ (Datum.mapping (textKeyed entries)).under? entry.1 = some entry.2 := by
    rw [← mem_namedEntries_iff keyed rfl, namedEntries_textKeyed]
  have accepted := ofEntries_accepted_iff unique
  rw [Accepted] at accepted
  rw [accepted]
  constructor
  · intro all place d stands
    refine rulesUnder_of_standsAt (fun name entry found => ?_) stands
    exact (collectionIn_iff (textKeyed_under? keyed found)).mp (all (name, entry) ((mem_iff _).mpr found))
  · intro all entry member
    exact (collectionIn_iff (inner entry member)).mpr (groupsUnder_of_standsAt all ((mem_iff entry).mp member))

/-- Rules for the text of the first note, with a misspelled action. -/
def misspelledRules : Entries Datum :=
  [("notes", .mapping (textKeyed [("n1", .mapping (textKeyed
    [("text", .mapping (textKeyed [(".raed", .bool false)]))]))]))]

theorem misspelled_rules_rejected :
    TextKeyed (.mapping (textKeyed misspelledRules)) ∧
      ¬ ∃ ruleSet, RuleSet.ofEntries (textKeyed misspelledRules) = .ok ruleSet := by
  let field := Datum.mapping (textKeyed [(".raed", .bool false)])
  let note := Datum.mapping (textKeyed [("text", field)])
  let notes := Datum.mapping (textKeyed [("n1", note)])
  let whole := Datum.mapping (textKeyed misspelledRules)
  have keyedField : TextKeyed field := .flat (by simp [Entries.names]) (by simp [Datum.entries?])
  have keyedNote : TextKeyed note :=
    .mapping (by simp [Entries.names]) (List.forall_mem_singleton.mpr keyedField)
  have keyedNotes : TextKeyed notes :=
    .mapping (by simp [Entries.names]) (List.forall_mem_singleton.mpr keyedNote)
  have keyed : TextKeyed whole := .mapping (by decide) (List.forall_mem_singleton.mpr keyedNotes)
  have foundNotes : whole.under? "notes" = some notes := rfl
  have foundNote : notes.under? "n1" = some note := rfl
  have foundField : note.under? "text" = some field := rfl
  have stands : StandsAt whole .recordField field :=
    .recordField (.record (.collection foundNotes) rfl foundNote) rfl foundField
  refine ⟨keyed, ?_⟩
  intro accepted
  have rules := ((accepted_iff_rules_well_formed keyed).mp accepted _ _ stands).2 (by decide)
  have known := (rules ".raed" (.bool false) rfl rfl).1
  simp [actionKeys] at known

/-- Rules with an unknown role in the group for the fields of notes. -/
def passedOverRules : Entries Datum :=
  [("notes", .mapping (textKeyed [("*", .mapping (textKeyed [(".read", .list [.str "Nobody"])]))]))]

/-- Nobody looks at the rules of such a group itself, so a role that there is not is accepted. -/
theorem unknown_role_accepted :
    TextKeyed (.mapping (textKeyed passedOverRules)) ∧
      (∃ ruleSet, RuleSet.ofEntries (textKeyed passedOverRules) = .ok ruleSet) ∧
      ∃ group, StandsAt (.mapping (textKeyed passedOverRules)) .fieldGroup group ∧
        group.under? ".read" = some (.list [.str "Nobody"]) ∧ ¬ IsRule (.list [.str "Nobody"]) := by
  let group := Datum.mapping (textKeyed [(".read", .list [.str "Nobody"])])
  let notes := Datum.mapping (textKeyed [("*", group)])
  let whole := Datum.mapping (textKeyed passedOverRules)
  have keyedGroup : TextKeyed group := .flat (by simp [Entries.names]) (by simp [Datum.entries?])
  have keyedNotes : TextKeyed notes :=
    .mapping (by simp [Entries.names]) (List.forall_mem_singleton.mpr keyedGroup)
  have keyed : TextKeyed whole := .mapping (by decide) (List.forall_mem_singleton.mpr keyedNotes)
  have foundNotes : whole.under? "notes" = some notes := rfl
  have foundGroup : notes.under? wildcard = some group := rfl
  have foundRule : group.under? ".read" = some (.list [.str "Nobody"]) := rfl
  have noRule : ¬ IsRule (.list [.str "Nobody"]) := by simp [IsRule, roleTags]
  exact ⟨keyed, ⟨_, rfl⟩, group, .fieldGroup (.collection foundNotes) foundGroup, foundRule, noRule⟩

end GuardedStore.Access
