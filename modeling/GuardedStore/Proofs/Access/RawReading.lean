import GuardedStore.Access.Resolution
import GuardedStore.Proofs.Run
import GuardedStore.Value.Entries

/-! # What is read of raw rules

A rule set that was read from a raw mapping holds what stands in the mapping: each of its groups the
values under the keys of an entry, as they are written and in their order. The mappings that lie in each
other have texts for keys, none of them twice.
-/

namespace GuardedStore

namespace Datum

/-- The entries of a mapping with texts for keys. -/
def textKeyed (entries : Entries Datum) : List (Datum × Datum) :=
  entries.map fun entry => (.str entry.1, entry.2)

/-- The entries of a mapping that stand under texts; anything but a mapping has none. -/
def textEntries : Datum → Entries Datum
  | .mapping entries => entries.filterMap fun
    | (.str key, d) => some (key, d)
    | _ => none
  | _ => []

/-- What stands under a text in a mapping. -/
def under? (d : Datum) (key : String) : Option Datum :=
  Entries.get? d.textEntries key

/-- Mappings that lie in each other have texts for keys, none of them twice. -/
inductive TextKeyed : Datum → Prop
  | mapping {entries : Entries Datum} (unique : (Entries.names entries).Nodup)
      (inner : ∀ entry ∈ entries, TextKeyed entry.2) : TextKeyed (.mapping (textKeyed entries))
  | other {d : Datum} (noMapping : d.entries? = none) : TextKeyed d

@[simp] theorem textEntries_textKeyed (entries : Entries Datum) :
    textEntries (.mapping (textKeyed entries)) = entries := by
  induction entries with
  | nil => rfl
  | cons entry rest ih =>
      simp only [textEntries, textKeyed] at ih
      simp [textEntries, textKeyed, ih]

@[simp] theorem under?_textKeyed (entries : Entries Datum) (key : String) :
    under? (.mapping (textKeyed entries)) key = Entries.get? entries key := by
  rw [under?, textEntries_textKeyed]

theorem TextKeyed.entries {d : Datum} (keyed : TextKeyed d) {raw : List (Datum × Datum)}
    (isMapping : d.entries? = some raw) :
    ∃ entries, d = .mapping (textKeyed entries) ∧ raw = textKeyed entries ∧
      (Entries.names entries).Nodup ∧ ∀ entry ∈ entries, TextKeyed entry.2 := by
  cases keyed with
  | mapping unique inner =>
      cases isMapping
      exact ⟨_, rfl, rfl, unique, inner⟩
  | other noMapping => simp [noMapping] at isMapping

theorem TextKeyed.flat {entries : Entries Datum} (unique : (Entries.names entries).Nodup)
    (inner : ∀ entry ∈ entries, entry.2.entries? = none) : TextKeyed (.mapping (textKeyed entries)) :=
  .mapping unique fun entry member => .other (inner entry member)

theorem setEntry_textKeyed (entries : Entries Datum) (key : String) (d : Datum) :
    setEntry (textKeyed entries) (.str key) d = textKeyed (Entries.set entries key d) := by
  induction entries with
  | nil => rfl
  | cons entry rest ih =>
      obtain ⟨old, value⟩ := entry
      simp only [textKeyed] at ih
      by_cases same : old = key <;> simp [textKeyed, setEntry, sameKey, Entries.set, same, ih]

/-- A later entry of a mapping replaces an earlier one of its key. -/
theorem ofPairs_textKeyed (entries : Entries Datum) :
    ofPairs (textKeyed entries) = textKeyed (Entries.ofPairs entries) := by
  have folds (start : Entries Datum) :
      (textKeyed entries).foldl (fun all entry => setEntry all entry.1 entry.2) (textKeyed start) =
        textKeyed (Entries.overlay start entries) := by
    induction entries generalizing start with
    | nil => rfl
    | cons entry rest ih =>
        simp only [textKeyed] at ih
        simp only [textKeyed, List.map_cons, List.foldl_cons, Entries.overlay]
        rw [← textKeyed, setEntry_textKeyed, textKeyed, ih]
        rfl
  exact folds []

end Datum

namespace Access

open Datum (textKeyed TextKeyed)

@[simp] theorem namedEntries_textKeyed (entries : Entries Datum) :
    namedEntries (textKeyed entries) = entries := by
  simp only [namedEntries, textKeyed, List.map_map]
  exact List.map_id' entries

/-- A rule as it is written. -/
def Rule.written : Rule → Datum
  | .unset => .null
  | .flag allowed => .bool allowed
  | .expression source => .str source
  | .roles list => .list (list.map fun role => Datum.str role.tag)

/-- Rules for fields as they are written. -/
def writtenEach (rules : List (String × Rule)) : List (String × Datum) :=
  rules.map fun (name, rule) => (name, rule.written)

/-- The fields whose mappings in an entry have a rule for an action, with the rule, in their order. -/
def writtenFields (action : Action) (entry : Datum) : List (String × Datum) :=
  entry.textEntries.filterMap fun (name, rules) =>
    if isActionKey name then none else (rules.under? action.key).map (name, ·)

/-- The built-in default group as it is written. -/
def writtenDefault : Datum :=
  .mapping (textKeyed [(".create", .list [.str "User"]), (".update", .list [.str "Owner"]),
    (".delete", .list [.str "Owner"])])

/-- Whether a key of the entry of a collection holds the rules for a record. -/
def isRecordKey (key : String) : Bool :=
  key ≠ wildcard && !isActionKey key

section

variable {place : String} {entries : Entries Datum} {d : Datum} {raw : List (Datum × Datum)}

theorem Role.tag_of_ofTag? {tag : String} {role : Role} (h : Role.ofTag? tag = some role) :
    role.tag = tag := by
  simpa using List.find?_some h

theorem written_of_roleOf? {tag : Datum} {role : Role} (h : roleOf? tag = some role) :
    Datum.str role.tag = tag := by
  cases tag with
  | str tag => rw [Role.tag_of_ofTag? h]
  | _ => cases h

theorem written_of_known {tags : List Datum} (known : ∀ tag ∈ tags, (roleOf? tag).isSome) :
    (tags.filterMap roleOf?).map (fun role => Datum.str role.tag) = tags := by
  induction tags with
  | nil => rfl
  | cons tag rest ih =>
      obtain ⟨role, isRole⟩ := Option.isSome_iff_exists.mp (known tag List.mem_cons_self)
      rw [List.filterMap_cons_some isRole, List.map_cons, written_of_roleOf? isRole,
        ih fun tag later => known tag (List.mem_cons_of_mem _ later)]

/-- What is read as a rule is the rule as it is written. -/
theorem readRule_written {rule : Rule} (read : readRule d place = .ok rule) : rule.written = d := by
  cases d with
  | null | bool | str => cases read; rfl
  | list tags =>
      simp only [readRule] at read
      split at read
      · cases read
      · split at read
        · rename_i known
          cases read
          rw [Rule.written, written_of_known]
          simpa [Option.isSome_iff_ne_none] using known
        · cases read
  | _ => cases read

theorem Action.key_inj {action other : Action} (h : action.key = other.key) : action = other := by
  cases action <;> cases other <;> first | rfl | exact absurd h (by decide)

theorem Action.isActionKey_key (action : Action) : isActionKey action.key = true := by
  cases action <;> decide

theorem Action.key_of_ofKey? {key : String} {action : Action} (h : Action.ofKey? key = some action) :
    action.key = key := by
  simpa using List.find?_some h

theorem ActionRules.rule?_set (rules : ActionRules) (action : Action) (rule : Rule) (other : Action) :
    (rules.set action rule).rule? other = if action = other then some rule else rules.rule? other := by
  cases action <;> cases other <;> rfl

/-- The rules for actions are what stands under their keys. -/
def ActionRules.Reads (rules : ActionRules) (d : Datum) : Prop :=
  ∀ action, (rules.rule? action).map Rule.written = d.under? action.key

theorem addActionRules_written {rules rules' : ActionRules} (unique : (Entries.names entries).Nodup)
    (read : addActionRules place rules entries = .ok rules') (action : Action) :
    (rules'.rule? action).map Rule.written =
      (Entries.get? entries action.key).or ((rules.rule? action).map Rule.written) := by
  induction entries generalizing rules with
  | nil =>
      cases read
      rfl
  | cons entry rest ih =>
      obtain ⟨key, value⟩ := entry
      obtain ⟨new, unique⟩ := List.nodup_cons.mp unique
      rw [addActionRules] at read
      rw [Entries.get?_cons]
      split at read
      · split at read
        · cases read
        · rename_i here isAction
          obtain ⟨rule, isRule, read⟩ := except_bind_ok_iff.mp read
          rw [ih unique read, ActionRules.rule?_set, ← Action.key_of_ofKey? isAction]
          by_cases same : here = action
          · subst same
            have gone : Entries.get? rest here.key = none := by
              rw [Entries.get?_eq_none_iff, Action.key_of_ofKey? isAction]
              exact new
            simp [gone, readRule_written isRule]
          · have apart : here.key ≠ action.key := fun h => same (Action.key_inj h)
            simp [same, apart]
      · rename_i noAction
        have apart : key ≠ action.key := fun h => noAction (h ▸ action.isActionKey_key)
        simp only [apart, if_false]
        exact ih unique read

theorem readActionRules_reads {rules : ActionRules} (keyed : TextKeyed d) (isMapping : d.entries? = some raw)
    (read : readActionRules (namedEntries raw) place = .ok rules) : rules.Reads d := by
  obtain ⟨entries, rfl, rfl, unique, -⟩ := keyed.entries isMapping
  rw [namedEntries_textKeyed] at read
  intro action
  rw [addActionRules_written unique read action, Datum.under?_textKeyed]
  cases action <;> exact Option.or_none

/-- The rules for fields are those whose mappings have a rule for the action. -/
def FieldRules.Reads (fields : FieldRules) (d : Datum) : Prop :=
  ∀ action, writtenEach (fields.forAction action) = writtenFields action d

theorem addFieldRules_written {fields fields' : FieldRules} (unique : (Entries.names entries).Nodup)
    (keyed : ∀ entry ∈ entries, TextKeyed entry.2)
    (new : ∀ name ∈ Entries.names entries, name ∉ Entries.names fields)
    (read : addFieldRules place fields entries = .ok fields') (action : Action) :
    writtenEach (fields'.forAction action) =
      writtenEach (fields.forAction action) ++ writtenFields action (.mapping (textKeyed entries)) := by
  induction entries generalizing fields with
  | nil =>
      cases read
      simp [writtenFields]
  | cons entry rest ih =>
      obtain ⟨name, value⟩ := entry
      obtain ⟨here, unique⟩ := List.nodup_cons.mp unique
      have keyedRest := fun entry later => keyed entry (List.mem_cons_of_mem _ later)
      have newRest := fun name later => new name (List.mem_cons_of_mem _ later)
      simp only [writtenFields, Datum.textEntries_textKeyed] at ih ⊢
      rw [addFieldRules] at read
      split at read
      · rename_i isAction
        rw [ih unique keyedRest newRest read, List.filterMap_cons_none (by simp [isAction])]
      · rename_i noAction
        split at read
        · cases read
        · rename_i entries isMapping
          obtain ⟨rules, readRules, read⟩ := except_bind_ok_iff.mp read
          have reads := readActionRules_reads (keyed _ List.mem_cons_self) isMapping readRules action
          have atEnd := Entries.set_of_notMem (new name List.mem_cons_self) rules
          have newLater : ∀ other ∈ Entries.names rest,
              other ∉ Entries.names (Entries.set fields name rules) := by
            intro other later taken
            rcases Entries.mem_names_set.mp taken with taken | rfl
            · exact newRest other later taken
            · exact here later
          rw [ih unique keyedRest newLater read, atEnd]
          simp only [writtenEach, FieldRules.forAction, List.filterMap_append, List.map_append,
            List.append_assoc]
          congr 1
          simp only [noAction, ← reads, List.filterMap_cons, List.filterMap_nil]
          cases rules.rule? action <;> simp

theorem readFieldRules_reads {fields : FieldRules} (keyed : TextKeyed d)
    (isMapping : d.entries? = some raw) (read : readFieldRules (namedEntries raw) place = .ok fields) :
    fields.Reads d := by
  obtain ⟨entries, rfl, rfl, unique, inner⟩ := keyed.entries isMapping
  rw [namedEntries_textKeyed] at read
  intro action
  exact addFieldRules_written unique inner (by simp [Entries.names]) read action

structure RecordRules.Reads (rules : RecordRules) (d : Datum) : Prop where
  actions : rules.actions.Reads d
  fields : rules.fields.Reads d

theorem readRecordRules_reads {rules : RecordRules} (keyed : TextKeyed d)
    (isMapping : d.entries? = some raw) (read : readRecordRules (namedEntries raw) place = .ok rules) :
    rules.Reads d := by
  obtain ⟨actions, readActions, read⟩ := except_bind_ok_iff.mp read
  obtain ⟨fields, readFields, read⟩ := except_bind_ok_iff.mp read
  cases read
  exact ⟨readActionRules_reads keyed isMapping readActions, readFieldRules_reads keyed isMapping readFields⟩

/-- The rules for fields and records are what some entries of a collection say. -/
structure CollectionRules.ReadsGroups (rules : CollectionRules) (entries : Entries Datum) : Prop where
  fields : ∀ action, writtenEach (rules.fields.forAction action) =
    ((Entries.get? entries wildcard).map (writtenFields action)).getD []
  records : ∀ id, Option.Rel RecordRules.Reads (Entries.get? rules.records id)
    (if isRecordKey id then Entries.get? entries id else none)

/-- The rules for a collection are what its entry says: for actions, for the fields of every record and
for single records. -/
structure CollectionRules.Reads (rules : CollectionRules) (d : Datum) : Prop
    extends rules.ReadsGroups d.textEntries where
  actions : rules.actions.Reads d

theorem notMem_of_nodup {read rest : Entries Datum} {key : String}
    (unique : (Entries.names (read ++ (key, d) :: rest)).Nodup) : key ∉ Entries.names read := by
  intro taken
  simp only [Entries.names, List.map_append, List.map_cons] at unique taken
  exact (List.nodup_append.mp unique).2.2 key taken key List.mem_cons_self rfl

theorem get?_concat {key : String} (new : key ∉ Entries.names entries) (value : Datum) (name : String) :
    Entries.get? (entries ++ [(key, value)]) name =
      if key = name then some value else Entries.get? entries name := by
  rw [← Entries.set_of_notMem new, Entries.get?_set]

namespace CollectionRules.ReadsGroups

variable {rules : CollectionRules} {key : String}

theorem otherRecords (reads : rules.ReadsGroups entries) (new : key ∉ Entries.names entries)
    (noRecord : isRecordKey key = false) (id : String) :
    Option.Rel RecordRules.Reads (Entries.get? rules.records id)
      (if isRecordKey id then Entries.get? (entries ++ [(key, d)]) id else none) := by
  have related := reads.records id
  by_cases isRecord : isRecordKey id = true
  · have apart : key ≠ id := by
      rintro rfl
      simp [noRecord] at isRecord
    rw [get?_concat new, if_neg apart]
    exact related
  · rw [if_neg isRecord] at related ⊢
    exact related

theorem action (reads : rules.ReadsGroups entries) (new : key ∉ Entries.names entries)
    (isAction : isActionKey key = true) : rules.ReadsGroups (entries ++ [(key, d)]) where
  fields action := by
    have apart : key ≠ wildcard := by
      rintro rfl
      cases isAction
    rw [reads.fields action, get?_concat new, if_neg apart]
  records := reads.otherRecords new (by simp [isRecordKey, isAction])

theorem fieldGroup (reads : rules.ReadsGroups entries) (new : wildcard ∉ Entries.names entries)
    {fields : FieldRules} (said : fields.Reads d) :
    { rules with fields }.ReadsGroups (entries ++ [(wildcard, d)]) where
  fields action := by
    rw [get?_concat new, if_pos rfl]
    exact said action
  records := reads.otherRecords new rfl

theorem recordGroup (reads : rules.ReadsGroups entries) (new : key ∉ Entries.names entries)
    (isRecord : isRecordKey key = true) {record : RecordRules} (said : record.Reads d) :
    { rules with records := Entries.set rules.records key record }.ReadsGroups
      (entries ++ [(key, d)]) where
  fields action := by
    have apart : key ≠ wildcard := by
      rintro rfl
      cases isRecord
    rw [get?_concat new, if_neg apart]
    exact reads.fields action
  records id := by
    rw [get?_concat new, Entries.get?_set]
    by_cases same : key = id
    · subst same
      simpa [isRecord] using said
    · simpa [same] using reads.records id

end CollectionRules.ReadsGroups

theorem addGroups_reads {rules rules' : CollectionRules} {read : Entries Datum}
    (unique : (Entries.names (read ++ entries)).Nodup) (keyed : ∀ entry ∈ entries, TextKeyed entry.2)
    (before : rules.ReadsGroups read) (done : addGroups place rules entries = .ok rules') :
    rules'.ReadsGroups (read ++ entries) ∧ rules'.actions = rules.actions := by
  induction entries generalizing rules read with
  | nil =>
      cases done
      exact ⟨by simpa using before, rfl⟩
  | cons entry rest ih =>
      obtain ⟨key, value⟩ := entry
      have new : key ∉ Entries.names read := notMem_of_nodup unique
      have split : read ++ (key, value) :: rest = read ++ [(key, value)] ++ rest := by simp
      rw [split] at unique ⊢
      have keyedRest := fun entry later => keyed entry (List.mem_cons_of_mem _ later)
      rw [addGroups] at done
      split at done
      · rename_i isAction
        exact ih unique keyedRest (before.action new isAction) done
      · rename_i noAction
        split at done
        · cases done
        · rename_i raw isMapping
          have keyedHere : TextKeyed value := keyed _ List.mem_cons_self
          split at done
          · rename_i isWildcard
            subst isWildcard
            obtain ⟨fields, readFields, later⟩ := except_bind_ok_iff.mp done
            have said := readFieldRules_reads keyedHere isMapping readFields
            obtain ⟨groups, same⟩ := ih unique keyedRest (before.fieldGroup new said) later
            exact ⟨groups, same⟩
          · rename_i other
            obtain ⟨record, readRecord, later⟩ := except_bind_ok_iff.mp done
            have said := readRecordRules_reads keyedHere isMapping readRecord
            have isRecord : isRecordKey key = true := by simp [isRecordKey, other, noAction]
            obtain ⟨groups, same⟩ := ih unique keyedRest (before.recordGroup new isRecord said) later
            exact ⟨groups, same⟩

theorem readCollectionRules_reads {rules : CollectionRules} (keyed : TextKeyed d)
    (isMapping : d.entries? = some raw) (read : readCollectionRules (namedEntries raw) place = .ok rules) :
    rules.Reads d := by
  obtain ⟨actions, readActions, done⟩ := except_bind_ok_iff.mp read
  have said := readActionRules_reads keyed isMapping readActions
  obtain ⟨entries, rfl, rfl, unique, inner⟩ := keyed.entries isMapping
  rw [namedEntries_textKeyed] at done
  have start : CollectionRules.ReadsGroups { actions } [] := by
    refine ⟨fun _ => rfl, fun id => ?_⟩
    simp only [Entries.get?_nil, ite_self]
    exact .none
  obtain ⟨groups, same⟩ := addGroups_reads (by simpa using unique) inner start done
  exact ⟨by simpa using groups, same ▸ said⟩

end

section

variable {entries : Entries Datum} {ruleSet ruleSet' : RuleSet}

theorem collection?_concat (collections : List (Datum × CollectionRules)) (key : String)
    (rules : CollectionRules) (name : String) :
    RuleSet.collection? { ruleSet with collections := collections ++ [(.str key, rules)] } name =
      (RuleSet.collection? { ruleSet with collections } name).or
        (if key = name then some rules else none) := by
  simp only [RuleSet.collection?, List.find?_append, List.find?_singleton, Datum.sameKey]
  rw [Option.map_or]
  by_cases same : key = name <;> simp [same]

/-- The groups of a rule set are what some entries of a raw mapping say. -/
structure RuleSet.Reads (ruleSet : RuleSet) (entries : Entries Datum) : Prop where
  default : ∀ d, Entries.get? entries wildcard = some d → ruleSet.default.Reads d
  collections : ∀ name, Option.Rel CollectionRules.Reads (ruleSet.collection? name)
    (if name = wildcard then none else Entries.get? entries name)

theorem addCollections_reads (read : Entries Datum) (unique : (Entries.names (read ++ entries)).Nodup)
    (keyed : ∀ entry ∈ entries, TextKeyed entry.2) (before : ruleSet.Reads read)
    (done : addCollections ruleSet (textKeyed entries) = .ok ruleSet') :
    ruleSet'.Reads (read ++ entries) := by
  induction entries generalizing ruleSet read with
  | nil =>
      cases done
      simpa using before
  | cons entry rest ih =>
      obtain ⟨key, value⟩ := entry
      have new : key ∉ Entries.names read := notMem_of_nodup unique
      have split : read ++ (key, value) :: rest = read ++ [(key, value)] ++ rest := by simp
      rw [split] at unique ⊢
      have keyedRest := fun entry later => keyed entry (List.mem_cons_of_mem _ later)
      simp only [textKeyed, List.map_cons] at done
      rw [addCollections] at done
      split at done
      · cases done
      · rename_i raw isMapping
        obtain ⟨rules, readRules, later⟩ := except_bind_ok_iff.mp done
        have said := readCollectionRules_reads (keyed _ List.mem_cons_self) isMapping readRules
        split at later
        · rename_i isWildcard
          have isWildcard : key = wildcard := by simpa [Datum.sameKey] using isWildcard
          subst isWildcard
          refine ih _ unique keyedRest ⟨fun d found => ?_, fun name => ?_⟩ later
          · rw [get?_concat new, if_pos rfl] at found
            cases found
            exact said
          · have related := before.collections name
            by_cases same : name = wildcard
            · rw [if_pos same] at related ⊢
              exact related
            · rw [if_neg same] at related
              rw [if_neg same, get?_concat new, if_neg (Ne.symm same)]
              exact related
        · rename_i other
          have other : key ≠ wildcard := by simpa [Datum.sameKey] using other
          refine ih _ unique keyedRest ⟨fun d found => ?_, fun name => ?_⟩ later
          · rw [get?_concat new, if_neg other] at found
            exact before.default d found
          · have related := before.collections name
            rw [collection?_concat, get?_concat new]
            by_cases same : key = name
            · subst same
              rw [if_neg other, Entries.get?_eq_none_iff.mpr new] at related
              generalize RuleSet.collection? _ key = found at related ⊢
              cases related
              simpa [other] using said
            · simpa [same] using related

theorem textKeyed_writtenDefault : TextKeyed writtenDefault :=
  .flat (by decide) (by decide)

theorem mem_overlay {start : Entries Datum} {entry : String × Datum}
    (h : entry ∈ Entries.overlay start entries) : entry ∈ start ∨ entry ∈ entries := by
  induction entries generalizing start with
  | nil => exact .inl h
  | cons first rest ih =>
      obtain ⟨key, d⟩ := first
      rw [Entries.overlay_cons] at h
      rcases ih h with set | later
      · rcases Entries.mem_set set with rfl | before
        · exact .inr List.mem_cons_self
        · exact .inl before
      · exact .inr (List.mem_cons_of_mem _ later)

/-- A raw mapping is read above the built-in default group, which its own one replaces. -/
theorem ofEntries_reads (keyed : ∀ entry ∈ entries, TextKeyed entry.2)
    (accepted : RuleSet.ofEntries (textKeyed entries) = .ok ruleSet) :
    ruleSet.Reads (Entries.overlay [(wildcard, writtenDefault)] entries) := by
  have layered : builtInRules ++ textKeyed entries = textKeyed ((wildcard, writtenDefault) :: entries) :=
    rfl
  rw [RuleSet.ofEntries, layered, Datum.ofPairs_textKeyed, Entries.ofPairs, Entries.overlay_cons] at accepted
  have start : RuleSet.Reads {} [] := ⟨nofun, fun name => by simpa using .none⟩
  refine addCollections_reads [] ?_ (fun entry member => ?_) start accepted
  · exact Entries.nodup_overlay (by simp [Entries.names]) entries
  · rcases mem_overlay member with default | own
    · rw [List.mem_singleton.mp default]
      exact textKeyed_writtenDefault
    · exact keyed entry own

end

end Access

end GuardedStore
