import GuardedStore.Access.Enforcement
import GuardedStore.Proofs.Access.Layering
import GuardedStore.Proofs.Access.WellFormed

/-! # Rules that say nothing

A rule that is null, an empty text or an empty list says nothing. Where the rules for actions are layered it
is the same as none. Among the rules for fields only null is: an empty list denies its field, an empty text
is no expression, and a record of which all rules for fields are silent still takes the place of the group
for its collection. Where no field rule is of that kind, silent rules may be left out altogether.
-/

namespace GuardedStore

open Access (isActionKey saysNothing)

namespace Datum

mutual

/-- A piece of data without the rules in it that say nothing. -/
def withoutSilent : Datum → Datum
  | .mapping entries => .mapping (withoutSilentEntries entries)
  | d => d

def withoutSilentEntries : List (Datum × Datum) → List (Datum × Datum)
  | [] => []
  | (key, d) :: rest =>
    if isActionKey key.asName && saysNothing d then withoutSilentEntries rest
    else (key, withoutSilent d) :: withoutSilentEntries rest

end

/-- What is left of an entry. -/
def spoken? (key : String) (d : Datum) : Option Datum :=
  if isActionKey key && saysNothing d then none else some d.withoutSilent

def spokenEntries (entries : Entries Datum) : Entries Datum :=
  entries.filterMap fun entry => (spoken? entry.1 entry.2).map (entry.1, ·)

theorem withoutSilent_of_noMapping {d : Datum} (noMapping : d.entries? = none) : d.withoutSilent = d := by
  cases d with
  | mapping entries => cases noMapping
  | _ => rfl

theorem entries?_withoutSilent (d : Datum) :
    d.withoutSilent.entries? = d.entries?.map withoutSilentEntries := by
  cases d <;> rfl

theorem spokenEntries_cons (key : String) (d : Datum) (rest : Entries Datum) :
    spokenEntries ((key, d) :: rest) =
      if isActionKey key && saysNothing d then spokenEntries rest
      else (key, d.withoutSilent) :: spokenEntries rest := by
  simp only [spokenEntries, List.filterMap_cons]
  by_cases silent : (isActionKey key && saysNothing d) = true
  · simp only [spoken?, if_pos silent, Option.map_none]
  · simp only [spoken?, if_neg silent, Option.map_some]

theorem withoutSilentEntries_textKeyed (entries : Entries Datum) :
    withoutSilentEntries (textKeyed entries) = textKeyed (spokenEntries entries) := by
  induction entries with
  | nil => rfl
  | cons entry rest ih =>
      obtain ⟨key, d⟩ := entry
      simp only [textKeyed] at ih
      rw [spokenEntries_cons]
      simp only [textKeyed, List.map_cons, withoutSilentEntries, asName, ih]
      by_cases silent : (isActionKey key && saysNothing d) = true
      · rw [if_pos silent, if_pos silent]
      · rw [if_neg silent, if_neg silent, List.map_cons]

theorem names_spokenEntries (entries : Entries Datum) :
    List.Sublist (Entries.names (spokenEntries entries)) (Entries.names entries) := by
  induction entries with
  | nil => exact .slnil
  | cons entry rest ih =>
      obtain ⟨key, d⟩ := entry
      rw [spokenEntries_cons]
      split
      · exact ih.cons key
      · exact ih.cons_cons key

theorem get?_spokenEntries {entries : Entries Datum} (unique : (Entries.names entries).Nodup) (key : String) :
    Entries.get? (spokenEntries entries) key = (Entries.get? entries key).bind (spoken? key) := by
  induction entries with
  | nil => rfl
  | cons entry rest ih =>
      obtain ⟨name, d⟩ := entry
      obtain ⟨new, unique⟩ := List.nodup_cons.mp unique
      have missing : Entries.get? (spokenEntries rest) name = none := by
        rw [Entries.get?_eq_none_iff]
        intro taken
        exact new ((names_spokenEntries rest).subset taken)
      rw [spokenEntries_cons, Entries.get?_cons]
      by_cases same : name = key
      · subst same
        rw [if_pos rfl, Option.bind_some, spoken?]
        split
        · exact missing
        · rw [Entries.get?_cons, if_pos rfl]
      · rw [if_neg same, ← ih unique]
        split
        · rfl
        · rw [Entries.get?_cons, if_neg same]

theorem textKeyed_withoutSilent {d : Datum} (keyed : TextKeyed d) : TextKeyed d.withoutSilent := by
  induction keyed with
  | @mapping entries unique inner ih =>
      rw [withoutSilent, withoutSilentEntries_textKeyed]
      refine .mapping (unique.sublist (names_spokenEntries entries)) ?_
      intro entry member
      obtain ⟨before, among, left⟩ := List.mem_filterMap.mp member
      obtain ⟨d', isLeft, rfl⟩ := Option.map_eq_some_iff.mp left
      rw [spoken?] at isLeft
      split at isLeft
      · cases isLeft
      · cases isLeft
        exact ih before among
  | other noMapping =>
      rw [withoutSilent_of_noMapping noMapping]
      exact .other noMapping

theorem under?_withoutSilent {d : Datum} (keyed : TextKeyed d) (key : String) :
    d.withoutSilent.under? key = (d.under? key).bind (spoken? key) := by
  cases isMapping : d.entries? with
  | none =>
      rw [withoutSilent_of_noMapping isMapping, Access.under?_of_noMapping isMapping]
      rfl
  | some raw =>
      obtain ⟨entries, rfl, -, unique, -⟩ := keyed.entries isMapping
      rw [withoutSilent, withoutSilentEntries_textKeyed, under?_textKeyed, under?_textKeyed,
        get?_spokenEntries unique]

end Datum

namespace Access

open Datum (textKeyed TextKeyed withoutSilent withoutSilentEntries spoken?)

/-- A raw mapping without the rules in its entries that say nothing. -/
def withoutSilentRules (raw : List (Datum × Datum)) : List (Datum × Datum) :=
  raw.map fun entry => (entry.1, entry.2.withoutSilent)

theorem withoutSilentRules_textKeyed (entries : Entries Datum) :
    withoutSilentRules (textKeyed entries) =
      textKeyed (entries.map fun entry => (entry.1, entry.2.withoutSilent)) := by
  simp [withoutSilentRules, textKeyed]

section

variable {raw : List (Datum × Datum)}

theorem mem_withoutSilentEntries {entry : String × Datum}
    (h : entry ∈ namedEntries (withoutSilentEntries raw)) :
    ∃ d, (entry.1, d) ∈ namedEntries raw ∧ entry.2 = d.withoutSilent := by
  induction raw with
  | nil => cases h
  | cons first rest ih =>
      obtain ⟨key, d⟩ := first
      rw [withoutSilentEntries] at h
      split at h
      · obtain ⟨d', member, left⟩ := ih h
        exact ⟨d', List.mem_cons_of_mem _ member, left⟩
      · rcases List.mem_cons.mp h with rfl | later
        · exact ⟨d, List.mem_cons_self, rfl⟩
        · obtain ⟨d', member, left⟩ := ih later
          exact ⟨d', List.mem_cons_of_mem _ member, left⟩

theorem IsRule.noMapping {d : Datum} (h : IsRule d) : d.entries? = none := by
  cases d with
  | mapping entries => cases h
  | _ => rfl

theorem RulesIn.withoutSilent (h : RulesIn (namedEntries raw)) :
    RulesIn (namedEntries (withoutSilentEntries raw)) := by
  intro entry member isAction
  obtain ⟨d, among, left⟩ := mem_withoutSilentEntries member
  obtain ⟨known, isRule⟩ := h _ among isAction
  refine ⟨known, ?_⟩
  rw [left, Datum.withoutSilent_of_noMapping isRule.noMapping]
  exact isRule

theorem MappingsIn.withoutSilent {inner : String → RawEntries → Prop}
    (stays : ∀ key raw, inner key (namedEntries raw) → inner key (namedEntries (withoutSilentEntries raw)))
    (h : MappingsIn inner (namedEntries raw)) :
    MappingsIn inner (namedEntries (withoutSilentEntries raw)) := by
  intro entry member noAction
  obtain ⟨d, among, left⟩ := mem_withoutSilentEntries member
  obtain ⟨raw', isMapping, said⟩ := h _ among noAction
  refine ⟨withoutSilentEntries raw', ?_, stays _ _ said⟩
  rw [left, Datum.entries?_withoutSilent, isMapping]
  rfl

theorem FieldsIn.withoutSilent (h : FieldsIn (namedEntries raw)) :
    FieldsIn (namedEntries (withoutSilentEntries raw)) :=
  MappingsIn.withoutSilent (fun _ _ => RulesIn.withoutSilent) h

theorem CollectionIn.withoutSilent {d : Datum} (h : CollectionIn d) : CollectionIn d.withoutSilent := by
  obtain ⟨raw, isMapping, rules, groups⟩ := h
  refine ⟨withoutSilentEntries raw, ?_, rules.withoutSilent, ?_⟩
  · rw [Datum.entries?_withoutSilent, isMapping]
    rfl
  · refine MappingsIn.withoutSilent ?_ groups
    intro key raw said
    exact ⟨fun apart => (said.1 apart).withoutSilent, said.2.withoutSilent⟩

end

theorem Role.tag_injective : Function.Injective Role.tag := by
  intro role other same
  cases role <;> cases other <;> first | rfl | exact absurd same (by decide)

theorem Rule.written_injective : Function.Injective Rule.written := by
  intro rule other same
  cases rule <;> cases other <;> simp only [Rule.written, Datum.bool.injEq, Datum.str.injEq, Datum.list.injEq,
    reduceCtorEq] at same
  · rfl
  · rw [same]
  · rw [same]
  · have tags := List.map_injective_iff.mpr (fun role other same =>
      Role.tag_injective (Datum.str.inj same)) same
    rw [tags]

/-- A rule as it is written is left unless it says nothing. -/
theorem spoken?_written (action : Action) (rule : Rule) :
    spoken? action.key rule.written = if rule.isDefined then some rule.written else none := by
  have flat : rule.written.withoutSilent = rule.written := by
    cases rule <;> rfl
  rw [spoken?, action.isActionKey_key, saysNothing_written, flat]
  cases rule.isDefined <;> rfl

/-- The rules for actions that say something. -/
def ActionRules.SpokenOf (rules' rules : ActionRules) : Prop :=
  ∀ action, rules'.rule? action = (rules.rule? action).filter Rule.isDefined

/-- The rules for fields that say something. -/
def FieldRules.SpokenOf (fields' fields : FieldRules) : Prop :=
  ∀ action, fields'.forAction action = (fields.forAction action).filter fun field => field.2.isDefined

structure RecordRules.SpokenOf (rules' rules : RecordRules) : Prop where
  actions : rules'.actions.SpokenOf rules.actions
  fields : rules'.fields.SpokenOf rules.fields

section

variable {d : Datum}

theorem ActionRules.Reads.spoken {rules rules' : ActionRules} (keyed : TextKeyed d) (reads : rules.Reads d)
    (reads' : rules'.Reads d.withoutSilent) : rules'.SpokenOf rules := by
  intro action
  have left := reads' action
  rw [Datum.under?_withoutSilent keyed, ← reads action] at left
  apply Option.map_injective Rule.written_injective
  rw [left]
  cases rules.rule? action with
  | none => rfl
  | some rule =>
      rw [Option.map_some, Option.bind_some, spoken?_written]
      cases defined : rule.isDefined <;> simp [defined]

theorem writtenFields_withoutSilent (keyed : TextKeyed d) (action : Action) :
    writtenFields action d.withoutSilent =
      (writtenFields action d).filterMap fun field => (spoken? action.key field.2).map (field.1, ·) := by
  cases isMapping : d.entries? with
  | none =>
      have noEntries : d.textEntries = [] := by
        cases d with
        | mapping entries => cases isMapping
        | _ => rfl
      rw [Datum.withoutSilent_of_noMapping isMapping, writtenFields, noEntries]
      rfl
  | some raw =>
      obtain ⟨entries, rfl, -, -, inner⟩ := keyed.entries isMapping
      rw [withoutSilent, Datum.withoutSilentEntries_textKeyed, writtenFields, writtenFields,
        Datum.textEntries_textKeyed, Datum.textEntries_textKeyed, Datum.spokenEntries, List.filterMap_filterMap,
        List.filterMap_filterMap]
      apply List.filterMap_congr
      intro entry member
      obtain ⟨name, rules⟩ := entry
      by_cases isAction : isActionKey name = true
      · cases left : spoken? name rules <;> simp [isAction]
      · have left : spoken? name rules = some rules.withoutSilent := by simp [spoken?, isAction]
        simp only [left, isAction, Option.map_some, Option.bind_some, Bool.false_eq_true, if_false,
          Datum.under?_withoutSilent (inner _ member)]
        cases rules.under? action.key <;> rfl

theorem writtenEach_spoken (action : Action) (fields : List (String × Rule)) :
    (writtenEach fields).filterMap (fun field => (spoken? action.key field.2).map (field.1, ·)) =
      writtenEach (fields.filter fun field => field.2.isDefined) := by
  induction fields with
  | nil => rfl
  | cons field rest ih =>
      obtain ⟨name, rule⟩ := field
      simp only [writtenEach, List.map_cons] at ih ⊢
      rw [List.filterMap_cons, spoken?_written]
      cases defined : rule.isDefined <;> simp [defined, ih]

theorem writtenEach_injective : Function.Injective writtenEach := by
  apply List.map_injective_iff.mpr
  intro field field' same
  obtain ⟨names, rules⟩ := Prod.mk.inj same
  exact Prod.ext names (Rule.written_injective rules)

theorem FieldRules.Reads.spoken {fields fields' : FieldRules} (keyed : TextKeyed d) (reads : fields.Reads d)
    (reads' : fields'.Reads d.withoutSilent) : fields'.SpokenOf fields := by
  intro action
  apply writtenEach_injective
  rw [reads' action, writtenFields_withoutSilent keyed, ← reads action, writtenEach_spoken]

theorem RecordRules.Reads.spoken {rules rules' : RecordRules} (keyed : TextKeyed d) (reads : rules.Reads d)
    (reads' : rules'.Reads d.withoutSilent) : rules'.SpokenOf rules where
  actions := reads.actions.spoken keyed reads'.actions
  fields := reads.fields.spoken keyed reads'.fields

end

section

variable {entry : Datum}

theorem under?_withoutSilent_of_noAction (keyed : TextKeyed entry) {key : String}
    (noAction : isActionKey key = false) :
    entry.withoutSilent.under? key = (entry.under? key).map withoutSilent := by
  rw [Datum.under?_withoutSilent keyed]
  cases entry.under? key <;> simp [spoken?, noAction]

theorem writtenRecord?_withoutSilent (keyed : TextKeyed entry) (id : Option String) :
    writtenRecord? entry.withoutSilent id = (writtenRecord? entry id).map withoutSilent := by
  cases id with
  | none => rfl
  | some key =>
      simp only [writtenRecord?, Option.bind_some]
      split
      · rename_i isRecord
        have noAction : isActionKey key = false := by
          have isRecord := isRecord.2
          simp only [isRecordKey, Bool.and_eq_true, Bool.not_eq_true'] at isRecord
          exact isRecord.2
        exact under?_withoutSilent_of_noAction keyed noAction
      · rfl

/-- The rules for the fields of a collection, as they are written. -/
def writtenGroupFields (action : Action) (entry : Datum) : List (String × Datum) :=
  ((entry.under? wildcard).map (writtenFields action)).getD []

theorem writtenGroupFields_withoutSilent (keyed : TextKeyed entry) (action : Action) :
    writtenGroupFields action entry.withoutSilent =
      (writtenGroupFields action entry).filterMap fun field => (spoken? action.key field.2).map (field.1, ·) := by
  rw [writtenGroupFields, under?_withoutSilent_of_noAction keyed rfl, writtenGroupFields]
  cases found : entry.under? wildcard with
  | none => rfl
  | some group => exact writtenFields_withoutSilent (textKeyed_under? keyed found) action

theorem rel_of_left {α β : Type} {whole : α → Datum → Prop} {left : β → Datum → Prop} {related : β → α → Prop}
    {rules : Option α} {rules' : Option β} {written : Option Datum}
    (reads : Option.Rel whole rules written) (reads' : Option.Rel left rules' (written.map withoutSilent))
    (each : ∀ d, written = some d → ∀ a b, whole a d → left b d.withoutSilent → related b a) :
    Option.Rel related rules' rules := by
  cases reads with
  | none =>
      cases reads'
      exact .none
  | some reads =>
      cases reads' with
      | some reads' => exact .some (each _ rfl _ _ reads reads')

/-- The rules for a collection that say something. -/
structure CollectionRules.SpokenOf (rules' rules : CollectionRules) : Prop where
  actions : rules'.actions.SpokenOf rules.actions
  fields : rules'.fields.SpokenOf rules.fields
  records : ∀ id : Option String, Option.Rel RecordRules.SpokenOf
    ((nonEmpty? id).bind (Entries.get? rules'.records)) ((nonEmpty? id).bind (Entries.get? rules.records))

theorem CollectionRules.Reads.spoken {rules rules' : CollectionRules} (keyed : TextKeyed entry)
    (reads : rules.Reads entry) (reads' : rules'.Reads entry.withoutSilent) : rules'.SpokenOf rules where
  actions := reads.actions.spoken keyed reads'.actions
  fields action := by
    apply writtenEach_injective
    rw [reads'.fields action, ← Datum.under?, ← writtenGroupFields, writtenGroupFields_withoutSilent keyed,
      writtenGroupFields, Datum.under?, ← reads.fields action, writtenEach_spoken]
  records id := by
    have left := reads'.record id
    rw [writtenRecord?_withoutSilent keyed] at left
    apply rel_of_left (reads.record id) left
    intro record found rules rules' whole left
    obtain ⟨key, -, found⟩ := Option.bind_eq_some_iff.mp found
    split at found
    · exact whole.spoken (textKeyed_under? keyed found) left
    · cases found

end

/-- The groups of a rule set that say something. -/
structure RuleSet.SpokenOf (ruleSet' ruleSet : RuleSet) : Prop where
  default : ruleSet'.default.actions.SpokenOf ruleSet.default.actions
  groups : ∀ collection, Option.Rel CollectionRules.SpokenOf (ruleSet'.group? collection)
    (ruleSet.group? collection)

section

variable {raw : List (Datum × Datum)} {ruleSet ruleSet' : RuleSet}

theorem writtenGroup?_withoutSilent (entries : Entries Datum) (collection : Option String) :
    writtenGroup? (.mapping (withoutSilentRules (textKeyed entries))) collection =
      (writtenGroup? (.mapping (textKeyed entries)) collection).map withoutSilent := by
  cases collection with
  | none => rfl
  | some name =>
      simp only [writtenGroup?, Option.bind_some]
      split
      · rfl
      · rw [withoutSilentRules_textKeyed, Datum.under?_textKeyed, Datum.under?_textKeyed, Entries.get?_map]

/-- Leaving out silent rules leaves an accepted raw mapping accepted, and of its rules those that say
something. -/
theorem ofEntries_withoutSilent (keyed : TextKeyed (.mapping raw))
    (accepted : RuleSet.ofEntries raw = .ok ruleSet) :
    ∃ ruleSet', RuleSet.ofEntries (withoutSilentRules raw) = .ok ruleSet' ∧ ruleSet'.SpokenOf ruleSet := by
  obtain ⟨entries, -, rfl, unique, inner⟩ := keyed.entries rfl
  let left := entries.map fun entry => (entry.1, entry.2.withoutSilent)
  have names : Entries.names left = Entries.names entries := by
    simp [left, Entries.names]
  have unique' : (Entries.names left).Nodup := names ▸ unique
  have keyed' : ∀ entry ∈ left, TextKeyed entry.2 := by
    intro entry member
    obtain ⟨before, among, rfl⟩ := List.mem_map.mp member
    exact Datum.textKeyed_withoutSilent (inner before among)
  have isLeft : withoutSilentRules (textKeyed entries) = textKeyed left := withoutSilentRules_textKeyed entries
  obtain ⟨ruleSet', accepted'⟩ : Accepted (RuleSet.ofEntries (textKeyed left)) := by
    rw [ofEntries_accepted_iff unique']
    intro entry member
    obtain ⟨before, among, rfl⟩ := List.mem_map.mp member
    exact ((ofEntries_accepted_iff unique).mp ⟨_, accepted⟩ before among).withoutSilent
  have reads := ofEntries_reads inner accepted
  have reads' := ofEntries_reads keyed' accepted'
  refine ⟨ruleSet', isLeft ▸ accepted', ?_, ?_⟩
  · have whole := (reads.defaultGroup unique).actions
    have spoken := (reads'.defaultGroup unique').actions
    have default : ((Datum.mapping (textKeyed left)).under? wildcard).getD writtenDefault =
        (((Datum.mapping (textKeyed entries)).under? wildcard).getD writtenDefault).withoutSilent := by
      rw [Datum.under?_textKeyed, Datum.under?_textKeyed, Entries.get?_map]
      cases Entries.get? entries wildcard <;> rfl
    rw [default] at spoken
    refine whole.spoken ?_ spoken
    cases found : (Datum.mapping (textKeyed entries)).under? wildcard with
    | none => exact textKeyed_writtenDefault
    | some d => exact textKeyed_under? keyed found
  · intro collection
    have left := reads'.group unique' collection
    rw [← isLeft, writtenGroup?_withoutSilent] at left
    apply rel_of_left (reads.group unique collection) left
    intro entry found rules rules' whole left
    obtain ⟨name, -, found⟩ := Option.bind_eq_some_iff.mp found
    split at found
    · cases found
    · exact whole.spoken (textKeyed_under? keyed found) left

end

theorem orBroader_filter (narrower : Option Rule) (broader : Rule) :
    Rule.orBroader (narrower.filter Rule.isDefined) broader = Rule.orBroader narrower broader := by
  cases narrower with
  | none => rfl
  | some rule =>
      rw [Option.filter_some]
      cases defined : rule.isDefined <;> simp [Rule.orBroader, defined]

/-- Rules for fields of which the undefined ones are unset. -/
def Unsilenced (fields : List (String × Rule)) : Prop :=
  ∀ field ∈ fields, field.2.isDefined = false → field.2 = .unset

theorem deniedFields_filter (scope : Expression.Scope) (attempt : Attempt) {fields : List (String × Rule)}
    (unsilenced : Unsilenced fields) :
    deniedFields scope attempt (fields.filter fun field => field.2.isDefined) =
      deniedFields scope attempt fields := by
  induction fields with
  | nil => rfl
  | cons field rest ih =>
      obtain ⟨name, rule⟩ := field
      have later := ih fun field member => unsilenced field (List.mem_cons_of_mem _ member)
      cases defined : rule.isDefined with
      | false =>
          cases unsilenced _ List.mem_cons_self defined
          rw [List.filter_cons_of_neg (by simp [defined]), later]
          rfl
      | true =>
          rw [List.filter_cons_of_pos (by simp [defined]), deniedFields, deniedFields, later]

theorem deniedFields_orBroaderFields (scope : Expression.Scope) (attempt : Attempt)
    {narrower broader : List (String × Rule)} (unsilenced : Unsilenced narrower)
    (unsilenced' : Unsilenced broader)
    (said : narrower ≠ [] → ∃ field ∈ narrower, field.2.isDefined = true) :
    deniedFields scope attempt (orBroaderFields (narrower.filter fun field => field.2.isDefined)
      (broader.filter fun field => field.2.isDefined)) =
        deniedFields scope attempt (orBroaderFields narrower broader) := by
  by_cases empty : narrower = []
  · subst empty
    exact deniedFields_filter scope attempt unsilenced'
  · obtain ⟨field, member, defined⟩ := said empty
    have left : field ∈ narrower.filter fun field => field.2.isDefined :=
      List.mem_filter.mpr ⟨member, defined⟩
    have notEmpty : (narrower.filter fun field => field.2.isDefined).isEmpty = false := by
      rw [List.isEmpty_eq_false_iff]
      exact List.ne_nil_of_mem left
    rw [orBroaderFields, notEmpty, orBroaderFields, List.isEmpty_eq_false_iff.mpr empty]
    exact deniedFields_filter scope attempt unsilenced

theorem RuleSet.SpokenOf.resolve_rule {ruleSet' ruleSet : RuleSet} (spoken : ruleSet'.SpokenOf ruleSet)
    (action : Action) (collection id : Option String) :
    (ruleSet'.resolve action collection id).rule = (ruleSet.resolve action collection id).rule := by
  have default := spoken.default action
  have group := spoken.groups collection
  simp only [RuleSet.resolve, default, orBroader_filter]
  generalize ruleSet'.group? collection = rules', ruleSet.group? collection = rules at group ⊢
  cases group with
  | none => rfl
  | some group =>
      have records := group.records id
      simp only [group.actions action, orBroader_filter]
      revert records
      generalize (nonEmpty? id).bind _ = record'
      generalize (nonEmpty? id).bind _ = record
      intro records
      cases records with
      | none => rfl
      | some records => simp only [records.actions action, orBroader_filter]

/-- Those of some rules for fields that say nothing are null. -/
def SilentIsNull (fields : List (String × Datum)) : Prop :=
  ∀ field ∈ fields, saysNothing field.2 = true → field.2 = .null

/-- What the entry of a collection must be for silent rules for fields to be without effect: they are null,
and a record that has rules for its fields has one that says something. -/
structure FieldRulesSpeak (action : Action) (entry : Datum) : Prop where
  group : SilentIsNull (writtenGroupFields action entry)
  record : ∀ key record, isRecordKey key = true → entry.under? key = some record →
    SilentIsNull (writtenFields action record) ∧
      (writtenFields action record ≠ [] → ∃ field ∈ writtenFields action record, saysNothing field.2 = false)

theorem unsilenced_of_written {fields : List (String × Rule)} (h : SilentIsNull (writtenEach fields)) :
    Unsilenced fields := by
  intro field member undefined
  have isNull := h (field.1, field.2.written) (List.mem_map.mpr ⟨field, member, rfl⟩)
    (by rw [saysNothing_written, undefined]; rfl)
  exact Rule.written_injective isNull

theorem defined_of_written {fields : List (String × Rule)}
    (said : writtenEach fields ≠ [] → ∃ field ∈ writtenEach fields, saysNothing field.2 = false)
    (notEmpty : fields ≠ []) : ∃ field ∈ fields, field.2.isDefined = true := by
  have someWritten : writtenEach fields ≠ [] := by
    simpa [writtenEach] using notEmpty
  obtain ⟨field, member, speaks⟩ := said someWritten
  obtain ⟨own, among, rfl⟩ := List.mem_map.mp member
  refine ⟨own, among, ?_⟩
  simpa [saysNothing_written] using speaks

theorem under?_of_writtenRecord? {entry record : Datum} {id : Option String}
    (found : writtenRecord? entry id = some record) :
    ∃ key, isRecordKey key = true ∧ entry.under? key = some record := by
  obtain ⟨key, -, found⟩ := Option.bind_eq_some_iff.mp found
  split at found
  · rename_i isRecord
    exact ⟨key, isRecord.2, found⟩
  · cases found

theorem deniedFields_resolve_spoken {raw : Datum} {ruleSet' ruleSet : RuleSet} (spoken : ruleSet'.SpokenOf ruleSet)
    {collection : Option String}
    (reads : Option.Rel CollectionRules.Reads (ruleSet.group? collection) (writtenGroup? raw collection))
    {action : Action} (speak : ∀ entry, writtenGroup? raw collection = some entry → FieldRulesSpeak action entry)
    (id : Option String) (scope : Expression.Scope) (attempt : Attempt) :
    deniedFields scope attempt (ruleSet'.resolve action collection id).fields =
      deniedFields scope attempt (ruleSet.resolve action collection id).fields := by
  have group := spoken.groups collection
  simp only [RuleSet.resolve]
  revert group reads speak
  generalize ruleSet'.group? collection = rules'
  generalize ruleSet.group? collection = rules
  generalize writtenGroup? raw collection = written
  intro reads speak group
  cases group with
  | none => rfl
  | @some rules' rules group =>
      cases reads with
      | @some _ entry reads =>
          have speak := speak entry rfl
          have broad : Unsilenced (rules.fields.forAction action) := by
            apply unsilenced_of_written
            rw [reads.fields action]
            exact speak.group
          have records := group.records id
          have readRecord := reads.record id
          have inEntry {record : Datum} : writtenRecord? entry id = some record → _ := under?_of_writtenRecord?
          simp only [group.fields action]
          revert records readRecord inEntry
          generalize (nonEmpty? id).bind (Entries.get? rules'.records) = record'
          generalize (nonEmpty? id).bind (Entries.get? rules.records) = record
          generalize writtenRecord? entry id = writtenRecord
          intro records readRecord inEntry
          cases records with
          | none => exact deniedFields_filter scope attempt broad
          | @some record' record records =>
              cases readRecord with
              | @some _ d readRecord =>
                  obtain ⟨key, isRecord, found⟩ := inEntry rfl
                  obtain ⟨isNull, said⟩ := speak.record key d isRecord found
                  rw [← readRecord.fields action] at isNull said
                  simp only [records.fields action]
                  exact deniedFields_orBroaderFields scope attempt (unsilenced_of_written isNull) broad
                    (defined_of_written said)

/-- Leaving out the rules of a raw mapping that say nothing changes no rule for an action, and enforcing is
the same, with all that it leaves on the heap, for each attempt on a collection in the entry of which silent
rules for fields are null and do not make up all that a record has. -/
theorem enforce_without_silent_rules {raw : List (Datum × Datum)} {ruleSet : RuleSet}
    (keyed : TextKeyed (.mapping raw)) (accepted : RuleSet.ofEntries raw = .ok ruleSet) :
    ∃ ruleSet', RuleSet.ofEntries (withoutSilentRules raw) = .ok ruleSet' ∧
      (∀ action collection id, (ruleSet'.resolve action collection id).rule =
        (ruleSet.resolve action collection id).rule) ∧
      ∀ (lookup : Lookup) (attempt : Attempt),
        (∀ entry, writtenGroup? (.mapping raw) attempt.collection = some entry →
          FieldRulesSpeak attempt.action entry) →
        enforce ruleSet' lookup attempt = enforce ruleSet lookup attempt := by
  obtain ⟨ruleSet', accepted', spoken⟩ := ofEntries_withoutSilent keyed accepted
  refine ⟨ruleSet', accepted', spoken.resolve_rule, ?_⟩
  intro lookup attempt speak
  obtain ⟨entries, -, rfl, unique, inner⟩ := keyed.entries rfl
  have reads := (ofEntries_reads inner accepted).group unique attempt.collection
  have sameKey (id : Value) : recordKey ruleSet' attempt.collection id =
      recordKey ruleSet attempt.collection id := by
    have known := spoken.groups attempt.collection
    simp only [recordKey]
    generalize ruleSet'.group? attempt.collection = rules' at known ⊢
    generalize ruleSet.group? attempt.collection = rules at known ⊢
    cases known <;> rfl
  simp only [enforce, sameKey, spoken.resolve_rule, deniedFields_resolve_spoken spoken reads speak]

/-- The heap with a note at its only address. -/
def heapOfNote : Expression.Heap :=
  ⟨#[.object [("_id", .plain (.str "n1")), ("text", .plain (.str "t"))]]⟩

/-- Someone unknown tries something on that note. -/
def attemptOnNote (action : Action) : Attempt where
  action
  collection := some "notes"
  caller := none
  data := .shared 0
  newData := none
  override := false

def noLookup : Lookup := fun _ _ => .error ""

/-- Rules for notes of which the one for reading and the one for the text say nothing. -/
def silentNotes : Entries Datum :=
  [("notes", .mapping (textKeyed [(".read", .str ""),
    ("*", .mapping (textKeyed [("text", .mapping (textKeyed [(".read", .null)]))]))]))]

theorem enforce_without_silent_rules_for_notes :
    TextKeyed (.mapping (textKeyed silentNotes)) ∧
      ∃ ruleSet ruleSet', RuleSet.ofEntries (textKeyed silentNotes) = .ok ruleSet ∧
        RuleSet.ofEntries (withoutSilentRules (textKeyed silentNotes)) = .ok ruleSet' ∧
        enforce ruleSet' noLookup (attemptOnNote .read) = enforce ruleSet noLookup (attemptOnNote .read) := by
  have keyedText : TextKeyed (.mapping (textKeyed [(".read", .null)])) :=
    .flat (by simp [Entries.names]) (by simp [Datum.entries?])
  have keyedGroup : TextKeyed (.mapping (textKeyed [("text", .mapping (textKeyed [(".read", .null)]))])) :=
    .mapping (by simp [Entries.names]) (List.forall_mem_singleton.mpr keyedText)
  have keyed : TextKeyed (.mapping (textKeyed silentNotes)) := by
    refine .mapping (by decide) (List.forall_mem_singleton.mpr (.mapping (by decide) ?_))
    exact List.forall_mem_cons.mpr ⟨.other rfl, List.forall_mem_singleton.mpr keyedGroup⟩
  obtain ⟨ruleSet', accepted', -, same⟩ := enforce_without_silent_rules keyed rfl
  refine ⟨keyed, _, ruleSet', rfl, accepted', same noLookup (attemptOnNote .read) ?_⟩
  intro entry found
  cases found
  constructor
  · intro field member _
    cases List.mem_singleton.mp member
    rfl
  · intro key record isRecord found
    have among := Entries.mem_of_get? found
    simp only [Datum.textEntries_textKeyed, List.mem_cons, Prod.mk.injEq, List.not_mem_nil, or_false] at among
    rcases among with ⟨rfl, -⟩ | ⟨rfl, -⟩
    · cases isRecord
    · cases isRecord

/-- Rules for notes with an empty list for their text. -/
def emptyListNotes : Entries Datum :=
  [("notes", .mapping (textKeyed
    [("*", .mapping (textKeyed [("text", .mapping (textKeyed [(".read", .list [])]))]))]))]

/-- An empty list denies everyone the text of a note, which all may read without it. -/
theorem empty_list_denies_field :
    ∃ ruleSet ruleSet' heap heap', RuleSet.ofEntries (textKeyed emptyListNotes) = .ok ruleSet ∧
      RuleSet.ofEntries (withoutSilentRules (textKeyed emptyListNotes)) = .ok ruleSet' ∧
      enforce ruleSet noLookup (attemptOnNote .read) heapOfNote = .ok ["text"] heap ∧
      enforce ruleSet' noLookup (attemptOnNote .read) heapOfNote = .ok [] heap' :=
  ⟨_, _, _, _, rfl, rfl, rfl, rfl⟩

end Access

end GuardedStore
