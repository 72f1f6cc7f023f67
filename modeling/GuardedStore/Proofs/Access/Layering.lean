import GuardedStore.Proofs.Access.RawReading

/-! # Rules looked up where they are written

The rules that apply to an action can be found in the raw mapping itself. The rule is what stands under the
key of the action in the entry of the record, of the collection or of the default group, whichever is the
narrowest that says something; the rules for fields are those of the record, if it has any for the action,
and those of the collection otherwise.
-/

namespace GuardedStore.Access

open Datum (textKeyed TextKeyed)

/-- Whether a written rule says nothing: null, an empty text or an empty list. -/
def saysNothing : Datum → Bool
  | .null => true
  | .str source => source.isEmpty
  | .list tags => tags.isEmpty
  | _ => false

/-- The first of some written rules, of which each may be missing, that says something; permission if
none does. -/
def firstSaid (rules : List (Option Datum)) : Datum :=
  (rules.reduceOption.find? fun rule => !saysNothing rule).getD (.bool true)

/-- The entry of a collection. -/
def writtenGroup? (raw : Datum) (collection : Option String) : Option Datum :=
  collection.bind fun name => if name = "" ∨ name = wildcard then none else raw.under? name

/-- The entry of a record in that of its collection. -/
def writtenRecord? (entry : Datum) (id : Option String) : Option Datum :=
  id.bind fun key => if key ≠ "" ∧ isRecordKey key then entry.under? key else none

/-- The rules that apply to an action, as they are written. -/
structure WrittenRules where
  rule : Datum
  fields : List (String × Datum)

/-- What a raw mapping says about an action on a record of a collection. -/
def lookUp (raw : Datum) (action : Action) (collection id : Option String) : WrittenRules :=
  let default := (raw.under? wildcard).getD writtenDefault
  let group := writtenGroup? raw collection
  let record := group.bind (writtenRecord? · id)
  let recordFields := (record.map (writtenFields action)).getD []
  let groupFields := ((group.bind (·.under? wildcard)).map (writtenFields action)).getD []
  { rule := firstSaid [record.bind (·.under? action.key), group.bind (·.under? action.key),
      default.under? action.key]
    fields := if recordFields.isEmpty then groupFields else recordFields }

/-- Resolved rules as they are written. -/
def ResolvedRules.written (rules : ResolvedRules) : WrittenRules where
  rule := rules.rule.written
  fields := writtenEach rules.fields

theorem saysNothing_written (rule : Rule) : saysNothing rule.written = !rule.isDefined := by
  cases rule <;> simp [saysNothing, Rule.written, Rule.isDefined]

theorem written_orBroader (narrower : Option Rule) {broader : Rule} {rest : List (Option Datum)}
    (h : broader.written = firstSaid rest) :
    (Rule.orBroader narrower broader).written = firstSaid (narrower.map Rule.written :: rest) := by
  cases narrower with
  | none => exact h
  | some rule =>
      have silent := saysNothing_written rule
      by_cases defined : rule.isDefined = true
      · simp [Rule.orBroader, firstSaid, defined, silent]
      · simp only [firstSaid] at h
        simp [Rule.orBroader, firstSaid, defined, silent, h]

theorem written_orBroaderFields (narrower broader : List (String × Rule)) :
    writtenEach (orBroaderFields narrower broader) =
      if (writtenEach narrower).isEmpty then writtenEach broader else writtenEach narrower := by
  cases narrower <;> simp [orBroaderFields, writtenEach]

theorem CollectionRules.Reads.record {rules : CollectionRules} {d : Datum} (h : rules.Reads d)
    (id : Option String) :
    Option.Rel RecordRules.Reads ((nonEmpty? id).bind (Entries.get? rules.records)) (writtenRecord? d id) := by
  cases id with
  | none => exact .none
  | some key =>
      have related := h.records key
      rw [← Datum.under?] at related
      by_cases empty : key = ""
      · subst empty
        exact .none
      · simpa [nonEmpty?, writtenRecord?, Option.filter, empty] using related

section

variable {raw : List (Datum × Datum)} {entries : Entries Datum} {ruleSet : RuleSet}

theorem RuleSet.Reads.group (unique : (Entries.names entries).Nodup)
    (h : ruleSet.Reads (Entries.overlay [(wildcard, writtenDefault)] entries))
    (collection : Option String) :
    Option.Rel CollectionRules.Reads (ruleSet.group? collection)
      (writtenGroup? (.mapping (textKeyed entries)) collection) := by
  cases collection with
  | none => exact .none
  | some name =>
      have related := h.collections name
      by_cases empty : name = ""
      · subst empty
        exact .none
      · by_cases isWildcard : name = wildcard
        · simp only [isWildcard, if_true] at empty related
          simpa [RuleSet.group?, nonEmpty?, writtenGroup?, Option.filter, empty, isWildcard] using related
        · rw [Entries.get?_overlay unique, Entries.get?_cons, if_neg (Ne.symm isWildcard)] at related
          simpa [RuleSet.group?, nonEmpty?, writtenGroup?, Option.filter, empty, isWildcard] using related

theorem RuleSet.Reads.defaultGroup (unique : (Entries.names entries).Nodup)
    (h : ruleSet.Reads (Entries.overlay [(wildcard, writtenDefault)] entries)) :
    ruleSet.default.Reads (((Datum.mapping (textKeyed entries)).under? wildcard).getD writtenDefault) := by
  refine h.default _ ?_
  rw [Entries.get?_overlay unique, Entries.get?_cons, if_pos rfl, Datum.under?_textKeyed]
  cases Entries.get? entries wildcard <;> rfl

/-- What applies to an action is what the raw mapping says when it is looked up there: the rule of the
narrowest entry that says something, and the rules for fields of the narrowest one that has some. -/
theorem resolve_as_written (keyed : TextKeyed (.mapping raw))
    (accepted : RuleSet.ofEntries raw = .ok ruleSet) (action : Action) (collection id : Option String) :
    (ruleSet.resolve action collection id).written = lookUp (.mapping raw) action collection id := by
  obtain ⟨entries, -, rfl, unique, inner⟩ := keyed.entries rfl
  have reads := ofEntries_reads inner accepted
  have default := (reads.defaultGroup unique).actions action
  have group := reads.group unique collection
  have noRule : (Rule.flag true).written = firstSaid [] := rfl
  have defaultRule := written_orBroader (ruleSet.default.actions.rule? action) noRule
  rw [default] at defaultRule
  simp only [RuleSet.resolve, lookUp]
  generalize ruleSet.group? collection = rules, writtenGroup? _ collection = entry at group ⊢
  cases group with
  | none => simpa [ResolvedRules.written, writtenEach, firstSaid] using defaultRule
  | some said =>
      rename_i rules entry
      have groupFields := said.fields action
      rw [← Datum.under?] at groupFields
      have groupRule := written_orBroader (rules.actions.rule? action) defaultRule
      rw [said.actions action] at groupRule
      have record := said.record id
      simp only [Option.bind_some]
      generalize (nonEmpty? id).bind _ = rules', writtenRecord? entry id = entry' at record ⊢
      cases record with
      | none => simpa [ResolvedRules.written, firstSaid, groupFields] using groupRule
      | some said' =>
          rename_i rules' entry'
          have recordRule := written_orBroader (rules'.actions.rule? action) groupRule
          rw [said'.actions action] at recordRule
          simp only [ResolvedRules.written, Option.bind_some, Option.map_some, Option.getD_some]
          rw [written_orBroaderFields, said'.fields action, groupFields, recordRule]

end

/-- Rules for notes with a wildcard among the fields of a note. -/
def rawNotes : Entries Datum :=
  [("notes", .mapping (textKeyed
    [(".update", .str "data.open"),
      ("n1", .mapping (textKeyed
        [(".update", .list []), ("text", .mapping (textKeyed [(".update", .null)])),
          ("*", .mapping (textKeyed [(".read", .bool false), (".update", .bool true)]))])),
      ("*", .mapping (textKeyed [("tags", .mapping (textKeyed [(".update", .bool false)]))]))]))]

/-- The first note has rules for fields, and an empty one for itself, which says nothing. -/
theorem resolve_as_written_first_note :
    TextKeyed (.mapping (textKeyed rawNotes)) ∧
      ∃ ruleSet, RuleSet.ofEntries (textKeyed rawNotes) = .ok ruleSet ∧
        (ruleSet.resolve .update (some "notes") (some "n1")).written =
          ⟨.str "data.open", [("text", .null), ("*", .bool true)]⟩ := by
  have keyed : TextKeyed (.mapping (textKeyed rawNotes)) := by
    refine .mapping (by decide) (List.forall_mem_singleton.mpr (.mapping (by decide) ?_))
    refine List.forall_mem_cons.mpr ⟨.other rfl, List.forall_mem_cons.mpr ⟨.mapping (by decide) ?_,
      List.forall_mem_singleton.mpr (.mapping (by decide) ?_)⟩⟩
    · exact List.forall_mem_cons.mpr ⟨.other rfl, List.forall_mem_cons.mpr
        ⟨.flat (by decide) (by decide), List.forall_mem_singleton.mpr (.flat (by decide) (by decide))⟩⟩
    · exact List.forall_mem_singleton.mpr (.flat (by decide) (by decide))
  refine ⟨keyed, _, rfl, ?_⟩
  rw [resolve_as_written keyed rfl]
  rfl

end GuardedStore.Access
