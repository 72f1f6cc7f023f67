import GuardedStore.Proofs.Query.Arrangement
import GuardedStore.Proofs.Query.Blindness
import GuardedStore.Proofs.Query.Cutting
import GuardedStore.Proofs.Value.Range

/-! # How filtering ends

A text that filters records is understood, or refused in so many words. What else can end the filtering is an
operator that merely looks like one, an integer beyond the range where a clause reads numbers, and a list or
object that holds itself where a clause reads its text.
-/

namespace GuardedStore.Query

/-- Why a clause cannot be decided for a record. -/
inductive Clause.Stops (clause : Clause) (record : Record) : Fault → Prop
  /-- A number is read of the field and of the literal, one of which is an integer beyond the range. -/
  | outOfRange (reads : clause.operator ≠ .like ∧ clause.operator ≠ .memberOf)
      (number : clause.literal.IsOutsized ∨ (record.value clause.field).IsOutsized) :
      Stops clause record .outOfRange
  /-- The text is read of a field that holds itself. -/
  | circular (reads : clause.operator = .like) (holdsItself : record.isCircularAt clause.field = true) :
      Stops clause record .circular

variable {records kept : List Record} {record : Record} {clauses : List Clause} {clause : Clause}
  {filter : Filter} {fault : Fault} {text : String}

theorem Clause.stops_of_lifted {value : Except OutOfRange Bool} {e : Fault}
    (reads : clause.operator ≠ .like ∧ clause.operator ≠ .memberOf)
    (number : ∀ fault, value = .error fault →
      (record.value clause.field).IsOutsized ∨ clause.literal.IsOutsized)
    (h : (liftM value : Except Fault Bool) = .error e) : clause.Stops record e := by
  cases value with
  | ok b => cases h
  | error fault =>
      cases h
      exact .outOfRange reads (number fault rfl).symm

theorem Clause.outsized_of_ordered {accepts : Ordering → Bool} {value literal : Value} {e : OutOfRange}
    (h : ordered accepts value literal = .error e) : value.IsOutsized ∨ literal.IsOutsized := by
  rcases except_bind_error_iff.mp h with h | ⟨order, -, h⟩
  · exact Value.outsized_of_order? h
  · cases order <;> cases h

theorem Clause.stops_of_holds (h : clause.holds record = .error fault) : clause.Stops record fault := by
  simp only [Clause.holds] at h
  split at h
  · rename_i operator
    exact stops_of_lifted (by simp [operator]) (fun _ => outsized_of_ordered) h
  · rename_i operator
    exact stops_of_lifted (by simp [operator]) (fun _ => outsized_of_ordered) h
  · rename_i operator
    exact stops_of_lifted (by simp [operator]) (fun _ => outsized_of_ordered) h
  · rename_i operator
    exact stops_of_lifted (by simp [operator]) (fun _ => outsized_of_ordered) h
  · rename_i operator
    split at h
    · cases h
    · exact stops_of_lifted (by simp [operator]) (fun _ => Value.outsized_of_looseEquals) h
  · rename_i operator
    split at h
    · rename_i holdsItself
      cases h
      exact .circular operator holdsItself
    · cases h
  · cases h

theorem Clause.stops_of_allHold (h : allHold record clauses = .error fault) :
    ∃ clause ∈ clauses, clause.Stops record fault := by
  induction clauses with
  | nil => cases h
  | cons clause rest ih =>
      rcases except_bind_error_iff.mp h with h | ⟨held, -, h⟩
      · exact ⟨clause, List.mem_cons_self, stops_of_holds h⟩
      · cases held with
        | true =>
            obtain ⟨other, later, stops⟩ := ih h
            exact ⟨other, List.mem_cons_of_mem _ later, stops⟩
        | false => cases h

theorem Clause.stops_of_someHolds (h : someHolds record clauses = .error fault) :
    ∃ clause ∈ clauses, clause.Stops record fault := by
  induction clauses with
  | nil => cases h
  | cons clause rest ih =>
      rcases except_bind_error_iff.mp h with h | ⟨held, -, h⟩
      · exact ⟨clause, List.mem_cons_self, stops_of_holds h⟩
      · cases held with
        | true => cases h
        | false =>
            obtain ⟨other, later, stops⟩ := ih h
            exact ⟨other, List.mem_cons_of_mem _ later, stops⟩

theorem Filter.stops_of_keeps (h : filter.keeps record = .error fault) :
    ∃ clause ∈ filter.clauses, clause.Stops record fault := by
  cases filter with
  | all clauses => exact Clause.stops_of_allHold h
  | any clauses => exact Clause.stops_of_someHolds h

theorem Filter.stops_of_apply (h : filter.apply records = .error fault) :
    ∃ record ∈ records, ∃ clause ∈ filter.clauses, clause.Stops record fault := by
  induction records with
  | nil => cases h
  | cons record rest ih =>
      rcases except_bind_error_iff.mp h with h | ⟨held, -, h⟩
      · exact ⟨record, List.mem_cons_self, Filter.stops_of_keeps h⟩
      · rcases except_bind_error_iff.mp h with h | ⟨others, -, h⟩
        · obtain ⟨other, later, stops⟩ := ih h
          exact ⟨other, List.mem_cons_of_mem _ later, stops⟩
        · cases h

theorem Clause.lookAlike_of_ofText {cs : List Char} (h : Clause.ofText cs = .error .unknownOperator) :
    ∃ c ∈ cs, IsLookAlike c := by
  unfold Clause.ofText at h
  split at h
  · cases h
  · rename_i field operator literal cut
    split at h
    · cases h
    · split at h
      · exact lookAlike_of_cutClause? cut
      · cases h

theorem Clause.lookAlike_of_ofTexts {parts : List (List Char)}
    (h : Clause.ofTexts parts = .error .unknownOperator) : ∃ part ∈ parts, ∃ c ∈ part, IsLookAlike c := by
  induction parts with
  | nil => cases h
  | cons part rest ih =>
      rcases except_bind_error_iff.mp h with h | ⟨clause, -, h⟩
      · exact ⟨part, List.mem_cons_self, Clause.lookAlike_of_ofText h⟩
      · rcases except_bind_error_iff.mp h with h | ⟨others, -, h⟩
        · obtain ⟨other, later, like⟩ := ih h
          exact ⟨other, List.mem_cons_of_mem _ later, like⟩
        · cases h

/-- A text has an unknown operator only where a letter of it merely looks like one. -/
theorem Filter.lookAlike_of_ofText (h : Filter.ofText text = .error .unknownOperator) :
    ∃ c ∈ text.toList, IsLookAlike c := by
  have ofParts {word : List Char} (h : Clause.ofTexts (splitAtWord word [] text.toList.length text.toList) =
      .error .unknownOperator) : ∃ c ∈ text.toList, IsLookAlike c := by
    obtain ⟨part, isPart, c, inside, like⟩ := Clause.lookAlike_of_ofTexts h
    rcases mem_of_splitAtWord isPart inside with none | inside
    · cases none
    · exact ⟨c, inside, like⟩
  simp only [Filter.ofText] at h
  split at h
  · rcases except_bind_error_iff.mp h with h | ⟨clauses, -, h⟩
    · exact ofParts h
    · cases h
  · split at h
    · rcases except_bind_error_iff.mp h with h | ⟨clauses, -, h⟩
      · exact ofParts h
      · cases h
    · rcases except_bind_error_iff.mp h with h | ⟨clause, -, h⟩
      · obtain ⟨c, inside, like⟩ := Clause.lookAlike_of_ofText h
        exact ⟨c, (Text.stripEnds_sublist _ _).subset inside, like⟩
      · cases h

/-- How arranging records by a filter can end. -/
inductive FilterEnds (records : List Record) (text : String) : Except Fault (List Record) → Prop
  | kept {kept : List Record} (sub : kept.Sublist records) : FilterEnds records text (.ok kept)
  /-- The text is not understood. -/
  | refused {refusal : Refusal} (kind : refusal.kind = .request)
      (message : refusal.message = "Could not parse WHERE clause, check your syntax.") :
      FilterEnds records text (.error (.refused refusal))
  | unknownOperator {c : Char} (inside : c ∈ text.toList) (like : IsLookAlike c) :
      FilterEnds records text (.error .unknownOperator)
  /-- The text is understood, but a clause of it cannot be decided for a record. -/
  | stopped {filter : Filter} {clause : Clause} {record : Record} {fault : Fault}
      (understood : Filter.ofText text = .ok filter) (asked : clause ∈ filter.clauses)
      (member : record ∈ records) (stops : clause.Stops record fault) :
      FilterEnds records text (.error fault)

theorem Filter.ofText_ends (records : List Record) (text : String) :
    FilterEnds records text (do
      let filter ← (Filter.ofText text).mapError FilterFault.fault
      filter.apply records) := by
  cases read : Filter.ofText text with
  | error flaw =>
      cases flaw with
      | unreadable => exact .refused rfl rfl
      | unknownOperator =>
          obtain ⟨c, inside, like⟩ := Filter.lookAlike_of_ofText read
          exact .unknownOperator inside like
  | ok filter =>
      change FilterEnds records text (filter.apply records)
      cases applied : filter.apply records with
      | ok kept => exact .kept (Filter.apply_sublist applied)
      | error fault =>
          obtain ⟨record, member, clause, asked, stops⟩ := Filter.stops_of_apply applied
          exact .stopped read asked member stops

theorem filterRecords_ends (records : List Record) (text : String) :
    FilterEnds records text (filterRecords (some text) records) := by
  by_cases blank : text.isEmpty = true
  · simp only [filterRecords, given?, Option.filter, blank]
    exact .kept (.refl records)
  · simp only [filterRecords, given?, Option.filter, blank]
    exact Filter.ofText_ends records text

/-- Where only a filter is given, arranging is filtering. -/
theorem Engine.arrange_filter (engine : Engine) (records : List Record) (text : String) :
    engine.arrange records { filter := some text } = filterRecords (some text) records := by
  have noKeys (kept : List Record) : sortRecords kept (SortKey.ofParameter none) = .ok kept := by
    have none : SortKey.ofParameter none = [] := by decide
    rw [none, sortRecords]
    simp [anyCircular, sort]
  simp only [Engine.arrange]
  cases filterRecords (some text) records with
  | error fault => rfl
  | ok kept =>
      change (do
        let sorted ← sortRecords kept (SortKey.ofParameter none)
        distinctRecords none (paginate engine.defaultPageSize sorted none none)) = _
      rw [noKeys]
      rfl

/-- Arranging records by nothing but a filter leaves some of them out or refuses the text. Any other end
it comes to by a look-alike of an operator, by an integer beyond the range or by a field that holds
itself. -/
theorem arrange_by_filter_ends (engine : Engine) (records : List Record) (text : String) :
    FilterEnds records text (engine.arrange records { filter := some text }) := by
  rw [Engine.arrange_filter]
  exact filterRecords_ends records text

/-- Whether an end is a list of records or the refusal of a text that is not understood. -/
def listsOrRefuses : Except Fault (List Record) → Bool
  | .ok _ => true
  | .error fault => fault = .refused .filterUnreadable

/-- A small i without its dot makes an operator that is found but not known, and an order asks for the
numeric reading of any integer. -/
theorem neither_listed_nor_refused :
    listsOrRefuses ((default : Engine).arrange [.plain [("x", .int 1)]] { filter := some "x \u0131n 1" }) =
        false ∧
      listsOrRefuses ((default : Engine).arrange [.plain [("x", .int (10 ^ 400))]]
        { filter := some "x<1" }) = false := by
  decide +kernel

end GuardedStore.Query
