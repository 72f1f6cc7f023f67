import GuardedStore.Proofs.Query.Writing
import GuardedStore.Proofs.Value.Likeness
import GuardedStore.Proofs.Value.Range

/-! # What filters mean

A filter that is written as clauses with `and` or `or` between them keeps the records for which all of them,
or some of them, hold as they are meant. This is asked of records whose values can be compared: no integer
is beyond the range, and nothing holds itself.
-/

namespace GuardedStore

/-- Whatever is asked of the fields of a record has an answer. -/
structure Record.Comparable (record : Record) : Prop where
  inRange : ∀ field ∈ record.fields, ¬ field.2.IsOutsized
  straight : record.isCircular = false

namespace Record

variable {record : Record}

theorem Comparable.value (comparable : record.Comparable) (name : String) :
    ¬ (record.value name).IsOutsized := by
  rw [Record.value, Value.fieldOrNull]
  cases found : Entries.get? record.fields name with
  | none =>
      rintro ⟨n, same, -⟩
      cases same
  | some v => exact comparable.inRange _ (Entries.mem_of_get? found)

theorem Comparable.isCircularAt (comparable : record.Comparable) (name : String) :
    record.isCircularAt name = false := by
  cases found : Entries.get? record.fields name with
  | none =>
      simp only [Record.isCircularAt, Record.value, Value.fieldOrNull, found]
      split <;> simp [Value.holdsItself]
  | some v =>
      simpa using List.any_eq_false.mp comparable.straight _ (Entries.mem_of_get? found)

end Record

theorem Text.occursIn_iff {needle cs : List Char} : Text.occursIn needle cs = true ↔ needle <:+: cs := by
  induction cs with
  | nil => simp [Text.occursIn]
  | cons c cs ih =>
      rw [Text.occursIn, Bool.or_eq_true, ih, List.infix_cons_iff, List.isPrefixOf_iff_prefix]

namespace Query

variable {record : Record} {clause : Clause} {clauses : List Clause}

/-- The field and the literal are in an order that is accepted. A missing field is comparable with
nothing. -/
def Clause.Ordered (clause : Clause) (record : Record) (accepts : Ordering → Bool) : Prop :=
  ∃ order, Value.order? (record.value clause.field) clause.literal = .ok (some order) ∧
    accepts order = true

/-- The clause holds for the record as it is meant. -/
def Clause.Means (clause : Clause) (record : Record) : Prop :=
  match clause.operator with
  | .lessOrEqual => clause.Ordered record Ordering.isLE
  | .less => clause.Ordered record Ordering.isLT
  | .greaterOrEqual => clause.Ordered record Ordering.isGE
  | .greater => clause.Ordered record Ordering.isGT
  | .equal => Value.looseEquals (record.value clause.field) clause.literal = .ok true
  | .like => record.value clause.field ≠ .null ∧
      (Text.lowerCase clause.literal.plainText).toList <:+:
        (Text.lowerCase (record.value clause.field).plainText).toList
  | .memberOf => ∃ value items, Entries.get? record.fields clause.field = some value ∧
      clause.literal = .list items ∧ ∃ item ∈ items, Value.strictEquals value item = true

/-- An answer that is as it is meant to be. -/
def Decides (answer : Except Fault Bool) (meaning : Prop) : Prop :=
  ∃ b, answer = .ok b ∧ (b = true ↔ meaning)

theorem Decides.congr {answer : Except Fault Bool} {meaning meaning' : Prop} (h : Decides answer meaning)
    (same : meaning ↔ meaning') : Decides answer meaning' :=
  let ⟨b, done, meant⟩ := h
  ⟨b, done, meant.trans same⟩

theorem Clause.decides_ordered {accepts : Ordering → Bool}
    (small : ¬ (record.value clause.field).IsOutsized) (small' : ¬ clause.literal.IsOutsized) :
    Decides (liftM (ordered accepts (record.value clause.field) clause.literal))
      (clause.Ordered record accepts) := by
  unfold ordered Clause.Ordered
  cases read : Value.order? (record.value clause.field) clause.literal with
  | error fault =>
      rcases Value.outsized_of_order? read with outsized | outsized
      · exact absurd outsized small
      · exact absurd outsized small'
  | ok order =>
      cases order with
      | none => exact ⟨false, rfl, by simp⟩
      | some order => exact ⟨accepts order, rfl, by simp⟩

theorem Clause.decides_equal (small : ¬ (record.value clause.field).IsOutsized)
    (small' : ¬ clause.literal.IsOutsized) :
    Decides (liftM (Value.looseEquals (record.value clause.field) clause.literal))
      (Value.looseEquals (record.value clause.field) clause.literal = .ok true) := by
  cases read : Value.looseEquals (record.value clause.field) clause.literal with
  | error fault =>
      rcases Value.outsized_of_looseEquals read with outsized | outsized
      · exact absurd outsized small
      · exact absurd outsized small'
  | ok b => exact ⟨b, rfl, by simp⟩

theorem containsText_iff {value literal : Value} :
    Clause.containsText value literal = true ↔
      value ≠ .null ∧ (Text.lowerCase literal.plainText).toList <:+:
        (Text.lowerCase value.plainText).toList := by
  cases value with
  | null => simp [Clause.containsText]
  | _ => simp [Clause.containsText, Text.occursIn_iff]

theorem isMember_iff {value literal : Value} :
    Clause.isMember value literal = true ↔
      ∃ items, literal = .list items ∧ ∃ item ∈ items, Value.strictEquals value item = true := by
  cases literal with
  | list items => simp [Clause.isMember]
  | _ => simp [Clause.isMember]

theorem Clause.holds_decides (comparable : record.Comparable) (small : ¬ clause.literal.IsOutsized) :
    Decides (clause.holds record) (clause.Means record) := by
  have straight := comparable.isCircularAt clause.field
  have small' := comparable.value clause.field
  simp only [Clause.holds, Clause.Means, straight]
  cases clause.operator with
  | lessOrEqual => exact decides_ordered small' small
  | less => exact decides_ordered small' small
  | greaterOrEqual => exact decides_ordered small' small
  | greater => exact decides_ordered small' small
  | equal => exact decides_equal small' small
  | like => exact ⟨_, rfl, containsText_iff⟩
  | memberOf =>
      refine ⟨_, rfl, ?_⟩
      rw [Bool.not_false, Bool.and_true, Bool.and_eq_true, isMember_iff, Entries.has_eq_isSome,
        Record.value, Value.fieldOrNull]
      cases Entries.get? record.fields clause.field with
      | none => simp
      | some value => simp

theorem allHold_decides (h : ∀ clause ∈ clauses, Decides (clause.holds record) (clause.Means record)) :
    Decides (Clause.allHold record clauses) (∀ clause ∈ clauses, clause.Means record) := by
  induction clauses with
  | nil => exact ⟨true, rfl, by simp⟩
  | cons clause rest ih =>
      obtain ⟨first, others⟩ := List.forall_mem_cons.mp h
      obtain ⟨held, done, meant⟩ := first
      simp only [Clause.allHold, done, List.forall_mem_cons, ← meant]
      cases held with
      | false => exact ⟨false, rfl, by simp⟩
      | true => exact (ih others).congr (by simp)

theorem someHolds_decides (h : ∀ clause ∈ clauses, Decides (clause.holds record) (clause.Means record)) :
    Decides (Clause.someHolds record clauses) (∃ clause ∈ clauses, clause.Means record) := by
  induction clauses with
  | nil => exact ⟨false, rfl, by simp⟩
  | cons clause rest ih =>
      obtain ⟨first, others⟩ := List.forall_mem_cons.mp h
      obtain ⟨held, done, meant⟩ := first
      simp only [Clause.someHolds, done, List.exists_mem_cons_iff, ← meant]
      cases held with
      | false => exact (ih others).congr (by simp)
      | true => exact ⟨true, rfl, by simp⟩

namespace WrittenClause

/-- What is written holds for the record as it is meant. -/
def Means (written : WrittenClause) (record : Record) : Prop :=
  ∃ clause, written.clause? = some clause ∧ clause.Means record

/-- The literal is no integer beyond the range. -/
def Comparable (written : WrittenClause) : Prop :=
  ∀ clause ∈ written.clause?, ¬ clause.literal.IsOutsized

instance (written : WrittenClause) : Decidable written.Comparable :=
  inferInstanceAs (Decidable (∀ clause ∈ written.clause?, ¬ clause.literal.IsOutsized))

/-- All of the clauses, or some of them. -/
def Together (connective : Expression.Connective) (clauses : List WrittenClause) (record : Record) : Prop :=
  match connective with
  | .and => ∀ written ∈ clauses, written.Means record
  | .or => ∃ written ∈ clauses, written.Means record

variable {written : WrittenClause} {writtens : List WrittenClause} {read : List Clause}

theorem means_iff {clause : Clause} (same : written.clause? = some clause) :
    written.Means record ↔ clause.Means record := by
  simp [Means, same]

theorem all_mean_iff (related : AreRead writtens read) :
    (∀ written ∈ writtens, written.Means record) ↔ ∀ clause ∈ read, clause.Means record := by
  induction related with
  | nil => simp
  | cons same _ ih => rw [List.forall_mem_cons, List.forall_mem_cons, means_iff same, ih]

theorem some_means_iff (related : AreRead writtens read) :
    (∃ written ∈ writtens, written.Means record) ↔ ∃ clause ∈ read, clause.Means record := by
  induction related with
  | nil => simp
  | cons same _ ih => rw [List.exists_mem_cons_iff, List.exists_mem_cons_iff, means_iff same, ih]

theorem small_of_related (related : AreRead writtens read)
    (comparable : ∀ written ∈ writtens, written.Comparable) :
    ∀ clause ∈ read, ¬ clause.literal.IsOutsized := by
  induction related with
  | nil => exact nofun
  | cons same _ ih =>
      obtain ⟨first, others⟩ := List.forall_mem_cons.mp comparable
      exact List.forall_mem_cons.mpr ⟨first _ same, ih others⟩

theorem ofClauses_decides (connective : Expression.Connective) (nonempty : writtens ≠ [])
    (h : ∀ clause ∈ read, Decides (clause.holds record) (clause.Means record))
    (related : AreRead writtens read) :
    Decides ((Filter.ofClauses connective read).keeps record) (Together connective writtens record) := by
  have all := (allHold_decides h).congr (all_mean_iff related).symm
  have some := (someHolds_decides h).congr (some_means_iff related).symm
  cases connective with
  | and => exact all
  | or =>
      cases related with
      | nil => exact absurd rfl nonempty
      | cons same related =>
          cases related with
          | nil => exact all.congr (by simp [Together])
          | cons _ _ => exact some

/-- Clauses with a word between them are read as a filter that decides about a record as they are meant: it
keeps a record for which all of them hold when the word is `and`, and some of them when it is `or`. -/
theorem filter_means (connective : Expression.Connective) {clauses : List WrittenClause}
    (nonempty : clauses ≠ []) (wellFormed : ∀ written ∈ clauses, written.WellFormed) :
    ∃ filter, Filter.ofText (joined connective clauses) = .ok filter ∧
      ∀ record : Record, record.Comparable → (∀ written ∈ clauses, written.Comparable) →
        Decides (filter.keeps record) (Together connective clauses record) := by
  obtain ⟨read, related, ofText⟩ := ofText_joined connective nonempty wellFormed
  refine ⟨_, ofText, fun record comparable small => ?_⟩
  refine ofClauses_decides connective nonempty (fun clause member => ?_) related
  exact Clause.holds_decides comparable (small_of_related related small clause member)

/-- A comparison, a search in a text and a search in a list. -/
def grownMembers : List WrittenClause :=
  [⟨"age", .greaterOrEqual, "18"⟩, ⟨"name", .like, "\"an\""⟩, ⟨"team", .memberOf, "1, \"red\""⟩]

theorem grownMembers_wellFormed : ∀ written ∈ grownMembers, written.WellFormed := by
  have word : ∀ written ∈ grownMembers, written.field.toList.all isWordCharacter = true := by
    decide +kernel
  intro written member
  have isWord := List.all_eq_true.mp (word written member)
  simp only [grownMembers, List.mem_cons, List.not_mem_nil, or_false] at member
  rcases member with rfl | rfl | rfl <;> refine ⟨?_, isWord, ?_, ?_, ?_, ?_, ?_, ?_⟩ <;> decide +kernel

/-- A record of one who is asked for. -/
def ann : Record :=
  .plain [("age", .int 20), ("name", .str "Joanna"), ("team", .str "red")]

theorem grownMembers_mean_of_ann :
    ∃ filter, Filter.ofText "age>=18 and name like \"an\" and team in (1, \"red\")" = .ok filter ∧
      Decides (filter.keeps ann) (Together .and grownMembers ann) := by
  have nonempty : grownMembers ≠ [] := List.cons_ne_nil _ _
  obtain ⟨filter, read, keeps⟩ := filter_means .and nonempty grownMembers_wellFormed
  have text : joined .and grownMembers = "age>=18 and name like \"an\" and team in (1, \"red\")" := by
    decide +kernel
  rw [text] at read
  exact ⟨filter, read, keeps ann ⟨by decide +kernel, rfl⟩ (by decide +kernel)⟩

end WrittenClause

end Query

end GuardedStore
