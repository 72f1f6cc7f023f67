import GuardedStore.Proofs.Json.Literals
import GuardedStore.Proofs.Query.Faults
import GuardedStore.Proofs.Query.Writing
import GuardedStore.Proofs.Value.Symmetry

/-! # Asking for a text

A clause may have the JSON of any text as its literal. It is read as it is meant unless one of the words
between clauses stands in blanks inside of the literal, where the text of the filter is cut, or behind `in`
a closing parenthesis, where the list is. What is cut off of a literal is no JSON, so such a filter is
refused.
-/

namespace GuardedStore.Query

variable {field literal s : String} {operator : Operator} {cs rest inside front letters : List Char}
  {units : List Nat}

/-- A name that a clause can ask for: a word other than those between clauses. -/
structure IsFieldName (field : String) : Prop where
  named : field ≠ ""
  word : ∀ c ∈ field.toList, isWordCharacter c = true
  notAnd : smallLetters field ≠ "and".toList
  notOr : smallLetters field ≠ "or".toList

/-- One of the words between clauses stands in blanks in the text. -/
def HasConnective (text : String) : Prop :=
  " and ".toList <:+: smallLetters text ∨ " or ".toList <:+: smallLetters text

instance (text : String) : Decidable (HasConnective text) :=
  inferInstanceAs (Decidable (_ ∨ _))

/-- The literal has a character that ends the list behind `in`. -/
def ClosesEarly (operator : Operator) (literal : String) : Prop :=
  operator = .memberOf ∧ ')' ∈ literal.toList

instance (operator : Operator) (literal : String) : Decidable (ClosesEarly operator literal) :=
  inferInstanceAs (Decidable (_ ∧ _))

namespace Operator

/-- What stands in front of the literal behind an operator, and what stands behind it. -/
def opening (operator : Operator) : List Char :=
  if operator = .memberOf then ['('] else []

def closing (operator : Operator) : List Char :=
  if operator = .memberOf then [')'] else []

end Operator

theorem toList_text_eq (field : String) (operator : Operator) (literal : String) :
    (⟨field, operator, literal⟩ : WrittenClause).text.toList =
      field.toList ++ (operator.sign.toList ++ (operator.opening ++ (literal.toList ++ operator.closing))) := by
  rw [WrittenClause.toList_text]
  cases operator <;> simp [WrittenClause.operand, Operator.opening, Operator.closing]

/-- A word that can stand in no sign: it starts with no letter of one. -/
def NoSign (letters : List Char) : Prop :=
  ∃ first more, letters = first :: more ∧ ∀ c ∈ ['l', 'i', '(', '"'], looksLike first c = false

theorem noSign_and : NoSign "and".toList :=
  ⟨'a', ['n', 'd'], WrittenClause.toList_and, by simp [looksLike]⟩

theorem noSign_or : NoSign "or".toList :=
  ⟨'o', ['r'], WrittenClause.toList_or, by simp [looksLike]⟩

theorem looksLike_blank (c : Char) : looksLike ' ' c = decide (c = ' ') := by
  simp [looksLike]

theorem clear_of_blankless (letters : List Char) {cs : List Char} (blankless : ∀ c ∈ cs, c ≠ ' ')
    (rest : List Char) : Clear (spaced letters) cs rest := by
  induction cs with
  | nil => exact clear_nil _ _
  | cons c cs ih =>
      obtain ⟨here, later⟩ := List.forall_mem_cons.mp blankless
      refine clear_cons_iff.mpr ⟨?_, ih later⟩
      simp [spaced, afterWord?, looksLike, here]

theorem clear_sign (noSign : NoSign letters) (operator : Operator) (rest : List Char) :
    Clear (spaced letters) (operator.sign.toList ++ operator.opening) ('"' :: rest) := by
  obtain ⟨first, more, rfl, unlike⟩ := noSign
  simp only [List.forall_mem_cons] at unlike
  obtain ⟨l, i, parenthesis, quote, -⟩ := unlike
  cases operator <;>
    simp [Operator.sign, Operator.opening, clear_cons_iff, clear_nil, spaced, afterWord?, looksLike_blank,
      l, i, parenthesis, quote]

theorem IsFieldName.toList_ne_nil (named : IsFieldName field) : field.toList ≠ [] :=
  fun none => named.named (String.toList_eq_nil_iff.mp none)

theorem IsFieldName.clear_lead (named : IsFieldName field) (noSign : NoSign letters) (operator : Operator)
    (rest : List Char) :
    Clear (spaced letters) (field.toList ++ (operator.sign.toList ++ operator.opening)) ('"' :: rest) := by
  have blankless : ∀ c ∈ field.toList, c ≠ ' ' := fun c inside =>
    (startsNone_of_isWordCharacter (named.word c inside)).2.2.2
  exact (clear_of_blankless letters blankless _).append (clear_sign noSign operator rest)

theorem infix_closing_iff (letters : List Char) (operator : Operator) (literal : String) :
    spaced letters <:+: (literal.toList ++ operator.closing).map Char.toLower ↔
      spaced letters <:+: smallLetters literal := by
  rw [List.map_append, ← smallLetters]
  by_cases items : operator = .memberOf
  · have bracket : operator.closing.map Char.toLower = [')'] := by
      rw [Operator.closing, if_pos items]
      rfl
    rw [bracket, List.infix_concat_iff, or_iff_right]
    rintro ⟨front, same⟩
    have ends := congrArg List.getLast? same
    rw [spaced, ← List.cons_append, ← List.append_assoc, List.getLast?_concat, List.getLast?_concat] at ends
    cases ends
  · rw [Operator.closing, if_neg items, List.map_nil, List.append_nil]

/-- A word stands in a clause with a literal exactly where it stands in the literal. -/
theorem IsFieldName.clear_text_iff (named : IsFieldName field) (noSign : NoSign letters)
    (plain : WrittenClause.Plain (spaced letters)) (operator : Operator)
    (opens : literal.toList = '"' :: inside) :
    Clear (spaced letters) (⟨field, operator, literal⟩ : WrittenClause).text.toList [] ↔
      ¬ spaced letters <:+: smallLetters literal := by
  rw [toList_text_eq, ← infix_closing_iff letters operator, ← WrittenClause.clear_iff_no_infix plain,
    ← List.append_assoc, ← List.append_assoc]
  constructor
  · exact Clear.suffix
  · intro clear
    refine Clear.append ?_ clear
    rw [List.append_nil, opens, List.append_assoc, List.cons_append]
    exact named.clear_lead noSign operator _

theorem Operator.opening_cons (operator : Operator) (cs : List Char) :
    ∃ c rest, operator.opening ++ '"' :: cs = c :: rest ∧ c ≠ '=' := by
  by_cases items : operator = .memberOf
  · exact ⟨'(', '"' :: cs, by rw [Operator.opening, if_pos items]; rfl, by decide⟩
  · exact ⟨'"', cs, by rw [Operator.opening, if_neg items]; rfl, by decide⟩

theorem IsFieldName.ofText (named : IsFieldName field) (operator : Operator) (cs : List Char) :
    Clause.ofText (field.toList ++ (operator.sign.toList ++ (operator.opening ++ '"' :: cs))) =
      match readLiteral? (some operator) (operator.opening ++ '"' :: cs) with
      | none => .error .unreadable
      | some literal => .ok ⟨field, operator, literal⟩ := by
  obtain ⟨c, rest, starts, other⟩ := operator.opening_cons cs
  rw [starts]
  have cut := cutClause?_field named.toList_ne_nil
    (fun c inside => startsNone_of_isWordCharacter (named.word c inside))
    (WrittenClause.readOperator?_sign operator rest other)
  have stripped : Text.stripEnds Text.isBlank field.toList = field.toList :=
    Text.stripEnds_self
      (fun c first => isBlank_of_isWordCharacter (named.word c (List.mem_of_mem_head? first)))
      fun c last => isBlank_of_isWordCharacter (named.word c (List.mem_of_getLast? last))
  cases read : readLiteral? (some operator) (c :: rest) with
  | none => simp only [Clause.ofText, cut, read]
  | some literal => simp only [Clause.ofText, cut, read, stripped, String.ofList_toList]

theorem parenthesised?_cons (c : Char) (cs : List Char) :
    parenthesised? ('(' :: c :: cs) =
      if (cs.takeWhile (· ≠ ')')).length < cs.length then some (c :: cs.takeWhile (· ≠ ')')) else none := by
  simp [parenthesised?]

theorem readLiteral?_items_of_cut (spelled : Json.Spelled inside units) {body : List Char}
    (stripped : Text.stripEnds Text.isBlank cs = '(' :: '"' :: body)
    (cut : body.takeWhile (· ≠ ')') <+: inside) : readLiteral? (some .memberOf) cs = none := by
  simp only [readLiteral?, stripped, parenthesised?_cons]
  split
  · exact Json.parse?_item_of_cut spelled cut
  · rfl

theorem readLiteral?_of_cut (spelled : Json.Spelled inside units) (cut : front <+: inside)
    (operator : Operator) : readLiteral? (some operator) (operator.opening ++ '"' :: front) = none := by
  by_cases items : operator = .memberOf
  · subst items
    obtain ⟨body, stripped, kept⟩ := Text.stripEnds_lead Text.isBlank ['(', '"']
      (by rintro c ⟨⟩; decide) rfl (by decide) front
    exact readLiteral?_items_of_cut spelled stripped (((List.takeWhile_prefix _).trans kept).trans cut)
  · obtain ⟨body, stripped, kept⟩ := Text.stripEnds_lead Text.isBlank ['"']
      (by rintro c ⟨⟩; decide) rfl (by decide) front
    rw [Operator.opening, if_neg items, List.nil_append, WrittenClause.readLiteral?_plain items]
    rw [List.singleton_append, List.singleton_append] at stripped
    rw [stripped]
    exact Json.parse?_of_cut spelled (kept.trans cut)

theorem readLiteral?_text (isLiteral : Json.IsLiteralOf literal s) (plain : operator ≠ .memberOf) :
    readLiteral? (some operator) literal.toList = some (.str s) := by
  have stripped : Text.stripEnds Text.isBlank literal.toList = literal.toList := by
    refine Text.stripEnds_self (fun c first => ?_) fun c last => ?_
    · rw [isLiteral.opens] at first
      cases first
      decide
    · rw [isLiteral.closes] at last
      cases last
      decide
  rw [WrittenClause.readLiteral?_plain plain, stripped, String.ofList_toList, isLiteral.reads]

theorem readLiteral?_item (isLiteral : Json.IsLiteralOf literal s) (inside : ')' ∉ literal.toList) :
    readLiteral? (some .memberOf) ('(' :: (literal.toList ++ [')'])) = some (.list [.str s]) := by
  rw [WrittenClause.readLiteral?_items isLiteral.toList_ne_nil inside, ← isLiteral.parse?_item]
  congr 1
  apply String.toList_injective
  simp

theorem readLiteral?_of_closed (isLiteral : Json.IsLiteralOf literal s) (early : ')' ∈ literal.toList) :
    readLiteral? (some .memberOf) ('(' :: (literal.toList ++ [')'])) = none := by
  obtain ⟨inside, units, whole, spelled, -⟩ := isLiteral.spelled
  rw [whole] at early ⊢
  rw [List.cons_append]
  have within : ')' ∈ inside := by simpa using early
  refine readLiteral?_items_of_cut spelled (Text.stripEnds_self ?_ ?_) ?_
  · rintro c ⟨⟩
    decide
  · intro c last
    rw [← List.cons_append, ← List.cons_append, List.getLast?_concat] at last
    cases last
    decide
  · rw [List.append_assoc]
    rcases List.prefix_or_prefix_of_prefix (List.takeWhile_prefix _) (List.prefix_append inside _) with
      before | beyond
    · exact before
    · exact absurd (List.mem_takeWhile_imp (beyond.subset within)) (by decide)

/-- The literal that an operator gets when a text is asked for. -/
def Operator.textLiteral (operator : Operator) (s : String) : Value :=
  if operator = .memberOf then .list [.str s] else .str s

theorem readLiteral?_literal (isLiteral : Json.IsLiteralOf literal s) (operator : Operator) :
    readLiteral? (some operator) (operator.opening ++ (literal.toList ++ operator.closing)) =
      if ClosesEarly operator literal then none else some (operator.textLiteral s) := by
  by_cases items : operator = .memberOf
  · subst items
    rw [Operator.opening, if_pos rfl, Operator.closing, if_pos rfl, Operator.textLiteral, if_pos rfl,
      List.singleton_append]
    by_cases early : ')' ∈ literal.toList
    · rw [if_pos ⟨rfl, early⟩, readLiteral?_of_closed isLiteral early]
    · rw [if_neg (fun closes => early closes.2), readLiteral?_item isLiteral early]
  · rw [Operator.opening, if_neg items, Operator.closing, if_neg items, Operator.textLiteral, if_neg items,
      if_neg (fun closes => items closes.1), List.nil_append, List.append_nil,
      readLiteral?_text isLiteral items]

theorem IsFieldName.cut_of_word (named : IsFieldName field) (noSign : NoSign letters)
    (operator : Operator) (whole : literal.toList = '"' :: (inside ++ ['"']))
    (split : (⟨field, operator, literal⟩ : WrittenClause).text.toList = front ++ rest)
    {read after : List Char} (word : afterWord? (spaced letters) rest = some (read, after)) :
    ∃ cut, front = field.toList ++ (operator.sign.toList ++ (operator.opening ++ '"' :: cut)) ∧
      cut <+: inside := by
  have quote : Clear (spaced letters) ['"'] (inside ++ '"' :: operator.closing) :=
    clear_of_blankless letters (by simp) _
  have lead := (named.clear_lead noSign operator _).append quote
  have split' : field.toList ++ (operator.sign.toList ++ operator.opening) ++ ['"'] ++
      (inside ++ '"' :: operator.closing) = front ++ rest := by
    rw [← split, toList_text_eq, whole]
    simp
  obtain ⟨cut, rfl, same⟩ := lead.cut split' word
  have blank : ' ' ∈ rest := by
    obtain ⟨rfl, spelt⟩ := afterWord?_eq_some_iff.mp word
    cases spelt with
    | cons like _ =>
        rw [looksLike_blank, decide_eq_true_eq] at like
        rw [like]
        exact List.mem_cons_self
  refine ⟨cut, by simp, ?_⟩
  rcases List.append_eq_append_iff.mp same with ⟨beyond, rfl, -⟩ | ⟨beyond, rfl, behind⟩
  · exact List.prefix_append cut beyond
  · have inside : ' ' ∈ '"' :: operator.closing := by
      rw [behind]
      exact List.mem_append_right beyond blank
    rw [Operator.closing] at inside
    split at inside <;> simp at inside

/-- Where a word stands in a clause with a literal, the literal is cut off and cannot be read. -/
theorem IsFieldName.splitAtWord_text (named : IsFieldName field) (isLiteral : Json.IsLiteralOf literal s)
    (noSign : NoSign letters) (operator : Operator)
    (found : ¬ Clear (spaced letters) (⟨field, operator, literal⟩ : WrittenClause).text.toList []) :
    ∃ first more, splitAtWord (spaced letters) []
        (⟨field, operator, literal⟩ : WrittenClause).text.toList.length
        (⟨field, operator, literal⟩ : WrittenClause).text.toList = first :: more ∧
      more ≠ [] ∧ Clause.ofText first = .error .unreadable := by
  obtain ⟨inside, units, whole, spelled, -⟩ := isLiteral.spelled
  obtain ⟨front, rest, read, after, left, split, word, parts⟩ :=
    exists_first_part found (List.cons_ne_nil _ _)
  obtain ⟨cut, rfl, within⟩ := named.cut_of_word noSign operator whole split word
  refine ⟨_, _, parts, splitAtWord_ne_nil _ _ _ _, ?_⟩
  rw [named.ofText, readLiteral?_of_cut spelled within operator]

theorem IsFieldName.stripped_text (named : IsFieldName field) (isLiteral : Json.IsLiteralOf literal s)
    (operator : Operator) :
    Text.stripEnds Text.isBlank (⟨field, operator, literal⟩ : WrittenClause).text.toList =
      (⟨field, operator, literal⟩ : WrittenClause).text.toList := by
  rw [toList_text_eq]
  refine Text.stripEnds_self (fun c first => ?_) fun c last => ?_
  · rw [List.head?_append_of_ne_nil _ named.toList_ne_nil] at first
    exact isBlank_of_isWordCharacter (named.word c (List.mem_of_mem_head? first))
  · rw [← List.append_assoc, ← List.append_assoc, ← List.append_assoc] at last
    by_cases items : operator = .memberOf
    · rw [Operator.closing, if_pos items, List.getLast?_concat] at last
      cases last
      decide
    · rw [Operator.closing, if_neg items, List.append_nil,
        List.getLast?_append_of_ne_nil _ isLiteral.toList_ne_nil, isLiteral.closes] at last
      cases last
      decide

theorem ofTexts_unreadable {first : List Char} (more : List (List Char))
    (h : Clause.ofText first = .error .unreadable) : Clause.ofTexts (first :: more) = .error .unreadable := by
  rw [Clause.ofTexts, h]
  rfl

variable {text : String} {first : List Char} {more : List (List Char)}

theorem splitAnd_of_clear (clear : Clear (spaced "and".toList) cs []) : splitAnd cs = [cs] :=
  splitAtWord_clear clear (Nat.le_refl _)

theorem splitOr_of_clear (clear : Clear (spaced "or".toList) cs []) : splitOr cs = [cs] :=
  splitAtWord_clear clear (Nat.le_refl _)

theorem Filter.ofText_of_conjuncts (conjuncts : splitAnd text.toList = first :: more) (several : more ≠ [])
    (unread : Clause.ofText first = .error .unreadable) : Filter.ofText text = .error .unreadable := by
  have many : 1 < (first :: more).length := by simpa using List.length_pos_iff.mpr several
  simp only [Filter.ofText, conjuncts, many, if_true, ofTexts_unreadable more unread]
  rfl

theorem Filter.ofText_of_disjuncts (conjuncts : splitAnd text.toList = [text.toList])
    (disjuncts : splitOr text.toList = first :: more) (several : more ≠ [])
    (unread : Clause.ofText first = .error .unreadable) : Filter.ofText text = .error .unreadable := by
  have many : 1 < (first :: more).length := by simpa using List.length_pos_iff.mpr several
  simp only [Filter.ofText, conjuncts, disjuncts, List.length_singleton, Nat.lt_irrefl, if_false, many,
    if_true, ofTexts_unreadable more unread]
  rfl

theorem Filter.ofText_of_single (conjuncts : splitAnd text.toList = [text.toList])
    (disjuncts : splitOr text.toList = [text.toList])
    (stripped : Text.stripEnds Text.isBlank text.toList = text.toList) :
    Filter.ofText text = (Clause.ofText text.toList).map fun clause => .all [clause] := by
  simp only [Filter.ofText, conjuncts, disjuncts, List.length_singleton, Nat.lt_irrefl, if_false, stripped]
  cases Clause.ofText text.toList <;> rfl

/-- A clause with the JSON of a text is read as it is meant, unless one of the words between clauses stands
in the literal, or a parenthesis closes a list in it. -/
theorem IsFieldName.filter_ofText (named : IsFieldName field) (isLiteral : Json.IsLiteralOf literal s)
    (operator : Operator) :
    Filter.ofText (⟨field, operator, literal⟩ : WrittenClause).text =
      if HasConnective literal ∨ ClosesEarly operator literal then .error .unreadable
      else .ok (.all [⟨field, operator, operator.textLiteral s⟩]) := by
  obtain ⟨inside, units, whole, -, -⟩ := isLiteral.spelled
  have andIff := named.clear_text_iff noSign_and WrittenClause.separates_and.plain operator whole
  have orIff := named.clear_text_iff noSign_or WrittenClause.separates_or.plain operator whole
  by_cases hasAnd : spaced "and".toList <:+: smallLetters literal
  · obtain ⟨first, more, conjuncts, several, unread⟩ :=
      named.splitAtWord_text isLiteral noSign_and operator fun clear => andIff.mp clear hasAnd
    rw [if_pos (.inl (.inl hasAnd)), Filter.ofText_of_conjuncts conjuncts several unread]
  · have conjuncts := splitAnd_of_clear (andIff.mpr hasAnd)
    by_cases hasOr : spaced "or".toList <:+: smallLetters literal
    · obtain ⟨first, more, disjuncts, several, unread⟩ :=
        named.splitAtWord_text isLiteral noSign_or operator fun clear => orIff.mp clear hasOr
      rw [if_pos (.inl (.inr hasOr)), Filter.ofText_of_disjuncts conjuncts disjuncts several unread]
    · have disjuncts := splitOr_of_clear (orIff.mpr hasOr)
      have none : ¬ HasConnective literal := fun has => has.elim hasAnd hasOr
      have read := readLiteral?_literal isLiteral operator
      rw [whole, List.cons_append] at read
      rw [Filter.ofText_of_single conjuncts disjuncts (named.stripped_text isLiteral operator), toList_text_eq,
        whole, List.cons_append, named.ofText, read]
      by_cases early : ClosesEarly operator literal
      · rw [if_pos early, if_pos (.inr early)]
        rfl
      · rw [if_neg early, if_neg (not_or.mpr ⟨none, early⟩)]
        rfl

variable {record : Record} {records : List Record} {clause : Clause} {keep : Record → Bool} {fault : Fault}

theorem Filter.keeps_single (clause : Clause) (record : Record) :
    (Filter.all [clause]).keeps record = clause.holds record := by
  change (do if ← clause.holds record then .ok true else return false) = clause.holds record
  cases clause.holds record with
  | error fault => rfl
  | ok held => cases held <;> rfl

theorem Filter.apply_single (holds : ∀ record ∈ records, clause.holds record = .ok (keep record)) :
    (Filter.all [clause]).apply records = .ok (records.filter keep) := by
  induction records with
  | nil => rfl
  | cons record rest ih =>
      obtain ⟨first, others⟩ := List.forall_mem_cons.mp holds
      rw [Filter.apply, keeps_single, first, ih others, List.filter_cons]
      rfl

/-- It stops at the first record for which it cannot be decided. -/
theorem Filter.apply_single_error
    (holds : ∀ record ∈ records,
      (∃ held, clause.holds record = .ok held) ∨ clause.holds record = .error fault)
    (stops : ∃ record ∈ records, clause.holds record = .error fault) :
    (Filter.all [clause]).apply records = .error fault := by
  induction records with
  | nil =>
      obtain ⟨record, member, -⟩ := stops
      cases member
  | cons record rest ih =>
      obtain ⟨first, others⟩ := List.forall_mem_cons.mp holds
      rw [Filter.apply, keeps_single]
      rcases first with ⟨held, decided⟩ | stopped
      · have later : ∃ record ∈ rest, clause.holds record = .error fault := by
          obtain ⟨other, member, stopped⟩ := stops
          rcases List.mem_cons.mp member with rfl | member
          · rw [decided] at stopped
            cases stopped
          · exact ⟨other, member, stopped⟩
        rw [decided, ih others later]
        rfl
      · rw [stopped]
        rfl

theorem filterRecords_of_ne (nonempty : text ≠ "") :
    filterRecords (some text) records = (do
      let filter ← (Filter.ofText text).mapError FilterFault.fault
      filter.apply records) := by
  rw [filterRecords, given?_of_ne nonempty]

/-- The field counts as equal to the text, which is read as a number where the field is one. -/
def equalsText (field s : String) (record : Record) : Bool :=
  (record.value field).looseEquals (.str s) = .ok true

/-- The field is there and is just the text. -/
def hasText (field s : String) (record : Record) : Bool :=
  Entries.has record.fields field && (record.value field).strictEquals (.str s)

theorem looseEquals_of_isOutsized {v : Value} (outsized : v.IsOutsized) (s : String) :
    v.looseEquals (.str s) = .error .outOfRange := by
  obtain ⟨n, rfl, beyond⟩ := outsized
  rw [Value.looseEquals_of_notNull (a := .int n) (b := .str s) nofun nofun, Value.sameReading,
    Value.toNumber?_of_beyond beyond]
  rfl

theorem holds_equal_of_isOutsized (outsized : (record.value field).IsOutsized) (s : String) :
    (⟨field, .equal, .str s⟩ : Clause).holds record = .error .outOfRange := by
  have plain : (record.value field).isContainer = false := by
    obtain ⟨n, same, -⟩ := outsized
    rw [same]
    rfl
  simp only [Clause.holds, Record.isCircularAt_of_plain plain, looseEquals_of_isOutsized outsized]
  rfl

/-- A list or an object equals no text, however it is compared. -/
theorem unequal_of_isContainer {v : Value} (container : v.isContainer = true) (s : String) :
    v.looseEquals (.str s) = .ok false ∧ v.strictEquals (.str s) = false := by
  cases v with
  | list items => exact ⟨rfl, rfl⟩
  | object fields => exact ⟨rfl, rfl⟩
  | null | bool | int | float | str => cases container

theorem holds_equal (small : ¬ (record.value field).IsOutsized) (s : String) :
    (⟨field, .equal, .str s⟩ : Clause).holds record = .ok (equalsText field s record) := by
  simp only [Clause.holds, equalsText]
  cases container : (record.value field).isContainer with
  | true =>
      rw [(unequal_of_isContainer container s).1]
      split <;> rfl
  | false =>
      rw [Record.isCircularAt_of_plain container]
      cases read : (record.value field).looseEquals (.str s) with
      | error fault =>
          rcases Value.outsized_of_looseEquals read with outsized | ⟨n, same, -⟩
          · exact absurd outsized small
          · cases same
      | ok held => cases held <;> rfl

theorem holds_memberOf (field s : String) (record : Record) :
    (⟨field, .memberOf, .list [.str s]⟩ : Clause).holds record = .ok (hasText field s record) := by
  simp only [Clause.holds, Clause.isMember, List.any_cons, List.any_nil, Bool.or_false, hasText]
  cases container : (record.value field).isContainer with
  | true => rw [(unequal_of_isContainer container s).2, Bool.and_false, Bool.and_false]
  | false => rw [Record.isCircularAt_of_plain container, Bool.not_false, Bool.and_true]

theorem apply_equal (field s : String) (records : List Record) :
    (Filter.all [⟨field, .equal, .str s⟩]).apply records =
      if ∃ record ∈ records, (record.value field).IsOutsized then .error .outOfRange
      else .ok (records.filter (equalsText field s)) := by
  split
  · rename_i outsized
    obtain ⟨record, member, outsized⟩ := outsized
    refine Filter.apply_single_error (fun record _ => ?_)
      ⟨record, member, holds_equal_of_isOutsized outsized s⟩
    by_cases outsized : (record.value field).IsOutsized
    · exact .inr (holds_equal_of_isOutsized outsized s)
    · exact .inl ⟨_, holds_equal outsized s⟩
  · rename_i small
    exact Filter.apply_single fun record member =>
      holds_equal (fun outsized => small ⟨record, member, outsized⟩) s

theorem arrange_text (engine : Engine) (records : List Record) (named : IsFieldName field)
    (isLiteral : Json.IsLiteralOf literal s) (operator : Operator) :
    engine.arrange records { filter := some (⟨field, operator, literal⟩ : WrittenClause).text } =
      if HasConnective literal ∨ ClosesEarly operator literal then .error (.refused .filterUnreadable)
      else (Filter.all [⟨field, operator, operator.textLiteral s⟩]).apply records := by
  have nonempty : (⟨field, operator, literal⟩ : WrittenClause).text ≠ "" := by
    intro none
    have characters := toList_text_eq field operator literal
    rw [none] at characters
    exact named.toList_ne_nil (List.append_eq_nil_iff.mp characters.symm).1
  rw [Engine.arrange_filter, filterRecords_of_ne nonempty, named.filter_ofText isLiteral]
  split <;> rfl

/-- Asking for a text finds the records that have it: with `=` those whose field counts as equal to it, with
`in` those whose field is just the text. This needs that the literal has neither of the words between clauses
and behind `in` no closing parenthesis, else the filter is refused; and a number beyond the range cannot be
compared with a text. -/
theorem arrange_by_text (engine : Engine) (records : List Record) (named : IsFieldName field)
    (isLiteral : Json.IsLiteralOf literal s) :
    engine.arrange records { filter := some (field ++ "=" ++ literal) } =
        (if HasConnective literal then .error (.refused .filterUnreadable)
        else if ∃ record ∈ records, (record.value field).IsOutsized then .error .outOfRange
        else .ok (records.filter (equalsText field s))) ∧
      engine.arrange records { filter := some (field ++ " in (" ++ literal ++ ")") } =
        (if HasConnective literal ∨ ')' ∈ literal.toList then .error (.refused .filterUnreadable)
        else .ok (records.filter (hasText field s))) := by
  have equal := arrange_text engine records named isLiteral .equal
  have memberOf := arrange_text engine records named isLiteral .memberOf
  have text : (⟨field, .memberOf, literal⟩ : WrittenClause).text = field ++ " in (" ++ literal ++ ")" := by
    apply String.toList_injective
    simp [toList_text_eq, Operator.sign, Operator.opening, Operator.closing]
  rw [text] at memberOf
  simp only [ClosesEarly, reduceCtorEq, false_and, true_and, or_false] at equal memberOf
  constructor
  · rw [← apply_equal]
    exact equal
  · rw [memberOf, Operator.textLiteral, if_pos rfl,
      Filter.apply_single fun record _ => holds_memberOf field s record]

/-- A title with an operator, the word of one and an opening parenthesis. -/
def oddTitle : String :=
  "a<b in (c"

/-- One record has the title, the other has another one. -/
def shelf : List Record :=
  [.plain [("title", .str oddTitle)], .plain [("title", .str "a")]]

theorem odd_title_found :
    IsFieldName "title" ∧ Json.IsLiteralOf "\"a<b in (c\"" oddTitle ∧
      (default : Engine).arrange shelf { filter := some "title=\"a<b in (c\"" } =
        .ok [.plain [("title", .str oddTitle)]] ∧
      (default : Engine).arrange shelf { filter := some "title in (\"a<b in (c\")" } =
        .ok [.plain [("title", .str oddTitle)]] := by
  have named : IsFieldName "title" :=
    ⟨by decide, List.all_eq_true.mp (by decide +kernel), by decide +kernel, by decide +kernel⟩
  have isLiteral : Json.IsLiteralOf "\"a<b in (c\"" oddTitle := ⟨by decide, by decide, rfl⟩
  obtain ⟨equal, memberOf⟩ := arrange_by_text default shelf named isLiteral
  rw [if_neg (by decide +kernel), if_neg (by decide +kernel)] at equal
  rw [if_neg (by decide +kernel)] at memberOf
  exact ⟨named, isLiteral, equal, memberOf⟩

/-- A text with `and` in blanks, or with a closing parenthesis, cannot be asked for, though a record has
it. -/
theorem plain_titles_refused :
    (default : Engine).arrange [.plain [("x", .str "a and b")]] { filter := some "x=\"a and b\"" } =
        .error (.refused .filterUnreadable) ∧
      equalsText "x" "a and b" (.plain [("x", .str "a and b")]) = true ∧
      (default : Engine).arrange [.plain [("x", .str "a)b")]] { filter := some "x in (\"a)b\")" } =
        .error (.refused .filterUnreadable) ∧
      hasText "x" "a)b" (.plain [("x", .str "a)b")]) = true := by
  have named : IsFieldName "x" :=
    ⟨by decide, List.all_eq_true.mp (by decide +kernel), by decide +kernel, by decide +kernel⟩
  have withWord : Json.IsLiteralOf "\"a and b\"" "a and b" := ⟨by decide, by decide, rfl⟩
  have withParenthesis : Json.IsLiteralOf "\"a)b\"" "a)b" := ⟨by decide, by decide, rfl⟩
  have equal := arrange_text default [.plain [("x", .str "a and b")]] named withWord .equal
  have memberOf := arrange_text default [.plain [("x", .str "a)b")]] named withParenthesis .memberOf
  rw [if_pos (by decide +kernel)] at equal memberOf
  exact ⟨equal, by decide +kernel, memberOf, by decide +kernel⟩

end GuardedStore.Query
