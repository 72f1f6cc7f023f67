import GuardedStore.Expression.Expr
import GuardedStore.Proofs.Json.Ends
import GuardedStore.Proofs.Query.Cutting

/-! # Written clauses

A clause is written as a field, an operator and the JSON text of a literal, behind `in` the items of a list
in parentheses. Clauses with `and` or `or` between them are read as the clauses that they were written for,
as long as none of the two words stands in blanks inside of a clause and no field is one of them.
-/

namespace GuardedStore.Query

/-- How an operator is written behind a field. -/
def Operator.sign : Operator → String
  | .lessOrEqual => "<="
  | .less => "<"
  | .greaterOrEqual => ">="
  | .greater => ">"
  | .equal => "="
  | .like => " like "
  | .memberOf => " in "

/-- Whether a character may stand in the field of a written clause. -/
def isWordCharacter (c : Char) : Bool :=
  c.isAlphanum || c = '_'

/-- The letters of a text in lower case. -/
def smallLetters (text : String) : List Char :=
  text.toList.map Char.toLower

structure WrittenClause where
  field : String
  operator : Operator
  /-- The text of the literal; behind `in` that of its items. -/
  literal : String
  deriving Repr

namespace WrittenClause

/-- What stands behind the operator. -/
def operand (written : WrittenClause) : String :=
  if written.operator = .memberOf then "(" ++ written.literal ++ ")" else written.literal

def text (written : WrittenClause) : String :=
  written.field ++ written.operator.sign ++ written.operand

/-- The JSON text of the literal. -/
def json (written : WrittenClause) : String :=
  if written.operator = .memberOf then "[" ++ written.literal ++ "]" else written.literal

/-- The clause that is written, if the literal is JSON. -/
def clause? (written : WrittenClause) : Option Clause :=
  (Json.parse? written.json).map fun literal => ⟨written.field, written.operator, literal⟩

structure WellFormed (written : WrittenClause) : Prop where
  named : written.field ≠ ""
  word : ∀ c ∈ written.field.toList, isWordCharacter c = true
  notAnd : smallLetters written.field ≠ "and".toList
  notOr : smallLetters written.field ≠ "or".toList
  /-- Items have no closing parenthesis, any other literal no white space around it. -/
  tight : if written.operator = .memberOf then written.literal ≠ "" ∧ ')' ∉ written.literal.toList
    else Text.trim written.literal = written.literal
  literal : (Json.parse? written.json).isSome
  noAnd : ¬ " and ".toList <:+: smallLetters written.text
  noOr : ¬ " or ".toList <:+: smallLetters written.text

end WrittenClause

/-- The filter of clauses with a word between them. A single clause has none. -/
def Filter.ofClauses : Expression.Connective → List Clause → Filter
  | .or, first :: second :: rest => .any (first :: second :: rest)
  | _, clauses => .all clauses

theorem isBlank_of_visible {c : Char} (visible : 33 ≤ c.toNat ∧ c.toNat ≤ 126) :
    Text.isBlank c = false := by
  have outside : ∀ run ∈ Text.blankRuns, run.2 < 33 ∨ 126 < run.1 := by decide
  rw [Text.isBlank, Text.CodeRuns.contains, List.any_eq_false]
  intro run member
  have := outside run member
  simp only [Bool.and_eq_true, decide_eq_true_eq, not_and]
  omega

theorem visible_of_isAlphanum {c : Char} (h : c.isAlphanum = true) : 33 ≤ c.toNat ∧ c.toNat ≤ 126 := by
  simp only [Char.isAlphanum, Char.isAlpha, Char.isUpper, Char.isLower, Char.isDigit, Bool.or_eq_true,
    Bool.and_eq_true, decide_eq_true_eq, UInt32.le_iff_toNat_le, ge_iff_le] at h
  change ((65 ≤ c.toNat ∧ c.toNat ≤ 90) ∨ (97 ≤ c.toNat ∧ c.toNat ≤ 122)) ∨
    (48 ≤ c.toNat ∧ c.toNat ≤ 57) at h
  omega

theorem isBlank_of_isWordCharacter {c : Char} (h : isWordCharacter c = true) : Text.isBlank c = false := by
  rcases Bool.or_eq_true_iff.mp h with alphanumeric | line
  · exact isBlank_of_visible (visible_of_isAlphanum alphanumeric)
  · rw [of_decide_eq_true line]
    decide

theorem startsNone_of_isWordCharacter {c : Char} (h : isWordCharacter c = true) : StartsNone c := by
  refine ⟨?_, ?_, ?_, ?_⟩ <;> rintro rfl <;> exact absurd h (by decide)

theorem isBlank_of_isSpace {c : Char} (h : Json.isSpace c = true) : Text.isBlank c = true := by
  simp only [Json.isSpace, Bool.or_eq_true, decide_eq_true_eq] at h
  rcases h with ((rfl | rfl) | rfl) | rfl <;> decide

/-- Whether a character may end a written clause. -/
def endsClause (c : Char) : Bool :=
  Json.endsValue c || c = ')'

theorem isBlank_of_endsClause {c : Char} (h : endsClause c = true) : Text.isBlank c = false := by
  simp only [endsClause, Json.endsValue, Bool.or_eq_true, List.contains_iff_mem, List.mem_cons,
    List.not_mem_nil, or_false, decide_eq_true_eq] at h
  rcases h with (digit | rfl | rfl | rfl | rfl | rfl | rfl | rfl) | rfl
  · exact isBlank_of_visible (visible_of_isAlphanum (by simp [Char.isAlphanum, digit]))
  all_goals decide

namespace WrittenClause

variable {written : WrittenClause}

theorem toList_text (written : WrittenClause) :
    written.text.toList =
      written.field.toList ++ (written.operator.sign.toList ++ written.operand.toList) := by
  simp [text]

theorem operand_of_memberOf (h : written.operator = .memberOf) :
    written.operand.toList = '(' :: (written.literal.toList ++ [')']) := by
  simp [operand, h]

theorem WellFormed.toList_field_ne_nil (wellFormed : written.WellFormed) : written.field.toList ≠ [] :=
  fun none => wellFormed.named (String.toList_eq_nil_iff.mp none)

theorem WellFormed.parsed (wellFormed : written.WellFormed) :
    ∃ literal, Json.parse? written.json = some literal :=
  Option.isSome_iff_exists.mp wellFormed.literal

theorem WellFormed.stripped (wellFormed : written.WellFormed) (plain : written.operator ≠ .memberOf) :
    Text.stripEnds Text.isBlank written.literal.toList = written.literal.toList := by
  have tight := wellFormed.tight
  rw [if_neg plain, Text.trim] at tight
  rw [← String.toList_ofList (l := Text.stripEnds Text.isBlank written.literal.toList), tight]

theorem WellFormed.head_operand (wellFormed : written.WellFormed) :
    ∃ c rest, written.operand.toList = c :: rest ∧ c ≠ '=' := by
  by_cases items : written.operator = .memberOf
  · exact ⟨_, _, operand_of_memberOf items, by decide⟩
  · obtain ⟨literal, parsed⟩ := wellFormed.parsed
    rw [json, if_neg items] at parsed
    rw [operand, if_neg items]
    exact Json.head_of_parse? parsed

theorem WellFormed.last_operand (wellFormed : written.WellFormed) :
    ∃ last, endsClause last = true ∧ written.operand.toList.getLast? = some last := by
  by_cases items : written.operator = .memberOf
  · refine ⟨')', by decide, ?_⟩
    rw [operand_of_memberOf items]
    exact List.getLast?_eq_some_iff.mpr ⟨'(' :: written.literal.toList, rfl⟩
  · obtain ⟨literal, parsed⟩ := wellFormed.parsed
    rw [json, if_neg items] at parsed
    rw [operand, if_neg items]
    obtain ⟨last, ends, isLast⟩ := Json.last_of_parse? parsed fun c isLast => by
      have visible := Text.last_of_stripEnds_self (wellFormed.stripped items) c isLast
      by_contra space
      rw [isBlank_of_isSpace (by simpa using space)] at visible
      cases visible
    exact ⟨last, by simp [endsClause, ends], isLast⟩

theorem WellFormed.last_text (wellFormed : written.WellFormed) :
    ∃ last, endsClause last = true ∧ written.text.toList.getLast? = some last := by
  obtain ⟨last, ends, isLast⟩ := wellFormed.last_operand
  obtain ⟨front, same⟩ := List.getLast?_eq_some_iff.mp isLast
  refine ⟨last, ends, List.getLast?_eq_some_iff.mpr
    ⟨written.field.toList ++ (written.operator.sign.toList ++ front), ?_⟩⟩
  rw [toList_text, same]
  simp

theorem readOperator?_sign (operator : Operator) {c : Char} (rest : List Char) (other : c ≠ '=') :
    readOperator? (operator.sign.toList ++ c :: rest) = some (some operator, c :: rest) := by
  cases operator with
  | lessOrEqual | greaterOrEqual | equal => rfl
  | less => simp [Operator.sign, readOperator?, other]
  | greater => simp [Operator.sign, readOperator?, other]
  | like => rfl
  | memberOf => rfl

theorem parenthesised?_items {items : List Char} (nonempty : items ≠ []) (inside : ')' ∉ items) :
    parenthesised? ('(' :: (items ++ [')'])) = some items := by
  cases items with
  | nil => exact absurd rfl nonempty
  | cons first items =>
      have others : ∀ c ∈ items, decide (c ≠ ')') = true := by
        intro c member
        simp only [ne_eq, decide_eq_true_eq]
        rintro rfl
        exact inside (List.mem_cons_of_mem _ member)
      have taken : (items ++ [')']).takeWhile (· ≠ ')') = items := by
        rw [List.takeWhile_append_of_pos others]
        simp
      have dropped : ('(' :: first :: (items ++ [')'])).dropWhile (· ≠ '(') =
          '(' :: first :: (items ++ [')']) := by
        simp
      simp only [parenthesised?, List.cons_append, dropped, taken]
      simp

theorem readLiteral?_plain {operator : Operator} (plain : operator ≠ .memberOf) (cs : List Char) :
    readLiteral? (some operator) cs =
      Json.parse? (String.ofList (Text.stripEnds Text.isBlank cs)) := by
  unfold readLiteral?
  split
  · rename_i items
    exact absurd (Option.some.inj items) plain
  · exact Eq.refl _

theorem readLiteral?_items {items : List Char} (nonempty : items ≠ []) (inside : ')' ∉ items) :
    readLiteral? (some .memberOf) ('(' :: (items ++ [')'])) =
      Json.parse? (String.ofList ('[' :: (items ++ [']']))) := by
  have stripped : Text.stripEnds Text.isBlank ('(' :: (items ++ [')'])) = '(' :: (items ++ [')']) := by
    refine Text.stripEnds_self (fun c first => ?_) fun c last => ?_
    · cases first
      decide
    · rw [← List.cons_append, List.getLast?_concat] at last
      cases last
      decide
  simp only [readLiteral?, stripped, parenthesised?_items nonempty inside, Option.bind_some,
    List.cons_append, List.nil_append]

theorem WellFormed.literal_read (wellFormed : written.WellFormed) :
    readLiteral? (some written.operator) written.operand.toList = Json.parse? written.json := by
  have tight := wellFormed.tight
  by_cases items : written.operator = .memberOf
  · rw [if_pos items] at tight
    have nonempty : written.literal.toList ≠ [] := fun none => tight.1 (String.toList_eq_nil_iff.mp none)
    have same : String.ofList ('[' :: (written.literal.toList ++ [']'])) = written.json := by
      apply String.toList_injective
      simp [json, items]
    rw [operand_of_memberOf items, items, readLiteral?_items nonempty tight.2, same]
  · rw [readLiteral?_plain items, operand, if_neg items, wellFormed.stripped items, String.ofList_toList,
      json, if_neg items]

theorem WellFormed.ofText (wellFormed : written.WellFormed) :
    ∃ clause, written.clause? = some clause ∧ Clause.ofText written.text.toList = .ok clause := by
  obtain ⟨literal, parsed⟩ := wellFormed.parsed
  refine ⟨⟨written.field, written.operator, literal⟩, by rw [clause?, parsed, Option.map_some], ?_⟩
  obtain ⟨c, rest, operand, other⟩ := wellFormed.head_operand
  have found := readOperator?_sign written.operator rest other
  rw [← operand] at found
  have cut := cutClause?_field wellFormed.toList_field_ne_nil
    (fun c inside => startsNone_of_isWordCharacter (wellFormed.word c inside)) found
  have stripped : Text.stripEnds Text.isBlank written.field.toList = written.field.toList :=
    Text.stripEnds_self
      (fun c first => isBlank_of_isWordCharacter (wellFormed.word c (List.mem_of_mem_head? first)))
      fun c last => isBlank_of_isWordCharacter (wellFormed.word c (List.mem_of_getLast? last))
  simp only [Clause.ofText, toList_text, cut, wellFormed.literal_read, parsed, stripped,
    String.ofList_toList]

/-- The letters of a word stand for themselves and their capitals only. -/
def Plain (letters : List Char) : Prop :=
  ∀ letter ∈ letters, ∀ c, looksLike letter c = true → c.toLower = letter

/-- A word that can stand between clauses. -/
structure Separates (letters : List Char) : Prop where
  blankless : Blankless letters
  plain : Plain (spaced letters)
  ends : ∀ letter ∈ letters.getLast?, ∀ c, looksLike letter c = true → endsClause c = false

theorem looksLike_iff {letter c : Char} (other : letter ≠ 'k' ∧ letter ≠ 'i') :
    looksLike letter c = true ↔ c = letter ∨ c = letter.toUpper := by
  simp [looksLike, other.1, other.2]

theorem separates_of_small {letters : List Char} (blankless : Blankless letters)
    (small : ∀ letter ∈ spaced letters, (letter ≠ 'k' ∧ letter ≠ 'i') ∧
      letter.toLower = letter ∧ letter.toUpper.toLower = letter)
    (ends : ∀ letter ∈ letters.getLast?, endsClause letter = false ∧ endsClause letter.toUpper = false) :
    Separates letters where
  blankless
  plain := by
    intro letter member c like
    obtain ⟨other, lower, upper⟩ := small letter member
    rcases (looksLike_iff other).mp like with rfl | rfl
    · exact lower
    · exact upper
  ends := by
    intro letter isLast c like
    have member : letter ∈ spaced letters := by
      simp [spaced, List.mem_of_getLast? isLast]
    rcases (looksLike_iff (small letter member).1).mp like with rfl | rfl
    · exact (ends _ isLast).1
    · exact (ends letter isLast).2

theorem toList_and : "and".toList = ['a', 'n', 'd'] := by
  simp

theorem toList_or : "or".toList = ['o', 'r'] := by
  simp

theorem separates_and : Separates "and".toList := by
  rw [toList_and]
  exact separates_of_small ⟨by simp, by simp [looksLike]⟩ (by simp [spaced])
    (by simp [endsClause, Json.endsValue])

theorem separates_or : Separates "or".toList := by
  rw [toList_or]
  exact separates_of_small ⟨by simp, by simp [looksLike]⟩ (by simp [spaced])
    (by simp [endsClause, Json.endsValue])

theorem toLower_of_spells {letters read : List Char} (plain : Plain letters)
    (spelt : Spells letters read) : read.map Char.toLower = letters := by
  induction spelt with
  | nil => rfl
  | cons like _ ih =>
      obtain ⟨first, others⟩ := List.forall_mem_cons.mp plain
      rw [List.map_cons, first _ like, ih others]

theorem clear_of_no_infix {letters cs : List Char} (plain : Plain (spaced letters))
    (no : ¬ spaced letters <:+: cs.map Char.toLower) : Clear (spaced letters) cs [] := by
  intro start nonempty inside
  by_contra found
  obtain ⟨⟨read, after⟩, found⟩ := Option.ne_none_iff_exists'.mp found
  obtain ⟨same, related⟩ := afterWord?_eq_some_iff.mp found
  rw [List.append_nil] at same
  obtain ⟨front, rfl⟩ := inside
  refine no ⟨front.map Char.toLower, after.map Char.toLower, ?_⟩
  rw [same, List.map_append, List.map_append, toLower_of_spells plain related, List.append_assoc]

theorem looksLike_of_toLower {letter c : Char} (h : c.toLower = letter) : looksLike letter c = true := by
  subst h
  rcases Text.small_or_capital c with small | capital
  · simp [looksLike, small]
  · simp [looksLike, capital]

theorem spells_of_toLower {letters read : List Char} (h : read.map Char.toLower = letters) :
    Spells letters read := by
  subst h
  exact List.forall₂_map_left_iff.mpr (List.forall₂_same.mpr fun c _ => looksLike_of_toLower rfl)

/-- The word stands nowhere exactly where it does not stand in lower case. -/
theorem clear_iff_no_infix {letters cs : List Char} (plain : Plain (spaced letters)) :
    Clear (spaced letters) cs [] ↔ ¬ spaced letters <:+: cs.map Char.toLower := by
  constructor
  · rintro clear ⟨front, behind, same⟩
    rw [eq_comm, List.append_assoc, List.map_eq_append_iff] at same
    obtain ⟨front', rest, rfl, -, same⟩ := same
    obtain ⟨read, after, rfl, spelt, -⟩ := List.map_eq_append_iff.mp same
    have found : afterWord? (spaced letters) (read ++ after) = some (read, after) :=
      afterWord?_eq_some_iff.mpr ⟨rfl, spells_of_toLower spelt⟩
    have nonempty : read ++ after ≠ [] := by
      rintro none
      rw [(List.append_eq_nil_iff.mp none).1] at spelt
      cases spelt
    have none := clear (read ++ after) nonempty (List.suffix_append _ _)
    rw [List.append_nil, found] at none
    cases none
  · exact clear_of_no_infix plain

theorem WellFormed.apart (wellFormed : written.WellFormed) {letters : List Char}
    (separates : Separates letters) (no : ¬ spaced letters <:+: smallLetters written.text) :
    Apart letters written.text.toList where
  clear := clear_of_no_infix separates.plain no
  ends := by
    intro letter isLetter c isLast
    obtain ⟨last, ends, same⟩ := wellFormed.last_text
    obtain rfl : last = c := Option.some.inj (same.symm.trans isLast)
    by_contra like
    rw [separates.ends letter isLetter last (by simpa using like)] at ends
    cases ends

theorem WellFormed.apart_and (wellFormed : written.WellFormed) : Apart "and".toList written.text.toList :=
  wellFormed.apart separates_and wellFormed.noAnd

theorem WellFormed.apart_or (wellFormed : written.WellFormed) : Apart "or".toList written.text.toList :=
  wellFormed.apart separates_or wellFormed.noOr

theorem sign_cons (operator : Operator) :
    ∃ c rest, operator.sign.toList = c :: rest ∧ (c = '<' ∨ c = '>' ∨ c = '=' ∨ c = ' ') := by
  cases operator with
  | lessOrEqual => exact ⟨'<', ['='], rfl, by decide⟩
  | less => exact ⟨'<', [], rfl, by decide⟩
  | greaterOrEqual => exact ⟨'>', ['='], rfl, by decide⟩
  | greater => exact ⟨'>', [], rfl, by decide⟩
  | equal => exact ⟨'=', [], rfl, by decide⟩
  | like => exact ⟨' ', "like ".toList, rfl, by decide⟩
  | memberOf => exact ⟨' ', "in ".toList, rfl, by decide⟩

theorem not_looksLike_of_sign {letter c : Char} (isLetter : letter ∈ "and".toList)
    (starts : c = '<' ∨ c = '>' ∨ c = '=' ∨ c = ' ') : looksLike letter c = false := by
  simp only [toList_and, List.mem_cons, List.not_mem_nil, or_false] at isLetter
  rcases isLetter with rfl | rfl | rfl <;> rcases starts with rfl | rfl | rfl | rfl <;> simp [looksLike]

/-- No clause starts with the word `and` in front of a blank: its field is another word. -/
theorem WellFormed.starts (wellFormed : written.WellFormed) (rest : List Char) :
    afterWord? ("and".toList ++ [' ']) (written.text.toList ++ rest) = none := by
  by_contra found
  obtain ⟨⟨read, after⟩, found⟩ := Option.ne_none_iff_exists'.mp found
  obtain ⟨same, related⟩ := afterWord?_eq_some_iff.mp found
  obtain ⟨c, more, sign, starts⟩ := sign_cons written.operator
  obtain ⟨x, y, z, blank, rfl, likeA, likeN, likeD, likeBlank⟩ : ∃ x y z blank, read = [x, y, z, blank] ∧
      looksLike 'a' x = true ∧ looksLike 'n' y = true ∧ looksLike 'd' z = true ∧
      looksLike ' ' blank = true := by
    rw [toList_and] at related
    cases related with
    | cons a related => cases related with
      | cons n related => cases related with
        | cons d related => cases related with
          | cons b related => cases related with
            | nil => exact ⟨_, _, _, _, rfl, a, n, d, b⟩
  have unlike {letter : Char} (isLetter : letter ∈ "and".toList) : looksLike letter c ≠ true := by
    simp [not_looksLike_of_sign isLetter starts]
  have named := wellFormed.toList_field_ne_nil
  have word := wellFormed.word
  have notAnd := wellFormed.notAnd
  rw [toList_text, sign] at same
  rw [smallLetters] at notAnd
  -- The blank is the fourth character, so the field would have just the three letters.
  generalize written.field.toList = field at same named word notAnd
  rcases field with _ | ⟨a, _ | ⟨b, _ | ⟨d, _ | ⟨e, field⟩⟩⟩⟩
  · exact named rfl
  · obtain ⟨rfl, rfl, -⟩ : a = x ∧ c = y ∧ _ := by simpa using same
    exact unlike (by simp) likeN
  · obtain ⟨rfl, rfl, rfl, -⟩ : a = x ∧ b = y ∧ c = z ∧ _ := by simpa using same
    exact unlike (by simp) likeD
  · obtain ⟨rfl, rfl, rfl, -⟩ : a = x ∧ b = y ∧ d = z ∧ _ := by simpa using same
    refine notAnd (toLower_of_spells (fun letter member => separates_and.plain letter ?_) ?_)
    · simp only [spaced, List.mem_cons, List.mem_append]
      exact .inr (.inl member)
    · rw [toList_and]
      exact .cons likeA (.cons likeN (.cons likeD .nil))
  · obtain ⟨-, -, -, rfl, -⟩ : a = x ∧ b = y ∧ d = z ∧ e = blank ∧ _ := by simpa using same
    obtain rfl : e = ' ' := by simpa [looksLike] using likeBlank
    exact absurd (word ' ' (by simp)) (by decide)

/-- The clauses with a word between them. -/
def joined (connective : Expression.Connective) (clauses : List WrittenClause) : String :=
  (" " ++ connective.word ++ " ").intercalate (clauses.map text)

variable {clauses : List WrittenClause}

theorem toList_joined (connective : Expression.Connective) (clauses : List WrittenClause) :
    (joined connective clauses).toList =
      (spaced connective.word.toList).intercalate (clauses.map (·.text.toList)) := by
  simp [joined, String.toList_intercalate, spaced, Function.comp_def]

theorem clear_or {rest : List Char} (h : afterWord? ("and".toList ++ [' ']) rest = none) :
    Clear (spaced "and".toList) (spaced "or".toList) rest := by
  rw [toList_and] at h
  rw [toList_and, toList_or]
  intro start nonempty inside
  simp only [spaced, List.cons_append, List.nil_append, List.suffix_cons_iff, List.suffix_nil,
    nonempty, or_false] at inside h ⊢
  rcases inside with rfl | rfl | rfl | rfl
  · simp [afterWord?, looksLike]
  · simp [afterWord?, looksLike]
  · simp [afterWord?, looksLike]
  · simpa [afterWord?, looksLike] using h

theorem clear_and (wellFormed : ∀ written ∈ clauses, written.WellFormed) :
    Clear (spaced "and".toList) ((spaced "or".toList).intercalate (clauses.map (·.text.toList))) [] := by
  induction clauses with
  | nil => exact fun start nonempty inside => absurd (List.suffix_nil.mp inside) nonempty
  | cons written clauses ih =>
      obtain ⟨first, others⟩ := List.forall_mem_cons.mp wellFormed
      cases clauses with
      | nil =>
          rw [List.map_singleton, List.intercalate_singleton]
          exact first.apart_and.clear
      | cons next clauses =>
          rw [List.map_cons, List.map_cons, List.intercalate_cons_cons, List.append_assoc]
          refine (first.apart_and.before separates_and.blankless rfl).append ?_
          refine (clear_or ?_).append (ih others)
          rw [List.append_nil]
          have second : next.WellFormed := others next List.mem_cons_self
          cases clauses with
          | nil =>
              rw [List.map_nil, List.intercalate_singleton, ← List.append_nil next.text.toList]
              exact second.starts []
          | cons more clauses =>
              rw [List.map_cons, List.intercalate_cons_cons, List.append_assoc]
              exact second.starts _

/-- The clauses are those that are written. -/
abbrev AreRead (clauses : List WrittenClause) (read : List Clause) : Prop :=
  List.Forall₂ (fun written clause => written.clause? = some clause) clauses read

theorem ofTexts_written (wellFormed : ∀ written ∈ clauses, written.WellFormed) :
    ∃ read, Clause.ofTexts (clauses.map (·.text.toList)) = .ok read ∧ AreRead clauses read := by
  induction clauses with
  | nil => exact ⟨[], rfl, .nil⟩
  | cons written clauses ih =>
      obtain ⟨first, others⟩ := List.forall_mem_cons.mp wellFormed
      obtain ⟨clause, same, read⟩ := first.ofText
      obtain ⟨rest, later, related⟩ := ih others
      refine ⟨clause :: rest, ?_, .cons same related⟩
      rw [List.map_cons, Clause.ofTexts, read, later]
      rfl

theorem splitAnd_eq (cs : List Char) : splitAnd cs = splitAtWord (spaced "and".toList) [] cs.length cs :=
  rfl

theorem splitOr_eq (cs : List Char) : splitOr cs = splitAtWord (spaced "or".toList) [] cs.length cs :=
  rfl

theorem WellFormed.stripped_text {written : WrittenClause} (wellFormed : written.WellFormed) :
    Text.stripEnds Text.isBlank written.text.toList = written.text.toList := by
  refine Text.stripEnds_self (fun c first => ?_) fun c isLast => ?_
  · rw [toList_text, List.head?_append_of_ne_nil _ wellFormed.toList_field_ne_nil] at first
    exact isBlank_of_isWordCharacter (wellFormed.word c (List.mem_of_mem_head? first))
  · obtain ⟨last, ends, same⟩ := wellFormed.last_text
    obtain rfl : last = c := Option.some.inj (same.symm.trans isLast)
    exact isBlank_of_endsClause ends

theorem ofText_one {written : WrittenClause} (wellFormed : written.WellFormed) :
    ∃ clause, written.clause? = some clause ∧ Filter.ofText written.text = .ok (.all [clause]) := by
  obtain ⟨clause, same, read⟩ := wellFormed.ofText
  refine ⟨clause, same, ?_⟩
  have conjuncts : splitAnd written.text.toList = [written.text.toList] :=
    splitAtWord_clear wellFormed.apart_and.clear (Nat.le_refl _)
  have disjuncts : splitOr written.text.toList = [written.text.toList] :=
    splitAtWord_clear wellFormed.apart_or.clear (Nat.le_refl _)
  simp only [Filter.ofText, conjuncts, disjuncts, List.length_singleton, Nat.lt_irrefl, if_false,
    wellFormed.stripped_text, read]
  rfl

theorem ofText_several (connective : Expression.Connective)
    (wellFormed : ∀ written ∈ clauses, written.WellFormed) (several : 1 < clauses.length) :
    ∃ read, AreRead clauses read ∧
      Filter.ofText (joined connective clauses) =
        .ok (match connective with | .and => .all read | .or => .any read) := by
  obtain ⟨read, ofTexts, related⟩ := ofTexts_written wellFormed
  refine ⟨read, related, ?_⟩
  have nonempty : clauses.map (·.text.toList) ≠ [] := by
    intro none
    rw [List.map_eq_nil_iff.mp none] at several
    simp at several
  have many : 1 < (clauses.map (·.text.toList)).length := by rwa [List.length_map]
  cases connective with
  | and =>
      have conjuncts : splitAnd (joined .and clauses).toList = clauses.map (·.text.toList) := by
        rw [splitAnd_eq, toList_joined]
        refine splitAtWord_intercalate ?_ separates_and.blankless nonempty (Nat.le_refl _)
        exact List.forall_mem_map.mpr fun written member => (wellFormed written member).apart_and
      simp only [Filter.ofText, conjuncts, many, if_true, ofTexts]
      rfl
  | or =>
      have conjuncts : splitAnd (joined .or clauses).toList = [(joined .or clauses).toList] := by
        rw [splitAnd_eq]
        refine splitAtWord_clear ?_ (Nat.le_refl _)
        rw [toList_joined]
        exact clear_and wellFormed
      have disjuncts : splitOr (joined .or clauses).toList = clauses.map (·.text.toList) := by
        rw [splitOr_eq, toList_joined]
        refine splitAtWord_intercalate ?_ separates_or.blankless nonempty (Nat.le_refl _)
        exact List.forall_mem_map.mpr fun written member => (wellFormed written member).apart_or
      simp only [Filter.ofText, conjuncts, disjuncts, List.length_singleton, Nat.lt_irrefl, if_false, many,
        if_true, ofTexts]
      rfl

/-- Clauses with a word between them are read as the clauses that are written. -/
theorem ofText_joined (connective : Expression.Connective) (nonempty : clauses ≠ [])
    (wellFormed : ∀ written ∈ clauses, written.WellFormed) :
    ∃ read, AreRead clauses read ∧
      Filter.ofText (joined connective clauses) = .ok (.ofClauses connective read) := by
  cases clauses with
  | nil => exact absurd rfl nonempty
  | cons written clauses =>
      cases clauses with
      | nil =>
          obtain ⟨clause, same, read⟩ := ofText_one (wellFormed written List.mem_cons_self)
          refine ⟨[clause], .cons same .nil, ?_⟩
          rw [joined, List.map_singleton, String.intercalate_singleton, read]
          cases connective <;> rfl
      | cons next clauses =>
          obtain ⟨read, related, ofText⟩ := ofText_several connective wellFormed (by simp)
          refine ⟨read, related, ofText.trans ?_⟩
          cases related with
          | cons _ related => cases related with
            | cons _ _ => cases connective <;> rfl

end WrittenClause

end GuardedStore.Query
