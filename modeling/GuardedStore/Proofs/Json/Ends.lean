import Mathlib
import GuardedStore.Json.Reader
import GuardedStore.Proofs.Run

/-! # Where JSON values end

The text of a value ends with a quote, a closing bracket or brace, a digit, or the last letter of a word
that JSON knows. The last character of a JSON text without white space at its end is one of these, so no
other word ends there.
-/

namespace GuardedStore.Json

variable {cs later rest : List Char} {fuel : Nat} {v : Value}

/-- Whether a character ends the text of some value. -/
def endsValue (c : Char) : Bool :=
  c.isDigit || ['"', ']', '\x7d', 'l', 'e', 'N', 'y'].contains c

/-- What is left stands behind the end of a value. -/
def Behind (cs rest : List Char) : Prop :=
  ∃ last, endsValue last = true ∧ (last :: rest) <:+ cs

theorem Behind.suffix (h : Behind cs rest) : rest <:+ cs :=
  let ⟨last, _, inside⟩ := h
  (List.suffix_cons last rest).trans inside

theorem Behind.mono (h : Behind later rest) (inside : later <:+ cs) : Behind cs rest :=
  let ⟨last, ends, behind⟩ := h
  ⟨last, ends, behind.trans inside⟩

theorem Behind.cons (h : Behind later rest) (c : Char) : Behind (c :: later) rest :=
  h.mono (List.suffix_cons c later)

theorem behind_self {last : Char} (ends : endsValue last = true) (rest : List Char) :
    Behind (last :: rest) rest :=
  ⟨last, ends, List.suffix_refl _⟩

theorem skipSpace_suffix (cs : List Char) : skipSpace cs <:+ cs :=
  List.dropWhile_suffix _

theorem behind_of_readUnits {opening : Nat} {units : List Nat}
    (h : readUnits opening cs = .ok (units, rest)) : Behind cs rest := by
  fun_induction readUnits opening cs generalizing units with
  | case1 => cases h
  | case2 cs =>
      cases h
      exact behind_self (by decide) _
  | case3 a b c d unit next rest' read ih =>
      obtain ⟨⟨units, behind⟩, inner, same⟩ := except_map_ok_iff.mp h
      cases same
      exact (((((ih inner).cons d).cons c).cons b).cons a).cons 'u' |>.cons '\\'
  | case4 => cases h
  | case5 => cases h
  | case6 e rest' _ _ c escaped ih =>
      obtain ⟨⟨units, behind⟩, inner, same⟩ := except_map_ok_iff.mp h
      cases same
      exact ((ih inner).cons e).cons '\\'
  | case7 => cases h
  | case8 => cases h
  | case9 => cases h
  | case10 c cs _ _ _ _ _ printable ih =>
      obtain ⟨⟨units, behind⟩, inner, same⟩ := except_map_ok_iff.mp h
      cases same
      exact (ih inner).cons c

theorem behind_of_readText {opening : Nat} {s : String} (h : readText opening cs = .ok (s, rest)) :
    Behind cs rest := by
  obtain ⟨⟨units, behind⟩, inner, same⟩ := except_map_ok_iff.mp h
  cases same
  exact behind_of_readUnits inner

theorem behind_of_span {digits : List Char} (h : cs.span Char.isDigit = (digits, rest))
    (nonempty : digits ≠ []) : Behind cs rest := by
  rw [List.span_eq_takeWhile_dropWhile] at h
  cases h
  obtain ⟨front, last, same⟩ := List.eq_nil_or_concat' (cs.takeWhile Char.isDigit) |>.resolve_left nonempty
  have digit : last.isDigit = true := List.mem_takeWhile_imp (by rw [same]; simp)
  refine ⟨last, by simp [endsValue, digit], ⟨front, ?_⟩⟩
  calc front ++ last :: cs.dropWhile Char.isDigit
      = cs.takeWhile Char.isDigit ++ cs.dropWhile Char.isDigit := by simp [same]
    _ = cs := List.takeWhile_append_dropWhile

theorem behind_of_wholePart? {whole : List Char} (h : wholePart? cs = some (whole, rest)) :
    Behind cs rest := by
  unfold wholePart? at h
  split at h
  · cases h
    exact behind_self (by decide) _
  · rename_i c cs _
    split at h
    · rename_i digit
      have parts := Option.some.inj h
      refine behind_of_span parts ?_
      rintro rfl
      simp [List.span_eq_takeWhile_dropWhile, digit] at parts
    · cases h
  · cases h

/-- What is left is what there was, or it stands behind the end of a value. -/
def Past (cs rest : List Char) : Prop :=
  rest = cs ∨ Behind cs rest

theorem Behind.past (h : Behind cs later) (past : Past later rest) : Behind cs rest := by
  rcases past with rfl | behind
  · exact h
  · exact behind.mono h.suffix

theorem past_of_fractionPart {fraction : List Char} (h : fractionPart cs = (fraction, rest)) :
    Past cs rest := by
  unfold fractionPart at h
  split at h
  · rename_i cs
    split at h
    · cases h
      exact .inl rfl
    · rename_i parts some
      refine .inr ((behind_of_span h ?_).cons '.')
      rintro rfl
      exact some _ h
  · cases h
    exact .inl rfl

theorem readSign_suffix (cs : List Char) : (Numeral.readSign cs).2 <:+ cs := by
  unfold Numeral.readSign
  split
  · exact List.suffix_cons _ _
  · exact List.suffix_cons _ _
  · exact List.suffix_refl _

theorem past_of_exponentPart {exponent : Option Int} (h : exponentPart cs = (exponent, rest)) :
    Past cs rest := by
  unfold exponentPart at h
  split at h
  · rename_i c after
    split at h
    · simp only at h
      split at h
      · cases h
        exact .inl rfl
      · rename_i digits rest some parts
        cases h
        refine .inr (((behind_of_span parts ?_).mono (readSign_suffix after)).cons c)
        rintro rfl
        exact some rfl
    · cases h
      exact .inl rfl
  · cases h
    exact .inl rfl

theorem behind_of_readNumber (h : readNumber cs = .ok (v, rest)) : Behind cs rest := by
  unfold readNumber at h
  split at h
  rename_i negative unsigned sign
  have inside : unsigned <:+ cs := by
    split at sign
    · cases sign
      exact List.suffix_cons _ _
    · cases sign
      exact List.suffix_refl _
  split at h
  · cases h
  · rename_i whole later read
    have left : (exponentPart (fractionPart later).2).2 = rest := by
      simp only at h
      split at h
      · split at h
        · cases h
        · cases h
          rfl
      · cases h
        rfl
    subst left
    have behind := (behind_of_wholePart? read).past (past_of_fractionPart rfl)
    exact (behind.past (past_of_exponentPart rfl)).mono inside

theorem behind_of_afterWord? {word : String} {last : Char} (ends : endsValue last = true)
    (isLast : word.toList.getLast? = some last) (h : afterWord? word cs = some rest) :
    Behind cs rest := by
  unfold afterWord? at h
  split at h
  · rename_i starts
    obtain ⟨after, rfl⟩ := List.isPrefixOf_iff_prefix.mp starts
    obtain ⟨front, same⟩ := List.getLast?_eq_some_iff.mp isLast
    have left : rest = after := by
      rw [← Option.some.inj h, ← String.length_toList, List.drop_left]
    subst left
    exact ⟨last, ends, ⟨front, by rw [same]; simp⟩⟩
  · cases h

theorem wordValues_end : ∀ entry ∈ wordValues,
    ∃ last, endsValue last = true ∧ entry.1.toList.getLast? = some last := by
  have ends : ∀ entry ∈ wordValues, (entry.1.toList.getLast?.map endsValue) = some true := by decide
  intro entry member
  obtain ⟨last, isLast, ends⟩ := Option.map_eq_some_iff.mp (ends entry member)
  exact ⟨last, ends, isLast⟩

theorem behind_of_readScalar (h : readScalar cs = .ok (v, rest)) : Behind cs rest := by
  unfold readScalar at h
  split at h
  · rename_i word
    cases h
    obtain ⟨⟨word, value⟩, member, found⟩ := List.exists_of_findSome?_eq_some word
    obtain ⟨left, after, same⟩ := Option.map_eq_some_iff.mp found
    cases same
    obtain ⟨last, ends, isLast⟩ := wordValues_end _ member
    exact behind_of_afterWord? ends isLast after
  · exact behind_of_readNumber h

theorem suffix_of_skipSpace {c : Char} (h : skipSpace cs = c :: later) : (c :: later) <:+ cs :=
  h ▸ skipSpace_suffix cs

mutual

theorem behind_of_readValue {fuel : Nat} {cs rest : List Char} {v : Value}
    (h : readValue fuel cs = .ok (v, rest)) : Behind cs rest := by
  cases fuel with
  | zero => cases h
  | succ fuel =>
      unfold readValue at h
      split at h
      · obtain ⟨⟨s, left⟩, read, done⟩ := except_bind_ok_iff.mp h
        cases done
        exact (behind_of_readText read).cons _
      · rename_i inner
        split at h
        · rename_i closed
          cases h
          exact ((behind_self (by decide) _).mono (suffix_of_skipSpace closed)).cons _
        · obtain ⟨⟨items, left⟩, read, done⟩ := except_bind_ok_iff.mp h
          cases done
          exact ((behind_of_readItems read).mono (skipSpace_suffix inner)).cons _
      · rename_i inner
        split at h
        · rename_i closed
          cases h
          exact ((behind_self (by decide) _).mono (suffix_of_skipSpace closed)).cons _
        · obtain ⟨⟨pairs, left⟩, read, done⟩ := except_bind_ok_iff.mp h
          cases done
          exact ((behind_of_readPairs read).mono (skipSpace_suffix inner)).cons _
      · exact behind_of_readScalar h
termination_by fuel

theorem behind_of_readItems {fuel : Nat} {cs rest : List Char} {items : List Value}
    (h : readItems fuel cs = .ok (items, rest)) : Behind cs rest := by
  cases fuel with
  | zero => cases h
  | succ fuel =>
      unfold readItems at h
      obtain ⟨⟨item, left⟩, first, h⟩ := except_bind_ok_iff.mp h
      have behind := (behind_of_readValue first).suffix
      simp only at h
      split at h
      · rename_i closed
        cases h
        exact (behind_self (by decide) _).mono ((suffix_of_skipSpace closed).trans behind)
      · rename_i later more
        obtain ⟨⟨items, left⟩, read, done⟩ := except_bind_ok_iff.mp h
        cases done
        have inner := (behind_of_readItems read).mono (skipSpace_suffix later)
        exact (inner.cons ',').mono ((suffix_of_skipSpace more).trans behind)
      · cases h
termination_by fuel

theorem behind_of_readPairs {fuel : Nat} {cs rest : List Char} {pairs : List (String × Value)}
    (h : readPairs fuel cs = .ok (pairs, rest)) : Behind cs rest := by
  cases fuel with
  | zero => cases h
  | succ fuel =>
      unfold readPairs at h
      split at h
      · rename_i quoted
        obtain ⟨⟨name, left⟩, named, h⟩ := except_bind_ok_iff.mp h
        have afterName := ((behind_of_readText named).cons '"').suffix
        simp only at h
        split at h
        · rename_i valued colon
          obtain ⟨⟨v, left⟩, read, h⟩ := except_bind_ok_iff.mp h
          have atColon := (suffix_of_skipSpace colon).trans afterName
          have atValue := (skipSpace_suffix valued).trans ((List.suffix_cons ':' valued).trans atColon)
          have behind := ((behind_of_readValue read).mono atValue).suffix
          simp only at h
          split at h
          · rename_i closed
            cases h
            exact (behind_self (by decide) _).mono ((suffix_of_skipSpace closed).trans behind)
          · rename_i later more
            obtain ⟨⟨pairs, left⟩, others, done⟩ := except_bind_ok_iff.mp h
            cases done
            have inner := (behind_of_readPairs others).mono (skipSpace_suffix later)
            exact (inner.cons ',').mono ((suffix_of_skipSpace more).trans behind)
          · cases h
        · cases h
      · cases h
termination_by fuel

end

theorem readAll_of_parse? {text : String} (h : parse? text = some v) : readAll text.toList = .ok v := by
  unfold parse? parse at h
  cases read : readAll text.toList with
  | ok w =>
      rw [read] at h
      exact congrArg Except.ok (Option.some.inj h)
  | error stop =>
      rw [read] at h
      cases h

/-- In a text that is JSON, a value is read behind the white space, and nothing but white space is left. -/
theorem readAll_ok (h : readAll cs = .ok v) :
    ∃ fuel rest, readValue (fuel + 1) (skipSpace cs) = .ok (v, rest) ∧ skipSpace rest = [] := by
  unfold readAll at h
  simp only at h
  split at h
  · cases h
  · obtain ⟨⟨w, rest⟩, read, h⟩ := except_bind_ok_iff.mp h
    simp only at h
    split at h
    · rename_i done
      cases h
      exact ⟨_, rest, read, done⟩
    · cases h

theorem last_of_parse? {text : String} (h : parse? text = some v)
    (tight : ∀ c ∈ text.toList.getLast?, isSpace c = false) :
    ∃ last, endsValue last = true ∧ text.toList.getLast? = some last := by
  obtain ⟨fuel, rest, read, spaces⟩ := readAll_ok (readAll_of_parse? h)
  obtain ⟨last, ends, front, same⟩ := (behind_of_readValue read).mono (skipSpace_suffix _)
  refine ⟨last, ends, ?_⟩
  rcases List.eq_nil_or_concat' rest with rfl | ⟨others, c, rfl⟩
  · rw [← same, List.getLast?_append_of_ne_nil _ (List.cons_ne_nil _ _), List.getLast?_singleton]
  · have space : isSpace c = true := by
      rw [skipSpace, List.dropWhile_eq_nil_iff] at spaces
      exact spaces c (by simp)
    have isLast : text.toList.getLast? = some c :=
      List.getLast?_eq_some_iff.mpr ⟨front ++ last :: others, by simp [← same]⟩
    rw [tight c isLast] at space
    cases space

theorem readScalar_equals (rest : List Char) : readScalar ('=' :: rest) = stopAt ('=' :: rest) := rfl

theorem head_of_parse? {text : String} (h : parse? text = some v) :
    ∃ c rest, text.toList = c :: rest ∧ c ≠ '=' := by
  obtain ⟨fuel, left, read, -⟩ := readAll_ok (readAll_of_parse? h)
  cases first : text.toList with
  | nil =>
      obtain ⟨last, -, inside⟩ := behind_of_readValue read
      rw [first] at inside
      exact absurd (List.suffix_nil.mp inside) (List.cons_ne_nil _ _)
  | cons c rest =>
      refine ⟨c, rest, rfl, ?_⟩
      rintro rfl
      rw [first, show skipSpace ('=' :: rest) = '=' :: rest from rfl] at read
      have stuck : readValue (fuel + 1) ('=' :: rest) = readScalar ('=' :: rest) := by
        simp [readValue]
      rw [stuck, readScalar_equals] at read
      cases read

end GuardedStore.Json
