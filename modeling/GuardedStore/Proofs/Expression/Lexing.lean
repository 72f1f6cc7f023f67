import Mathlib
import GuardedStore.Proofs.Expression.Writing

/-! # Tokens of written rules

A written token is read back, whatever it is written like, if white space or nothing comes behind it. So
the tokens of a rule are those that it was written with.
-/

namespace GuardedStore.Expression

open Token (isSkipped startsName continuesName read? readNumber? readText? readSign? ofWord)

/-- Nothing but white space follows directly. -/
def Apart (rest : List Char) : Prop :=
  ∀ c ∈ rest.head?, c ∈ [' ', '\t', '\r', '\n']

theorem apart_nil : Apart [] := nofun

/-- Whether a token can be read back. -/
def Token.isLegible : Token → Bool
  | .number (.int n) => (Literal.int n).isShort
  | .number _ => false
  | .name s => isName s
  | _ => true

theorem isSkipped_of_blank {c : Char} (h : c ∈ [' ', '\t', '\r', '\n']) : isSkipped c = true := by
  simp only [List.mem_cons, List.not_mem_nil, or_false] at h
  rcases h with rfl | rfl | rfl | rfl <;> rfl

theorem continuesName_of_blank {c : Char} (h : c ∈ [' ', '\t', '\r', '\n']) :
    continuesName c = false := by
  simp only [List.mem_cons, List.not_mem_nil, or_false] at h
  rcases h with rfl | rfl | rfl | rfl <;> rfl

theorem isDigit_of_blank {c : Char} (h : c ∈ [' ', '\t', '\r', '\n']) : Text.isDigit c = false := by
  simp only [List.mem_cons, List.not_mem_nil, or_false] at h
  rcases h with rfl | rfl | rfl | rfl <;> rfl

theorem digit?_of_isDigit {c : Char} (h : c.isDigit = true) :
    Text.digit? c = some (c.toNat - '0'.toNat) := by
  have small : c.toNat < 128 := by
    simp only [Char.isDigit, Bool.and_eq_true, decide_eq_true_eq, UInt32.le_iff_toNat_le] at h
    have : c.toNat = c.val.toNat := rfl
    have : '9'.val.toNat = 57 := rfl
    omega
  rw [Text.digit?, if_pos small, if_pos h]
  rfl

theorem isDigit_of_ascii {c : Char} (h : c.isDigit = true) : Text.isDigit c = true := by
  rw [Text.isDigit, digit?_of_isDigit h]
  rfl

/-- What starts a name starts nothing else. -/
theorem startsName_apart {c : Char} (h : startsName c = true) :
    c ≠ '-' ∧ Text.isDigit c = false ∧ isSkipped c = false ∧ c ≠ '\x27' ∧ c ≠ '"' := by
  have other (d : Char) (no : startsName d = false) : c ≠ d := by
    rintro rfl
    rw [h] at no
    cases no
  refine ⟨other _ rfl, ?_, ?_, other _ rfl, other _ rfl⟩
  · simp only [startsName, Bool.or_eq_true, decide_eq_true_eq] at h
    rcases h with (letter | rfl) | rfl
    · have bounds : c.toNat < 128 ∧ c.isDigit = false := by
        simp only [Char.isAlpha, Char.isUpper, Char.isLower, Char.isDigit, Bool.or_eq_true,
          Bool.and_eq_true, decide_eq_true_eq, UInt32.le_iff_toNat_le, ge_iff_le,
          Bool.and_eq_false_iff, decide_eq_false_iff_not] at letter ⊢
        have : c.toNat = c.val.toNat := rfl
        have : 'A'.val.toNat = 65 := rfl
        have : 'Z'.val.toNat = 90 := rfl
        have : 'a'.val.toNat = 97 := rfl
        have : 'z'.val.toNat = 122 := rfl
        have : '9'.val.toNat = 57 := rfl
        omega
      simp [Text.isDigit, Text.digit?, bounds.1, bounds.2]
    · rfl
    · rfl
  · simp only [isSkipped, Bool.or_eq_false_iff, decide_eq_false_iff_not]
    exact ⟨⟨⟨other _ rfl, other _ rfl⟩, other _ rfl⟩, other _ rfl⟩

theorem readNumber?_of_head {c : Char} (h : c ≠ '-') (h' : Text.isDigit c = false) (cs : List Char) :
    readNumber? (c :: cs) = none := by
  simp [readNumber?, h, h', List.span_eq_takeWhile_dropWhile]

theorem digits_end {digits rest : List Char} (h : ∀ c ∈ digits, c.isDigit = true)
    (apart : Apart rest) : (digits ++ rest).takeWhile Text.isDigit = digits ∧
      (digits ++ rest).dropWhile Text.isDigit = rest := by
  have all : ∀ c ∈ digits, Text.isDigit c = true := fun c member => isDigit_of_ascii (h c member)
  have stop : rest.takeWhile Text.isDigit = [] ∧ rest.dropWhile Text.isDigit = rest := by
    cases rest with
    | nil => exact ⟨rfl, rfl⟩
    | cons c rest =>
        have no : Text.isDigit c = false := isDigit_of_blank (apart c rfl)
        simp [no]
  rw [List.takeWhile_append_of_pos all, List.dropWhile_append_of_pos all, stop.1, stop.2,
    List.append_nil]
  exact ⟨rfl, rfl⟩

theorem natOfDigits_eq {digits : List Char} (h : ∀ c ∈ digits, c.isDigit = true) :
    Token.natOfDigits digits = Nat.ofDigitChars 10 digits 0 := by
  rw [Token.natOfDigits, Nat.ofDigitChars]
  refine List.foldl_ext _ _ _ fun n c member => ?_
  rw [digit?_of_isDigit (h c member), Option.getD_some, Nat.mul_comm]

theorem natOfDigits_toDigits (n : Nat) : Token.natOfDigits (Nat.toDigits 10 n) = n := by
  rw [natOfDigits_eq fun c member => Nat.isDigit_of_mem_toDigits (by decide) (by decide) member]
  exact Nat.ofDigitChars_toDigits (by decide) (by decide)

theorem toList_negSucc (n : Nat) :
    (toString (Int.negSucc n)).toList = '-' :: Nat.toDigits 10 (n + 1) := by
  rw [show toString (Int.negSucc n) = "-" ++ (n + 1).repr from rfl, String.toList_append]
  exact congrArg ('-' :: ·) String.toList_ofList

theorem ne_point_of_apart {c : Char} {rest : List Char} (apart : Apart (c :: rest)) : c ≠ '.' := by
  rintro rfl
  exact absurd (apart '.' rfl) (by decide)

theorem readNumber?_digits {digits rest : List Char} (h : ∀ c ∈ digits, c.isDigit = true)
    (nonempty : digits ≠ []) (apart : Apart rest) :
    readNumber? (digits ++ rest) = Token.integer? false digits := by
  have cut := digits_end h apart
  obtain ⟨c, cs, rfl⟩ := List.exists_cons_of_ne_nil nonempty
  have unsigned : c ≠ '-' := by
    rintro rfl
    exact absurd (h _ List.mem_cons_self) (by decide)
  cases rest with
  | nil =>
      rw [List.append_nil] at cut ⊢
      simp [readNumber?, unsigned, List.span_eq_takeWhile_dropWhile, cut]
  | cons d rest =>
      rw [List.cons_append] at cut ⊢
      simp [readNumber?, unsigned, List.span_eq_takeWhile_dropWhile, cut, ne_point_of_apart apart]

theorem readNumber?_negative {digits rest : List Char} (h : ∀ c ∈ digits, c.isDigit = true)
    (nonempty : digits ≠ []) (apart : Apart rest) :
    readNumber? ('-' :: digits ++ rest) = Token.integer? true digits := by
  have cut := digits_end h apart
  obtain ⟨c, cs, rfl⟩ := List.exists_cons_of_ne_nil nonempty
  cases rest with
  | nil =>
      rw [List.append_nil] at cut ⊢
      simp [readNumber?, List.span_eq_takeWhile_dropWhile, cut]
  | cons d rest =>
      rw [List.cons_append] at cut
      simp [readNumber?, List.span_eq_takeWhile_dropWhile, cut, ne_point_of_apart apart]

theorem isDigit_of_decimal {n : Nat} : ∀ c ∈ Nat.toDigits 10 n, c.isDigit = true := fun _ member =>
  Nat.isDigit_of_mem_toDigits (by decide) (by decide) member

theorem readNumber?_int (n : Int) {rest : List Char} (apart : Apart rest) :
    readNumber? ((toString n).toList ++ rest) = Token.integer? (n < 0) (Nat.toDigits 10 n.natAbs) := by
  cases n with
  | ofNat m =>
      have text : (toString (Int.ofNat m)).toList = Nat.toDigits 10 m := String.toList_ofList
      rw [text, readNumber?_digits isDigit_of_decimal Nat.toDigits_ne_nil apart]
      rfl
  | negSucc m =>
      rw [toList_negSucc, readNumber?_negative isDigit_of_decimal Nat.toDigits_ne_nil apart,
        decide_eq_true (Int.negSucc_lt_zero m)]
      rfl

theorem isShort_iff {n : Int} :
    (Literal.int n).isShort = true ↔ (Nat.toDigits 10 n.natAbs).length ≤ Numeral.digitLimit := by
  rw [Literal.isShort, decide_eq_true_eq, Nat.length_toDigits_le_iff (by decide) (by decide)]

theorem readNumber?_short {n : Int} (short : (Literal.int n).isShort = true) {rest : List Char}
    (apart : Apart rest) : readNumber? ((toString n).toList ++ rest) =
      some (.number (.int n), (toString n).toList.length) := by
  rw [readNumber?_int n apart, Token.integer?, if_neg (Nat.not_lt.mpr (isShort_iff.mp short)),
    natOfDigits_toDigits]
  cases n with
  | ofNat m =>
      have text : (toString (Int.ofNat m)).toList = Nat.toDigits 10 m := String.toList_ofList
      rw [text]
      simp
  | negSucc m =>
      rw [toList_negSucc, decide_eq_true (Int.negSucc_lt_zero m)]
      simp only [if_true, List.length_cons, Nat.add_comm 1]
      rfl

theorem readText?_written (quotes : Quotes) (body rest : List Char) :
    readText? quotes.mark (body.flatMap quotes.written ++ quotes.mark :: rest) =
      some (body, (body.flatMap quotes.written).length + 1) := by
  induction body with
  | nil => cases rest <;> simp [readText?]
  | cons c body ih =>
      obtain ⟨next, cs, behind⟩ : ∃ next cs,
          body.flatMap quotes.written ++ quotes.mark :: rest = next :: cs := by
        cases body.flatMap quotes.written <;> exact ⟨_, _, rfl⟩
      have notMark : '\\' ≠ quotes.mark := by cases quotes <;> decide
      simp only [List.flatMap_cons, List.append_assoc, Quotes.written]
      by_cases escaped : c = quotes.mark ∨ c = '\\'
      · have oneLine : c ≠ '\n' := by
          rintro rfl
          cases quotes <;> simp [Quotes.mark] at escaped
        have itself : Token.unescape c = c := by
          rcases escaped with rfl | rfl
          · cases quotes <;> rfl
          · rfl
        simp [escaped, readText?, notMark, oneLine, itself, ih]
      · obtain ⟨unmarked, unescaped⟩ := not_or.mp escaped
        rw [if_neg escaped, List.singleton_append, behind, readText?, if_neg unmarked,
          if_neg unescaped, ← behind, ih]
        simp

theorem takeWhile_name {name rest : List Char} (h : name.all continuesName = true)
    (apart : Apart rest) : (name ++ rest).takeWhile continuesName = name := by
  have stop : rest.takeWhile continuesName = [] := by
    cases rest with
    | nil => rfl
    | cons c rest => simp [continuesName_of_blank (apart c rfl)]
  rw [List.takeWhile_append_of_pos (List.all_eq_true.mp h), stop, List.append_nil]

theorem read?_word {c : Char} {name rest : List Char} (starts : startsName c = true)
    (goesOn : name.all continuesName = true) (apart : Apart rest) :
    read? (c :: name ++ rest) = some (ofWord (String.ofList (c :: name)), (c :: name).length) := by
  obtain ⟨noSign, noDigit, -, noSingle, noDouble⟩ := startsName_apart starts
  rw [List.cons_append, read?, readNumber?_of_head noSign noDigit]
  simp [noSingle, noDouble, starts, takeWhile_name goesOn apart]

/-- The first character of a text is no white space, and the text is read as a token. -/
structure ReadAs (text rest : List Char) (token : Token) : Prop where
  starts : ∃ c cs, text = c :: cs ∧ isSkipped c = false
  read : read? (text ++ rest) = some (token, text.length)

theorem readAs_word {c : Char} {name rest : List Char} (starts : startsName c = true)
    (goesOn : name.all continuesName = true) (apart : Apart rest) :
    ReadAs (c :: name) rest (ofWord (String.ofList (c :: name))) :=
  ⟨⟨c, name, rfl, (startsName_apart starts).2.2.1⟩, read?_word starts goesOn apart⟩

theorem ofWord_of_isName {s : String} (h : isName s = true) : ofWord s = .name s := by
  have free : (Token.reserved.map (·.1)).contains s = false := by
    unfold isName at h
    split at h
    · cases h
    · simpa using (Bool.and_eq_true_iff.mp h).2
  have missing : Token.reserved.find? (·.1 = s) = none := by
    rw [List.find?_eq_none]
    intro entry member same
    have known : s ∈ Token.reserved.map (·.1) :=
      List.mem_map.mpr ⟨entry, member, by simpa using same⟩
    rw [List.contains_iff_mem.mpr known] at free
    cases free
  rw [ofWord, missing]

theorem readAs_name {s : String} {rest : List Char} (h : isName s = true) (apart : Apart rest) :
    ReadAs s.toList rest (.name s) := by
  have isWord := ofWord_of_isName h
  unfold isName at h
  split at h
  · cases h
  · rename_i c name text
    simp only [Bool.and_eq_true] at h
    have read := readAs_word h.1.1 h.1.2 apart
    rw [← text, String.ofList_toList, isWord] at read
    exact text ▸ read

theorem readAs_text (quotes : Quotes) (s : String) (rest : List Char) :
    ReadAs (quotes.mark :: (s.toList.flatMap quotes.written ++ [quotes.mark])) rest (.text s) := by
  have body := readText?_written quotes s.toList rest
  refine ⟨⟨_, _, rfl, by cases quotes <;> rfl⟩, ?_⟩
  have isQuote : quotes.mark = '\x27' ∨ quotes.mark = '"' := by cases quotes <;> simp [Quotes.mark]
  have noNumber : ∀ cs, readNumber? (quotes.mark :: cs) = none := fun cs =>
    readNumber?_of_head (by cases quotes <;> decide) (by cases quotes <;> decide) cs
  rw [List.cons_append, read?, noNumber]
  simp only [isQuote, if_true, List.append_assoc, List.singleton_append, body]
  simp

theorem read?_of_number {cs : List Char} {result : Token × Nat} (h : readNumber? cs = some result) :
    read? cs = some result := by
  simp only [read?, h]

/-- Whether a character starts a sign at most. -/
def onlySign (c : Char) : Bool :=
  !isSkipped c && c ≠ '-' && !Text.isDigit c && c ≠ '\x27' && c ≠ '"' && !startsName c

theorem signs_onlySign : ∀ entry ∈ Token.signs, entry.1.head?.any onlySign = true := by
  decide

theorem readSign?_eq_none {c : Char} (h : onlySign c = false) (cs : List Char) :
    readSign? (c :: cs) = none := by
  refine List.findSome?_eq_none_iff.mpr fun (sign, token) known => if_neg fun starts => ?_
  have only := signs_onlySign _ known
  obtain ⟨after, same⟩ := List.isPrefixOf_iff_prefix.mp starts
  cases sign with
  | nil => cases only
  | cons d sign =>
      cases same
      rw [List.head?_cons, Option.any_some, h] at only
      cases only

/-- An integer starts with a minus sign or a digit, and no other token does. -/
structure StartsInt (c : Char) : Prop where
  unskipped : isSkipped c = false
  unquoted : c ≠ '\x27' ∧ c ≠ '"'
  unnamed : startsName c = false
  unsigned : onlySign c = false

theorem startsInt_of_isDigit {c : Char} (digit : Text.isDigit c = true) : StartsInt c := by
  have other (d : Char) (no : Text.isDigit d = false) : c ≠ d := by
    rintro rfl
    rw [digit] at no
    cases no
  have unskipped : isSkipped c = false := by
    simp only [isSkipped, Bool.or_eq_false_iff, decide_eq_false_iff_not]
    exact ⟨⟨⟨other _ rfl, other _ rfl⟩, other _ rfl⟩, other _ rfl⟩
  refine ⟨unskipped, ⟨other _ rfl, other _ rfl⟩, ?_, by simp [onlySign, digit]⟩
  by_contra named
  rw [(startsName_apart (Bool.eq_true_of_not_eq_false named)).2.1] at digit
  cases digit

theorem startsInt_toString (n : Int) : ∃ c cs, (toString n).toList = c :: cs ∧ StartsInt c := by
  cases n with
  | ofNat m =>
      have text : (toString (Int.ofNat m)).toList = Nat.toDigits 10 m := String.toList_ofList
      obtain ⟨c, cs, digits⟩ := List.exists_cons_of_ne_nil (Nat.toDigits_ne_nil (b := 10) (n := m))
      have first := isDigit_of_decimal c (digits ▸ List.mem_cons_self)
      exact ⟨c, cs, text.trans digits, startsInt_of_isDigit (isDigit_of_ascii first)⟩
  | negSucc m => exact ⟨'-', _, toList_negSucc m, by constructor <;> decide⟩

theorem countDigits_int (n : Int) :
    Token.countDigits (toString n).toList = (Nat.toDigits 10 n.natAbs).length := by
  have all {m : Nat} : (Nat.toDigits 10 m).takeWhile Text.isDigit = Nat.toDigits 10 m := by
    have cut := digits_end (isDigit_of_decimal (n := m)) apart_nil
    rw [List.append_nil] at cut
    exact cut.1
  cases n with
  | ofNat m =>
      have text : (toString (Int.ofNat m)).toList = Nat.toDigits 10 m := String.toList_ofList
      obtain ⟨c, cs, digits⟩ := List.exists_cons_of_ne_nil (Nat.toDigits_ne_nil (b := 10) (n := m))
      have unsigned : c ≠ '-' := by
        rintro rfl
        exact absurd (isDigit_of_decimal '-' (digits ▸ List.mem_cons_self)) (by decide)
      rw [text, Token.countDigits, all]
      · rfl
      · intro rest same
        exact unsigned (List.cons.inj (digits.symm.trans same)).1
  | negSucc m =>
      rw [toList_negSucc]
      exact congrArg List.length all

theorem readAs_int {n : Int} (short : (Literal.int n).isShort = true) {rest : List Char}
    (apart : Apart rest) : ReadAs (toString n).toList rest (.number (.int n)) := by
  obtain ⟨c, cs, text, starts⟩ := startsInt_toString n
  exact ⟨⟨c, cs, text, starts.unskipped⟩, read?_of_number (readNumber?_short short apart)⟩

/-- No token is read where an integer has too many digits. -/
theorem read?_long {n : Int} (long : ¬(Literal.int n).isShort = true) {rest : List Char}
    (apart : Apart rest) : read? ((toString n).toList ++ rest) = none := by
  have noNumber : readNumber? ((toString n).toList ++ rest) = none := by
    rw [readNumber?_int n apart, Token.integer?, if_pos (Nat.lt_of_not_le (isShort_iff.not.mp long))]
  obtain ⟨c, cs, text, starts⟩ := startsInt_toString n
  rw [text, List.cons_append] at noNumber ⊢
  simp [read?, noNumber, starts.unquoted, starts.unnamed, readSign?_eq_none starts.unsigned]

theorem readSign?_apart : ∀ entry ∈ Token.signs, ∀ rest, Apart rest →
    readSign? (entry.1 ++ rest) = some (entry.2, entry.1.length) := by
  intro entry known rest apart
  have behind : rest = [] ∨ ∃ cs, rest = ' ' :: cs ∨ rest = '\t' :: cs ∨ rest = '\r' :: cs ∨
      rest = '\n' :: cs := by
    cases rest with
    | nil => exact .inl rfl
    | cons c cs =>
        have blank := apart c rfl
        simp only [List.mem_cons, List.not_mem_nil, or_false] at blank
        exact .inr ⟨cs, by simpa using blank⟩
  simp only [Token.signs, List.mem_cons, List.not_mem_nil, or_false] at known
  rcases behind with rfl | ⟨cs, rfl | rfl | rfl | rfl⟩ <;>
    rcases known with rfl | rfl | rfl | rfl | rfl | rfl | rfl | rfl | rfl | rfl | rfl | rfl | rfl |
      rfl | rfl | rfl | rfl | rfl <;> rfl

theorem readAs_sign {entry : List Char × Token} (known : entry ∈ Token.signs) {rest : List Char}
    (apart : Apart rest) : ReadAs entry.1 rest entry.2 := by
  have read := readSign?_apart entry known rest apart
  have only := signs_onlySign entry known
  obtain ⟨c, cs, text⟩ : ∃ c cs, entry.1 = c :: cs := by
    cases text : entry.1 with
    | nil => simp [text] at only
    | cons c cs => exact ⟨c, cs, rfl⟩
  simp only [text, List.head?_cons, Option.any_some, onlySign, Bool.and_eq_true,
    Bool.not_eq_eq_eq_not, Bool.not_true, decide_eq_true_eq] at only
  obtain ⟨⟨⟨⟨⟨skipped, noMinus⟩, noDigit⟩, noSingle⟩, noDouble⟩, noName⟩ := only
  refine ⟨⟨c, cs, text, skipped⟩, ?_⟩
  rw [text, List.cons_append] at read ⊢
  simp [read?, readNumber?_of_head noMinus noDigit, noSingle, noDouble, noName, read]

theorem reserved_words : ∀ entry ∈ Token.reserved, (match entry.1.toList with
    | [] => false
    | c :: name => startsName c && name.all continuesName) = true ∧ ofWord entry.1 = entry.2 := by
  decide

theorem readAs_reserved {entry : String × Token} (known : entry ∈ Token.reserved) {rest : List Char}
    (apart : Apart rest) : ReadAs entry.1.toList rest entry.2 := by
  obtain ⟨shape, meant⟩ := reserved_words entry known
  split at shape
  · cases shape
  · rename_i c name text
    rw [Bool.and_eq_true] at shape
    have read := readAs_word shape.1 shape.2 apart
    rw [← text, String.ofList_toList, meant] at read
    exact read

theorem readAs_written {token : Token} (legible : token.isLegible = true) (hand : Hand)
    {rest : List Char} (apart : Apart rest) :
    ReadAs (token.written hand) rest (token.respelled hand.spelling) := by
  have word (token : Token) (known : (token.spelled, token) ∈ Token.reserved) :
      ReadAs token.spelled.toList rest token := readAs_reserved known apart
  have sign (token : Token) (known : (token.spelled.toList, token) ∈ Token.signs) :
      ReadAs token.spelled.toList rest token := readAs_sign known apart
  cases token with
  | number value =>
      cases value with
      | int n =>
          rw [Token.isLegible] at legible
          exact readAs_int legible apart
      | null | bool | float | str => cases legible
  | text s => exact readAs_text hand.quotes s rest
  | name s => exact readAs_name legible apart
  | constant c => exact word (.constant c) (by cases c <;> decide)
  | negation _ =>
      simp only [Token.written, Token.respelled]
      cases hand.spelling with
      | word => exact word (.negation .word) (by decide)
      | sign => exact sign (.negation .sign) (by decide)
  | connective op _ =>
      simp only [Token.written, Token.respelled]
      cases hand.spelling with
      | word => exact word (.connective op .word) (by cases op <;> decide)
      | sign => exact sign (.connective op .sign) (by cases op <;> decide)
  | comparison op => exact sign (.comparison op) (by cases op <;> decide)
  | assign => exact sign .assign (by decide)
  | openGroup => exact sign .openGroup (by decide)
  | closeGroup => exact sign .closeGroup (by decide)
  | openIndex => exact sign .openIndex (by decide)
  | closeIndex => exact sign .closeIndex (by decide)
  | dot => exact sign .dot (by decide)
  | comma => exact sign .comma (by decide)

/-- A stream begins with tokens, however their operators are spelled, and goes on with the rest. -/
inductive Begins : List Token → Tokens → Tokens → Prop
  | nil {rest : Tokens} : Begins [] rest rest
  | cons {token : Token} {tokens : List Token} {stream rest : Tokens} (spelling : Spelling)
      (offset : Nat) (others : Begins tokens stream rest) :
      Begins (token :: tokens) (.more (token.respelled spelling) offset stream) rest

theorem ofChars_gap (offset : Nat) {gap : List Char} (blank : ∀ c ∈ gap, c ∈ [' ', '\t', '\r', '\n'])
    (rest : List Char) : Tokens.ofChars offset (gap ++ rest) = Tokens.ofChars (offset + gap.length) rest := by
  induction gap generalizing offset with
  | nil => rfl
  | cons c gap ih =>
      have skipped := isSkipped_of_blank (blank c List.mem_cons_self)
      rw [List.cons_append, Tokens.ofChars, if_pos skipped,
        ih _ fun d member => blank d (List.mem_cons_of_mem _ member), List.length_cons]
      congr 1
      omega

theorem ofChars_read {text rest : List Char} {token : Token} (h : ReadAs text rest token)
    (offset : Nat) :
    Tokens.ofChars offset (text ++ rest) =
      .more token offset (Tokens.ofChars (offset + text.length) rest) := by
  obtain ⟨c, cs, rfl, skipped⟩ := h.starts
  have read := h.read
  rw [List.cons_append] at read ⊢
  rw [Tokens.ofChars, skipped, if_neg Bool.false_ne_true, read]
  simp

/-- The tokens of a text are those that it was written with. -/
theorem begins_writtenAll (hands : Nat → Hand) {tokens : List Token}
    (legible : ∀ token ∈ tokens, token.isLegible = true) (offset : Nat) :
    Begins tokens (Tokens.ofChars offset (Token.writtenAll hands tokens)) .done := by
  induction tokens generalizing hands offset with
  | nil =>
      rw [Token.writtenAll, Tokens.ofChars]
      exact .nil
  | cons token rest ih =>
      have first := legible token List.mem_cons_self
      have others := ih (fun i => hands (i + 1)) fun other later =>
        legible other (List.mem_cons_of_mem _ later)
      cases rest with
      | nil =>
          have read := ofChars_read (readAs_written first (hands 0) apart_nil) offset
          rw [List.append_nil] at read
          rw [Token.writtenAll, read, Tokens.ofChars]
          exact .cons _ _ .nil
      | cons next rest =>
          rcases same : (hands 0).gap with ⟨gap, nonempty, blank⟩
          have apart : Apart (gap ++ Token.writtenAll (fun i => hands (i + 1)) (next :: rest)) := by
            obtain ⟨c, cs, rfl⟩ := List.exists_cons_of_ne_nil nonempty
            intro d head
            cases head
            exact blank _ List.mem_cons_self
          rw [Token.writtenAll, same, List.append_assoc,
            ofChars_read (readAs_written first (hands 0) apart), ofChars_gap _ blank]
          exact .cons _ _ (others _)

end GuardedStore.Expression
