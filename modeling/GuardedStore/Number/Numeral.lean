import GuardedStore.Number.Binary64
import GuardedStore.Text.Blank
import GuardedStore.Text.Digit

/-! # Numerals

Reading decimal numerals: an optional sign, digits of any script with single underscores between
them, a fraction and an exponent, or one of the words `inf`, `infinity` and `nan` in any case.
Integers are read apart, and may not have too many digits.
-/

namespace GuardedStore

/-- A run of digits at the start of a text: its value, how many digits it has and what follows. -/
structure DigitRun where
  value : Nat
  count : Nat
  rest : List Char
  deriving DecidableEq, Repr

namespace DigitRun

/-- Extends a run by the digits that follow; one underscore may stand between two digits. -/
def extend (value count : Nat) : List Char → DigitRun
  | [] => ⟨value, count, []⟩
  | [c] =>
    match Text.digit? c with
    | some d => ⟨value * 10 + d, count + 1, []⟩
    | none => ⟨value, count, [c]⟩
  | c :: next :: cs =>
    match Text.digit? c with
    | some d => extend (value * 10 + d) (count + 1) (next :: cs)
    | none =>
      if c = '_' then
        match Text.digit? next with
        | some d => extend (value * 10 + d) (count + 1) cs
        | none => ⟨value, count, c :: next :: cs⟩
      else ⟨value, count, c :: next :: cs⟩

def read : List Char → DigitRun
  | [] => ⟨0, 0, []⟩
  | c :: cs =>
    match Text.digit? c with
    | some d => extend d 1 cs
    | none => ⟨0, 0, c :: cs⟩

end DigitRun

namespace Numeral

/-- How many decimal digits an integer may be written with. -/
def digitLimit : Nat := 4300

/-- What is said of an integer with more digits. -/
def tooManyDigits (count : Nat) : String :=
  s!"Exceeds the limit ({digitLimit} digits) for integer string conversion: " ++
    s!"value has {count} digits; use sys.set_int_max_str_digits() to increase the limit"

/-- An optional sign and what follows it. -/
def readSign : List Char → Bool × List Char
  | '-' :: cs => (true, cs)
  | '+' :: cs => (false, cs)
  | cs => (false, cs)

/-- An exponent that ends the text, or the end of the text for the exponent zero. -/
def readExponent? : List Char → Option Int
  | [] => some 0
  | c :: cs =>
    if c = 'e' ∨ c = 'E' then
      let (negative, cs) := readSign cs
      let run := DigitRun.read cs
      if run.count = 0 ∨ run.rest ≠ [] then none
      else some (if negative then -(run.value : Int) else run.value)
    else none

/-- A whole unsigned numeral: digits before or after a point, or both, and an exponent. -/
def readUnsigned? (negative : Bool) (cs : List Char) : Option Binary64 := do
  let whole := DigitRun.read cs
  let (fraction, rest) := match whole.rest with
    | '.' :: cs => let run := DigitRun.read cs; (run, run.rest)
    | cs => (⟨0, 0, []⟩, cs)
  if whole.count + fraction.count = 0 then none
  else
    let exponent ← readExponent? rest
    some (.ofDecimal negative (whole.value * Nat.pow 10 fraction.count + fraction.value)
      (exponent - fraction.count))

/-- The blanks that may surround a numeral: white space but for the information separators. -/
def isMargin (c : Char) : Bool :=
  Text.isBlank c && !(28 ≤ c.toNat && c.toNat ≤ 31)

/-- The number that a text stands for, if it is a numeral. -/
def read? (text : String) : Option Binary64 :=
  let (negative, cs) := readSign (Text.stripEnds isMargin text.toList)
  let word := cs.map Char.toLower
  if word = ['i', 'n', 'f'] ∨ word = ['i', 'n', 'f', 'i', 'n', 'i', 't', 'y'] then
    some (.infinity negative)
  else if word = ['n', 'a', 'n'] then some (.nan 0)
  else readUnsigned? negative cs

end Numeral

end GuardedStore
