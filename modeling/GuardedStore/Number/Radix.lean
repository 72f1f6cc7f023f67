import GuardedStore.Number.Numeral

/-! # Integers in a base

Reading integers in bases up to 36: an optional sign, in the bases two, eight and sixteen an
optional mark of the base, and digits of any script or letters.
-/

namespace GuardedStore.Numeral

/-- The value of a digit or a letter in bases up to 36. -/
def radixDigit? (base : Nat) (c : Char) : Option Nat :=
  let value? :=
    if c.isLower then some (c.toNat - 87)
    else if c.isUpper then some (c.toNat - 55)
    else Text.digit? c
  value?.filter (· < base)

def baseMark? : Nat → Option Char
  | 2 => some 'b'
  | 8 => some 'o'
  | 16 => some 'x'
  | _ => none

/-- A text without the mark of the base. -/
def dropBaseMark (base : Nat) (cs : List Char) : List Char :=
  match cs with
  | '0' :: mark :: rest => if baseMark? base = some mark.toLower then rest else cs
  | _ => cs

/-- The integer that a text spells in a base, if it does. -/
def readInteger? (base : Nat) (cs : List Char) : Option Int := do
  let (negative, cs) := readSign (Text.stripEnds isMargin cs)
  let digits ← (dropBaseMark base cs).mapM (radixDigit? base)
  if digits.isEmpty then none
  else
    let n : Nat := digits.foldl (fun n d => n * base + d) 0
    some (if negative then -n else n)

end GuardedStore.Numeral
