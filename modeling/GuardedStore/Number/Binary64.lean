/-! # Binary64 numbers

A binary64 number is held as what it stands for: every finite one is a whole number of units of
`2 ^ -1074`, the smallest positive number of the format. Comparison is then comparison of integers,
also with an integer of any size, and rounding is division of naturals.
-/

namespace GuardedStore

/-- A number of the binary64 format. A finite one has the value `± units * 2 ^ -1074`; the sign
    tells the two zeros apart. -/
inductive Binary64 where
  /-- Not a number. The payload tells one `nan` from another. -/
  | nan (payload : Nat)
  | infinity (negative : Bool)
  /-- A finite number, as a count of the smallest positive one. -/
  | finite (negative : Bool) (units : Nat)
  deriving DecidableEq, Repr, Inhabited

/-- A place on the number line with its two ends, in units of `2 ^ -1074`. -/
inductive Place where
  | bottom
  | at (units : Int)
  | top
  deriving DecidableEq, Repr

namespace Place

def compare : Place → Place → Ordering
  | .bottom, .bottom | .top, .top => .eq
  | .bottom, _ | _, .top => .lt
  | _, .bottom | .top, _ => .gt
  | .at a, .at b => Ord.compare a b

def ofInt (n : Int) : Place :=
  .at (n * Nat.pow 2 1074)

end Place

namespace Binary64

def zero : Binary64 := .finite false 0

def one : Binary64 := .finite false (Nat.pow 2 1074)

/-- Where a number lies; `nan` lies nowhere. -/
def place? : Binary64 → Option Place
  | .nan _ => none
  | .infinity negative => some (if negative then .bottom else .top)
  | .finite negative units => some (.at (if negative then -(units : Int) else units))

def isInteger : Binary64 → Bool
  | .finite _ units => units % Nat.pow 2 1074 = 0
  | _ => false

/-- The integer part of a finite number. -/
def truncate? : Binary64 → Option Int
  | .finite negative units =>
    let whole : Int := (units / Nat.pow 2 1074 : Nat)
    some (if negative then -whole else whole)
  | _ => none

/-- The number of binary digits of a natural number. -/
def bitLength (n : Nat) : Nat :=
  if n = 0 then 0 else Nat.log2 n + 1

/-- The step between neighbouring numbers of the format at `units`, as a power of two: numbers have
    53 binary digits. -/
def stepExponent (units : Nat) : Nat :=
  bitLength units - 53

/-- The number nearest to `± numerator / denominator`; of two equally near ones the one with the even
    last digit, and an infinity from half a step above the largest number on. -/
def ofRatio (negative : Bool) (numerator denominator : Nat) : Binary64 :=
  let scaled := numerator * Nat.pow 2 1074
  let grid := denominator * Nat.pow 2 (stepExponent (scaled / denominator))
  let below := scaled / grid
  let rest := scaled % grid
  let nearest :=
    if 2 * rest < grid then below
    else if grid < 2 * rest then below + 1
    else below + below % 2
  let units := nearest * Nat.pow 2 (stepExponent (scaled / denominator))
  if Nat.pow 2 2098 ≤ units then .infinity negative else .finite negative units

/-- The number nearest to an integer, unless that is beyond the range of the format. -/
def ofInt? (n : Int) : Option Binary64 :=
  match ofRatio (n < 0) n.natAbs 1 with
  | .finite negative units => some (.finite (negative && units ≠ 0) units)
  | _ => none

/-- The number nearest to `± digits * 10 ^ exponent`. Exponents beyond every number of the format are
    answered without forming the power. -/
def ofDecimal (negative : Bool) (digits : Nat) (exponent : Int) : Binary64 :=
  let size := exponent + (Nat.toDigits 10 digits).length
  if digits = 0 ∨ size < -330 then .finite negative 0
  else if 330 < size then .infinity negative
  else if 0 ≤ exponent then ofRatio negative (digits * Nat.pow 10 exponent.toNat) 1
  else ofRatio negative digits (Nat.pow 10 (-exponent).toNat)

end Binary64

end GuardedStore
