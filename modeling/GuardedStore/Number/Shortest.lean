import GuardedStore.Number.Binary64

/-! # Shortest decimal digits

The fewest decimal digits that read back as the same binary64 number, and of those the nearest to
it. For each count of digits the two neighbours of the number on that decimal grid are tested
against the interval of reals that round to it.
-/

namespace GuardedStore

/-- Decimal digits without leading zero and the power of ten that the first stands one place behind:
    the value is `0.d₁d₂… * 10 ^ point`. -/
structure DecimalDigits where
  digits : List Char
  point : Int
  deriving DecidableEq, Repr

namespace Binary64

/-- The reals that round to a finite positive number, in units of `2 ^ -1075`: lower end, upper end
    and whether the ends belong to them. -/
structure RoundingInterval where
  low : Nat
  high : Nat
  closed : Bool
  deriving DecidableEq, Repr

/-- The interval of a positive number. The step below a power of two is half the one above. -/
def roundingInterval (units : Nat) : RoundingInterval :=
  let step := Nat.pow 2 (stepExponent units)
  let stepBelow := if 0 < stepExponent units ∧ units = Nat.pow 2 (Nat.log2 units) then step / 2
    else step
  { low := 2 * units - stepBelow, high := 2 * units + step, closed := units / step % 2 = 0 }

/-- Whether `count * 10 ^ exponent` lies in an interval. -/
def RoundingInterval.holds (interval : RoundingInterval) (count : Nat) (exponent : Int) : Bool :=
  let scaled := count * Nat.pow 10 exponent.toNat * Nat.pow 2 1075
  let low := interval.low * Nat.pow 10 (-exponent).toNat
  let high := interval.high * Nat.pow 10 (-exponent).toNat
  if interval.closed then low ≤ scaled && scaled ≤ high else low < scaled && scaled < high

/-- The least `point` at or above a start with `units * 2 ^ -1074 < 10 ^ point`. -/
def pointFrom (units : Nat) : Nat → Int → Int
  | 0, point => point
  | fuel + 1, point =>
    if units * Nat.pow 10 (-point).toNat < Nat.pow 2 1074 * Nat.pow 10 point.toNat then point
    else pointFrom units fuel (point + 1)

/-- The power of ten just above a positive number. The start undershoots by at most three. -/
def decimalPoint (units : Nat) : Int :=
  let estimate := ((bitLength units : Int) - 1075) * 30103 / 100000
  pointFrom units 8 (estimate - 1)

/-- The neighbour on the grid of `count` digits that rounds to the number, the nearer of two. -/
def gridNeighbour (units : Nat) (point : Int) (count : Nat) : Option Nat :=
  let exponent := point - count
  let numerator := units * Nat.pow 10 (-exponent).toNat
  let denominator := Nat.pow 2 1074 * Nat.pow 10 exponent.toNat
  let below := numerator / denominator
  let rest := numerator % denominator
  let interval := roundingInterval units
  match interval.holds below exponent, interval.holds (below + 1) exponent with
  | true, true =>
    some (if 2 * rest < denominator then below
      else if denominator < 2 * rest then below + 1
      else below + below % 2)
  | true, false => some below
  | false, true => some (below + 1)
  | false, false => none

/-- Trailing zeros carry nothing. -/
def dropTrailingZeros (digits : List Char) : List Char :=
  (digits.reverse.dropWhile (· = '0')).reverse

/-- The shortest digits from `count` digits on; seventeen always suffice. -/
def digitsFrom (units : Nat) (point : Int) : Nat → Nat → DecimalDigits
  | 0, _ => ⟨['0'], 1⟩
  | fuel + 1, count =>
    match gridNeighbour units point count with
    | none => digitsFrom units point fuel (count + 1)
    | some n =>
      let digits := Nat.toDigits 10 n
      ⟨dropTrailingZeros digits, point + (digits.length - count : Int)⟩

/-- The shortest digits of a finite number without its sign; zero has the one digit `0`. -/
def shortestDigits (units : Nat) : DecimalDigits :=
  if units = 0 then ⟨['0'], 1⟩ else digitsFrom units (decimalPoint units) 20 1

/-- Digits with the point among them or zeros around them, and at least one digit behind it. -/
def positional (d : DecimalDigits) : List Char :=
  if d.point ≤ 0 then
    '0' :: '.' :: (List.replicate (-d.point).toNat '0' ++ d.digits)
  else
    let whole := d.digits.take d.point.toNat
    let fraction := d.digits.drop d.point.toNat
    whole ++ List.replicate (d.point.toNat - d.digits.length) '0' ++ ['.'] ++
      (if fraction.isEmpty then ['0'] else fraction)

/-- Digits with a point behind the first and a decimal exponent of at least two digits. -/
def scientific (d : DecimalDigits) : List Char :=
  let exponent := d.point - 1
  let magnitude := Nat.toDigits 10 exponent.natAbs
  let mantissa := match d.digits with
    | [] => []
    | [first] => [first]
    | first :: rest => first :: '.' :: rest
  mantissa ++ ['e', if exponent < 0 then '-' else '+'] ++
    List.replicate (2 - magnitude.length) '0' ++ magnitude

/-- The text of a number: positional from `10 ^ -4` up to `10 ^ 16`, with an exponent beyond, and
    words for what is not a finite number. -/
def toText : Binary64 → String
  | .nan _ => "nan"
  | .infinity negative => if negative then "-inf" else "inf"
  | .finite negative units =>
    let d := shortestDigits units
    let body := if -4 < d.point ∧ d.point ≤ 16 then positional d else scientific d
    String.ofList (if negative then '-' :: body else body)

end Binary64

end GuardedStore
