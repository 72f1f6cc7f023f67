import GuardedStore.Number.Binary64

/-! # Sums and products

The sum and the product of two binary64 numbers: the exact one, rounded once.
-/

namespace GuardedStore.Binary64

/-- A finite number in units of `2 ^ -1074`. -/
def signedUnits (negative : Bool) (units : Nat) : Int :=
  if negative then -units else units

def neg : Binary64 → Binary64
  | .nan p => .nan p
  | .infinity negative => .infinity !negative
  | .finite negative units => .finite (!negative) units

/-- The sum of two numbers. A sum that vanishes is negative only if both numbers are. -/
def add : Binary64 → Binary64 → Binary64
  | .finite s a, .finite t b =>
    let sum := signedUnits s a + signedUnits t b
    if sum = 0 then .finite (s && t) 0 else ofRatio (sum < 0) sum.natAbs (Nat.pow 2 1074)
  | .infinity s, .infinity t => if s = t then .infinity s else .nan 0
  | .infinity s, .finite _ _ | .finite _ _, .infinity s => .infinity s
  | _, _ => .nan 0

def mul : Binary64 → Binary64 → Binary64
  | .finite s a, .finite t b => ofRatio (s != t) (a * b) (Nat.pow 2 2148)
  | .infinity s, .infinity t => .infinity (s != t)
  | .infinity s, .finite t a | .finite s a, .infinity t =>
    if a = 0 then .nan 0 else .infinity (s != t)
  | _, _ => .nan 0

end GuardedStore.Binary64
