/-! # Base64

Reading bytes from base64. Characters that are none of its digits are passed over, padding ends the
text, and a last group that is not full needs padding.
-/

namespace GuardedStore.Text.Base64

def digit? (c : Char) : Option Nat :=
  if c.isUpper then some (c.toNat - 65)
  else if c.isLower then some (c.toNat - 71)
  else if c.isDigit then some (c.toNat + 4)
  else if c = '+' then some 62
  else if c = '/' then some 63
  else none

/-- The bytes of a text behind the digits of a group, last digit first, and a number of paddings. -/
def decodeFrom (group : List Nat) (paddings : Nat) : List Char → Option (List Nat)
  | [] => if group.isEmpty then some [] else none
  | c :: cs =>
    if c = '=' then
      if 2 ≤ group.length ∧ 4 ≤ group.length + paddings + 1 then some []
      else decodeFrom group (if 2 ≤ group.length then paddings + 1 else paddings) cs
    else match digit? c, group with
      | none, _ => decodeFrom group paddings cs
      | some d, [] => decodeFrom [d] 0 cs
      | some d, [a] => (decodeFrom [d, a] 0 cs).map ((a * 4 + d / 16) :: ·)
      | some d, [b, a] => (decodeFrom [d, b, a] 0 cs).map ((b % 16 * 16 + d / 4) :: ·)
      | some d, b :: _ => (decodeFrom [] 0 cs).map ((b % 4 * 64 + d) :: ·)

/-- The bytes that a text spells, if it does. -/
def decode? (cs : List Char) : Option (List Nat) :=
  decodeFrom [] 0 cs

end GuardedStore.Text.Base64
