/-! # Reading UTF-8

A decoder that takes one byte at a time and puts U+FFFD for what is not UTF-8: for each byte that
cannot stand where it does, and for each character that breaks off.
-/

namespace GuardedStore.Text.Utf8

/-- Where the decoder stands: between characters, or inside one of which `code` is known and `owed`
    bytes are still to come, the next of them between `low` and `high`. -/
inductive State where
  | start
  | inside (code owed low high : Nat)
  deriving DecidableEq, Repr

/-- What stands for bytes that are not UTF-8. -/
def replacement : Char := '\uFFFD'

/-- The first byte of a character: what it yields and the state behind it. -/
def first (b : Nat) : List Char × State :=
  if b < 0x80 then ([Char.ofNat b], .start)
  else if 0xC2 ≤ b ∧ b ≤ 0xDF then ([], .inside (b - 0xC0) 1 0x80 0xBF)
  else if b = 0xE0 then ([], .inside 0 2 0xA0 0xBF)
  else if b = 0xED then ([], .inside 0xD 2 0x80 0x9F)
  else if 0xE1 ≤ b ∧ b ≤ 0xEF then ([], .inside (b - 0xE0) 2 0x80 0xBF)
  else if b = 0xF0 then ([], .inside 0 3 0x90 0xBF)
  else if 0xF1 ≤ b ∧ b ≤ 0xF3 then ([], .inside (b - 0xF0) 3 0x80 0xBF)
  else if b = 0xF4 then ([], .inside 4 3 0x80 0x8F)
  else ([replacement], .start)

/-- One byte: what it yields and the state behind it. -/
def step (state : State) (b : Nat) : List Char × State :=
  match state with
  | .start => first b
  | .inside code owed low high =>
    if low ≤ b ∧ b ≤ high then
      let code := code * 64 + (b - 0x80)
      if owed = 1 then ([Char.ofNat code], .start) else ([], .inside code (owed - 1) 0x80 0xBF)
    else
      let (yielded, state) := first b
      (replacement :: yielded, state)

/-- What the end of the bytes yields. -/
def State.finish : State → List Char
  | .start => []
  | .inside .. => [replacement]

end GuardedStore.Text.Utf8
