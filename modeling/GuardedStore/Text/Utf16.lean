/-! # UTF-16

The units of UTF-16 are code points below 65536, or halves of which two make a character above.
-/

namespace GuardedStore.Text.Utf16

/-- The characters of code points and units: two halves of a pair make one character, and a half that
    stands alone is none. -/
def join : List Nat → List Char
  | [] => []
  | [unit] => [if 0xD800 ≤ unit ∧ unit < 0xE000 then '\uFFFD' else Char.ofNat unit]
  | high :: low :: rest =>
    if (0xD800 ≤ high ∧ high < 0xDC00) ∧ 0xDC00 ≤ low ∧ low < 0xE000 then
      Char.ofNat (0x10000 + (high - 0xD800) * 0x400 + (low - 0xDC00)) :: join rest
    else
      (if 0xD800 ≤ high ∧ high < 0xE000 then '\uFFFD' else Char.ofNat high) :: join (low :: rest)

end GuardedStore.Text.Utf16
