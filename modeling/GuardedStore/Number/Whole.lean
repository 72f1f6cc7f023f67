import GuardedStore.Number.Numeral

/-! # Whole numbers in parameters

A parameter that counts is read as a numeral and cut to a whole number.
-/

namespace GuardedStore.Numeral

/-- The whole part of a numeral, if the text is one and the number is finite. -/
def readWhole? (text : String) : Option Int :=
  (read? text).bind Binary64.truncate?

end GuardedStore.Numeral
