import GuardedStore.Json.Writer

/-! # Values as plain text

The text by which queries search, sort, join and tell records apart: nothing for null, a whole
number without a fraction, a text as it is, and compact JSON for lists and objects.
-/

namespace GuardedStore.Value

def numberText (x : Binary64) : String :=
  if x.isInteger then
    match x.truncate? with
    | some n => toString n
    | none => x.toText
  else x.toText

def plainText : Value → String
  | .null => ""
  | .bool b => if b then "true" else "false"
  | .int n => toString n
  | .float x => numberText x
  | .str s => s
  | v => Json.write v

end GuardedStore.Value
