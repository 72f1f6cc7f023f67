import GuardedStore.Number.Shortest
import GuardedStore.Text.Quoted
import GuardedStore.Value.Basic

/-! # Values inside messages

A value is shown as a literal: texts between quotes, `None`, `True` and `False`, lists in square and
objects in curly brackets. As a name or inside a sentence a text stands without quotes.
-/

namespace GuardedStore.Value

mutual

def literal : Value → String
  | .null => "None"
  | .bool b => if b then "True" else "False"
  | .int n => toString n
  | .float x => x.toText
  | .str s => Text.quote s
  | .list items => "[" ++ ", ".intercalate (literals items) ++ "]"
  | .object fields => "\x7b" ++ ", ".intercalate (fieldLiterals fields) ++ "\x7d"

def literals : List Value → List String
  | [] => []
  | v :: vs => literal v :: literals vs

/-- The literals of fields, each with its quoted name. -/
def fieldLiterals : Fields → List String
  | [] => []
  | (name, v) :: rest => (Text.quote name ++ ": " ++ literal v) :: fieldLiterals rest

end

/-- A value as a name: a text as it is, any other value as its literal. -/
def asName : Value → String
  | .str s => s
  | v => v.literal

end GuardedStore.Value
