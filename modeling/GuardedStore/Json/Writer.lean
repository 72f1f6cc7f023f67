import GuardedStore.Number.Shortest
import GuardedStore.Text.Quoted
import GuardedStore.Value.Basic

/-! # Writing JSON

The compact JSON text of a value in ASCII: no blanks, fields in their order, every other character
escaped as one or two UTF-16 units, and words for what is not a finite number.
-/

namespace GuardedStore.Json

def unitEscape (unit : Nat) : List Char :=
  '\\' :: 'u' :: Text.hexDigits 4 unit

def writeChar (c : Char) : List Char :=
  match c with
  | '"' => ['\\', '"']
  | '\\' => ['\\', '\\']
  | '\n' => ['\\', 'n']
  | '\r' => ['\\', 'r']
  | '\t' => ['\\', 't']
  | '\x0c' => ['\\', 'f']
  | '\x08' => ['\\', 'b']
  | c =>
    if 32 ≤ c.toNat ∧ c.toNat ≤ 126 then [c]
    else if c.toNat < 0x10000 then unitEscape c.toNat
    else
      let code := c.toNat - 0x10000
      unitEscape (0xD800 + code / 0x400) ++ unitEscape (0xDC00 + code % 0x400)

def writeText (s : String) : String :=
  String.ofList ('"' :: s.toList.flatMap writeChar ++ ['"'])

/-- A number of the binary64 format. -/
def writeNumber : Binary64 → String
  | .nan _ => "NaN"
  | .infinity negative => if negative then "-Infinity" else "Infinity"
  | x => x.toText

mutual

/-- The compact JSON text of a value. -/
def write : Value → String
  | .null => "null"
  | .bool b => if b then "true" else "false"
  | .int n => toString n
  | .float x => writeNumber x
  | .str s => writeText s
  | .list items => "[" ++ ",".intercalate (writeItems items) ++ "]"
  | .object fields => "\x7b" ++ ",".intercalate (writeFields fields) ++ "\x7d"

def writeItems : List Value → List String
  | [] => []
  | v :: vs => write v :: writeItems vs

def writeFields : Fields → List String
  | [] => []
  | (name, v) :: rest => (writeText name ++ ":" ++ write v) :: writeFields rest

end

end GuardedStore.Json
