import GuardedStore.Number.Numeral
import GuardedStore.Text.Utf16
import GuardedStore.Value.Basic

/-! # Reading JSON

A reader for JSON texts. Besides the standard it takes the words `NaN`, `Infinity` and `-Infinity`
for numbers; integers keep their size unless they have too many digits, and a number with a fraction
or an exponent is a binary64 number. Of two fields of one name the later value stands at the earlier
place.

A text that is not JSON is refused with the offset of the character where reading stopped. Inside
the reader that place is the number of characters left.
-/

namespace GuardedStore.Json

/-- Why reading stopped. -/
inductive Stop where
  /-- What stands there is not JSON; so many characters are still to be read. -/
  | unexpected (left : Nat)
  /-- An integer has too many digits. -/
  | tooManyDigits (count : Nat)
  deriving DecidableEq, Repr

def stopAt {α : Type} (cs : List Char) : Except Stop (α × List Char) :=
  .error (.unexpected cs.length)

def isSpace (c : Char) : Bool :=
  c = ' ' || c = '\t' || c = '\n' || c = '\r'

/-- The characters after the white space. -/
def skipSpace (cs : List Char) : List Char :=
  cs.dropWhile isSpace

def hexDigit? (c : Char) : Option Nat :=
  if c.isDigit then some (c.toNat - 48)
  else if 'a' ≤ c ∧ c ≤ 'f' then some (c.toNat - 87)
  else if 'A' ≤ c ∧ c ≤ 'F' then some (c.toNat - 55)
  else none

/-- The value of four hexadecimal digits. -/
def unit? (a b c d : Char) : Option Nat := do
  let a ← hexDigit? a
  let b ← hexDigit? b
  let c ← hexDigit? c
  let d ← hexDigit? d
  return ((a * 16 + b) * 16 + c) * 16 + d

def escape? (c : Char) : Option Char :=
  match c with
  | '"' => some '"'
  | '\\' => some '\\'
  | '/' => some '/'
  | 'b' => some '\x08'
  | 'f' => some '\x0c'
  | 'n' => some '\n'
  | 'r' => some '\r'
  | 't' => some '\t'
  | _ => none

/-- The code points and units of a text after its opening quote, which had `opening` characters
    left. An escape of four digits must have something behind it. -/
def readUnits (opening : Nat) : List Char → Except Stop (List Nat × List Char)
  | [] => .error (.unexpected opening)
  | '"' :: cs => .ok ([], cs)
  | '\\' :: 'u' :: a :: b :: c :: d :: rest =>
    match unit? a b c d, rest with
    | some unit, _ :: _ => (readUnits opening rest).map fun (units, cs) => (unit :: units, cs)
    | _, _ => .error (.unexpected (rest.length + 5))
  | '\\' :: 'u' :: rest => .error (.unexpected (rest.length + 1))
  | '\\' :: e :: rest =>
    match escape? e with
    | some e => (readUnits opening rest).map fun (units, cs) => (e.toNat :: units, cs)
    | none => .error (.unexpected (rest.length + 2))
  | ['\\'] => .error (.unexpected opening)
  | c :: cs =>
    if c.toNat < 32 then .error (.unexpected (cs.length + 1))
    else (readUnits opening cs).map fun (units, cs) => (c.toNat :: units, cs)

/-- A text after its opening quote, which had `opening` characters left. -/
def readText (opening : Nat) (cs : List Char) : Except Stop (String × List Char) :=
  (readUnits opening cs).map fun (units, rest) => (String.ofList (Text.Utf16.join units), rest)

def natOfDigits (digits : List Char) : Nat :=
  digits.foldl (fun n c => n * 10 + (c.toNat - 48)) 0

/-- The digits before the point: a lone zero or digits that start with another one. -/
def wholePart? : List Char → Option (List Char × List Char)
  | '0' :: cs => some (['0'], cs)
  | c :: cs => if c.isDigit then some ((c :: cs).span Char.isDigit) else none
  | [] => none

/-- The digits behind a point, if there are any. -/
def fractionPart : List Char → List Char × List Char
  | '.' :: cs =>
    match cs.span Char.isDigit with
    | ([], _) => ([], '.' :: cs)
    | parts => parts
  | cs => ([], cs)

/-- The exponent behind a number, if there is one. -/
def exponentPart (cs : List Char) : Option Int × List Char :=
  match cs with
  | c :: after =>
    if c = 'e' ∨ c = 'E' then
      let (negative, digits) := Numeral.readSign after
      match digits.span Char.isDigit with
      | ([], _) => (none, cs)
      | (digits, rest) =>
        let n : Int := natOfDigits digits
        (some (if negative then -n else n), rest)
    else (none, cs)
  | [] => (none, cs)

def readNumber (cs : List Char) : Except Stop (Value × List Char) :=
  let (negative, unsigned) := match cs with
    | '-' :: cs => (true, cs)
    | cs => (false, cs)
  match wholePart? unsigned with
  | none => stopAt cs
  | some (whole, rest) =>
    let (fraction, rest) := fractionPart rest
    let (exponent, rest) := exponentPart rest
    if fraction.isEmpty ∧ exponent.isNone then
      if Numeral.digitLimit < whole.length then .error (.tooManyDigits whole.length)
      else
        let n : Int := natOfDigits whole
        .ok (.int (if negative then -n else n), rest)
    else
      let digits := natOfDigits (whole ++ fraction)
      .ok (.float (.ofDecimal negative digits (exponent.getD 0 - fraction.length)), rest)

/-- The characters after a word that a text starts with. -/
def afterWord? (word : String) (cs : List Char) : Option (List Char) :=
  if word.toList.isPrefixOf cs then some (cs.drop word.length) else none

def wordValues : List (String × Value) :=
  [("null", .null), ("true", .bool true), ("false", .bool false), ("NaN", .float (.nan 0)),
    ("Infinity", .float (.infinity false)), ("-Infinity", .float (.infinity true))]

/-- A value without parts, other than a text, at the start of a text. -/
def readScalar (cs : List Char) : Except Stop (Value × List Char) :=
  match wordValues.findSome? fun (word, v) => (afterWord? word cs).map (v, ·) with
  | some result => .ok result
  | none => readNumber cs

mutual

def readValue : Nat → List Char → Except Stop (Value × List Char)
  | 0, cs => stopAt cs
  | fuel + 1, cs =>
    match cs with
    | '"' :: rest => do
      let (s, rest) ← readText cs.length rest
      return (.str s, rest)
    | '[' :: rest =>
      match skipSpace rest with
      | ']' :: rest => .ok (.list [], rest)
      | rest => do
        let (items, rest) ← readItems fuel rest
        return (.list items, rest)
    | '\x7b' :: rest =>
      match skipSpace rest with
      | '\x7d' :: rest => .ok (.object [], rest)
      | rest => do
        let (pairs, rest) ← readPairs fuel rest
        return (.object (Entries.ofPairs pairs), rest)
    | _ => readScalar cs

def readItems : Nat → List Char → Except Stop (List Value × List Char)
  | 0, cs => stopAt cs
  | fuel + 1, cs => do
    let (item, rest) ← readValue fuel cs
    match skipSpace rest with
    | ']' :: rest => return ([item], rest)
    | ',' :: rest =>
      let (items, rest) ← readItems fuel (skipSpace rest)
      return (item :: items, rest)
    | rest => stopAt rest

def readPairs : Nat → List Char → Except Stop (List (String × Value) × List Char)
  | 0, cs => stopAt cs
  | fuel + 1, cs =>
    match cs with
    | '"' :: rest => do
      let (name, rest) ← readText cs.length rest
      match skipSpace rest with
      | ':' :: rest =>
        let (v, rest) ← readValue fuel (skipSpace rest)
        match skipSpace rest with
        | '\x7d' :: rest => return ([(name, v)], rest)
        | ',' :: rest =>
          let (pairs, rest) ← readPairs fuel (skipSpace rest)
          return ((name, v) :: pairs, rest)
        | rest => stopAt rest
      | rest => stopAt rest
    | _ => stopAt cs

end

/-- The value of a whole text that may have white space around it. A text that starts with a byte
    order mark is none. -/
def readAll (cs : List Char) : Except Stop Value := do
  if cs.head? = some '\uFEFF' then throw (.unexpected cs.length)
  let (v, rest) ← readValue (2 * cs.length + 2) (skipSpace cs)
  match skipSpace rest with
  | [] => return v
  | rest => throw (.unexpected rest.length)

/-- Why a text is no JSON that can be read. -/
inductive Flaw where
  /-- It stops being JSON at an offset. -/
  | unexpected (offset : Nat)
  | tooManyDigits (count : Nat)
  deriving DecidableEq, Repr

/-- The value of a JSON text, or why there is none. -/
def parse (text : String) : Except Flaw Value :=
  (readAll text.toList).mapError fun
    | .unexpected left => .unexpected (text.length - left)
    | .tooManyDigits count => .tooManyDigits count

/-- The value of a JSON text, if it is one. -/
def parse? (text : String) : Option Value :=
  (parse text).toOption

end GuardedStore.Json
