import GuardedStore.Expression.Expr
import GuardedStore.Expression.Reason
import GuardedStore.Text.Digit

/-! # Tokens of rule expressions

A rule is cut into tokens from left to right, the longest sign first; blanks, tabs and line breaks
between tokens are skipped. Where no token can be read, the stream ends with the text that is left,
so that reading fails only when a parser gets there.
-/

namespace GuardedStore.Expression

/-- Whether an operator is written with a sign or with a word. -/
inductive Spelling where
  | sign | word
  deriving DecidableEq, Repr

inductive Constant where
  | true | false | null | undefined
  deriving DecidableEq, Repr

def Constant.literal : Constant → Literal
  | .true => .bool Bool.true
  | .false => .bool Bool.false
  | .null | .undefined => .null

inductive Token where
  | number (value : Literal)
  | text (s : String)
  | name (s : String)
  | constant (c : Constant)
  | negation (spelling : Spelling)
  | connective (op : Connective) (spelling : Spelling)
  | comparison (op : Comparison)
  | assign
  | openGroup
  | closeGroup
  | openIndex
  | closeIndex
  | dot
  | comma
  deriving DecidableEq, Repr

namespace Token

def spelled : Token → String
  | .number value => value.toValue.literal
  | .text s => s
  | .name s => s
  | .constant .true => "true"
  | .constant .false => "false"
  | .constant .null => "null"
  | .constant .undefined => "undefined"
  | .negation .sign => "!"
  | .negation .word => "not"
  | .connective .and .sign => "&&"
  | .connective .or .sign => "||"
  | .connective op .word => op.word
  | .comparison op => op.sign
  | .assign => "="
  | .openGroup => "("
  | .closeGroup => ")"
  | .openIndex => "["
  | .closeIndex => "]"
  | .dot => "."
  | .comma => ","

/-- A token as it is shown in a message: numbers as they are, everything else between quotes. -/
def shown : Token → String
  | .number value => value.toValue.literal
  | token => Text.quote token.spelled

end Token

inductive Tokens where
  | done
  /-- No token can be read at the offset; the rest of the rule is given. -/
  | stuck (offset : Nat) (rest : List Char)
  /-- A token at an offset and the ones behind it. -/
  | more (token : Token) (offset : Nat) (rest : Tokens)
  deriving Repr

namespace Token

/-- The blanks between tokens. -/
def isSkipped (c : Char) : Bool :=
  c = ' ' || c = '\t' || c = '\r' || c = '\n'

/-- The characters that a name starts with. -/
def startsName (c : Char) : Bool :=
  c.isAlpha || c = '_' || c = '$'

/-- The characters that a name goes on with. -/
def continuesName (c : Char) : Bool :=
  c.isAlphanum || c = '_' || c = '$'

/-- The names that stand for a value or an operator. -/
def reserved : List (String × Token) :=
  [("true", .constant .true), ("false", .constant .false), ("null", .constant .null),
    ("undefined", .constant .undefined), ("and", .connective .and .word),
    ("or", .connective .or .word), ("not", .negation .word)]

def ofWord (word : String) : Token :=
  match reserved.find? (·.1 = word) with
  | some (_, token) => token
  | none => .name word

/-- The signs, longer ones before the ones they start with. -/
def signs : List (List Char × Token) :=
  [(['=', '=', '='], .comparison .strict), (['!', '=', '='], .comparison .notStrict),
    (['=', '='], .comparison .loose), (['!', '='], .comparison .notLoose),
    (['<', '='], .comparison .lessOrEqual), (['>', '='], .comparison .greaterOrEqual),
    (['&', '&'], .connective .and .sign), (['|', '|'], .connective .or .sign),
    (['<'], .comparison .less), (['>'], .comparison .greater), (['='], .assign),
    (['!'], .negation .sign), (['('], .openGroup), ([')'], .closeGroup), (['['], .openIndex),
    ([']'], .closeIndex), (['.'], .dot), ([','], .comma)]

/-- The value of decimal digits of any script. -/
def natOfDigits (digits : List Char) : Nat :=
  digits.foldl (fun n c => n * 10 + (Text.digit? c).getD 0) 0

/-- An integer with its digits and its length, unless it has too many of them. -/
def integer? (negative : Bool) (digits : List Char) : Option (Token × Nat) :=
  if Numeral.digitLimit < digits.length then none
  else
    let n : Int := natOfDigits digits
    some (.number (.int (if negative then -n else n)), (if negative then 1 else 0) + digits.length)

/-- A number at the start of a text and its length: digits with an optional minus sign in front and
    an optional fraction behind. -/
def readNumber? (cs : List Char) : Option (Token × Nat) :=
  let (negative, unsigned) := match cs with
    | '-' :: cs => (true, cs)
    | cs => (false, cs)
  let sign := if negative then 1 else 0
  match unsigned.span Text.isDigit with
  | ([], _) => none
  | (whole, '.' :: rest) =>
    match rest.takeWhile Text.isDigit with
    | [] => integer? negative whole
    | fraction =>
      let digits := natOfDigits (whole ++ fraction)
      some (.number (.float (.ofDecimal negative digits (-fraction.length))),
        sign + whole.length + 1 + fraction.length)
  | (whole, _) => integer? negative whole

/-- How many digits the number has that a text starts with. -/
def countDigits (cs : List Char) : Nat :=
  let unsigned := match cs with
    | '-' :: cs => cs
    | cs => cs
  (unsigned.takeWhile Text.isDigit).length

/-- The character that an escape stands for: a letter for a control character, any other character
    for itself. -/
def unescape (c : Char) : Char :=
  match c with
  | 'n' => '\n'
  | 't' => '\t'
  | 'r' => '\r'
  | c => c

/-- The characters of a text up to the closing quote and how many were read with it. A backslash may
    stand before anything but a line break. -/
def readText? (mark : Char) : List Char → Option (List Char × Nat)
  | [] => none
  | [c] => if c = mark then some ([], 1) else none
  | c :: next :: cs =>
    if c = mark then some ([], 1)
    else if c = '\\' then
      if next = '\n' then none
      else (readText? mark cs).map fun (body, count) => (unescape next :: body, count + 2)
    else (readText? mark (next :: cs)).map fun (body, count) => (c :: body, count + 1)

/-- A sign at the start of a text and its length. -/
def readSign? (cs : List Char) : Option (Token × Nat) :=
  signs.findSome? fun (sign, token) =>
    if sign.isPrefixOf cs then some (token, sign.length) else none

/-- The token that a text starts with and its length. -/
def read? (cs : List Char) : Option (Token × Nat) :=
  match readNumber? cs with
  | some result => some result
  | none =>
    match cs with
    | [] => none
    | c :: rest =>
      if c = '\x27' ∨ c = '"' then
        (readText? c rest).map fun (body, count) => (.text (String.ofList body), count + 1)
      else if startsName c then
        let word := c :: rest.takeWhile continuesName
        some (ofWord (String.ofList word), word.length)
      else readSign? cs

end Token

namespace Tokens

/-- The tokens of the text from an offset on. -/
def ofChars (offset : Nat) (cs : List Char) : Tokens :=
  match cs with
  | [] => .done
  | c :: rest =>
    if Token.isSkipped c then Tokens.ofChars (offset + 1) rest
    else match Token.read? (c :: rest) with
      | none => .stuck offset (c :: rest)
      | some (token, count) =>
        .more token offset (Tokens.ofChars (offset + count) (rest.drop (count - 1)))
  termination_by cs.length
  decreasing_by all_goals simp [List.length_drop]; try omega

def ofSource (source : String) : Tokens :=
  Tokens.ofChars 0 source.toList

def count : Tokens → Nat
  | .done | .stuck _ _ => 0
  | .more _ _ rest => rest.count + 1

/-- Why the tokens cannot go on as they do. -/
def unexpected : Tokens → Reason
  | .done => .unexpectedEnd
  | .stuck offset rest =>
    let count := Token.countDigits rest
    if Numeral.digitLimit < count then .tooManyDigits count
    else .unexpectedCharacter offset (String.ofList rest)
  | .more token offset _ => .unexpectedToken token.shown offset

end Tokens

end GuardedStore.Expression
