import GuardedStore.Text.Split
import GuardedStore.Config.Moment

/-! # Tags

A tag says what kind of data a node stands for. A plain scalar without a tag gets one from its text:
words for null and for truth values, the numerals of five bases, numbers with a point, dates and
times. Any other scalar without a tag is a text.
-/

namespace GuardedStore.Yaml

inductive Tag where
  | null
  | bool
  | int
  | float
  | binary
  | timestamp
  | str
  | seq
  | map
  | set
  /-- Pairs of a key and a value in order. -/
  | pairs
  /-- The key of entries to be taken over from other mappings. -/
  | merge
  /-- The key of what a mapping stands for as a scalar. -/
  | value
  | unknown
  deriving DecidableEq, Repr

namespace Tag

/-- What the common tags start with. -/
def commonStart : String := "tag:yaml.org,2002:"

/-- The common tags by what they end in. -/
def commonEndings : List (String × Tag) :=
  [("null", .null), ("bool", .bool), ("int", .int), ("float", .float), ("binary", .binary),
    ("timestamp", .timestamp), ("str", .str), ("seq", .seq), ("map", .map), ("set", .set),
    ("omap", .pairs), ("pairs", .pairs), ("merge", .merge), ("value", .value)]

def ofText (text : String) : Tag :=
  ((commonEndings.find? fun (ending, _) => commonStart ++ ending = text).map (·.2)).getD .unknown

/-- The words for null, but for the empty text. -/
def nullWords : List String := ["~", "null", "Null", "NULL"]

def boolWords : List String :=
  ["yes", "Yes", "YES", "no", "No", "NO", "true", "True", "TRUE", "false", "False", "FALSE", "on",
    "On", "ON", "off", "Off", "OFF"]

/-- The words for numbers, behind a sign or not. -/
def infinityWords : List String := [".inf", ".Inf", ".INF"]

/-- The words for what is no number. -/
def nanWords : List String := [".nan", ".NaN", ".NAN"]

/-- The characters behind a sign, if there is one. -/
def unsigned : List Char → List Char
  | '-' :: cs | '+' :: cs => cs
  | cs => cs

def isDigitOrGap (c : Char) : Bool :=
  c.isDigit || c = '_'

/-- Whether the rest of a number is nothing, or a colon and two digits up to 59 again and again. -/
def isSixties : List Char → Bool
  | [] => true
  | [':', c] => c.isDigit
  | ':' :: c :: ':' :: cs => c.isDigit && isSixties (':' :: cs)
  | ':' :: c :: d :: cs => '0' ≤ c && c ≤ '5' && d.isDigit && isSixties cs
  | _ => false

/-- Whether a text starts with a digit and goes on with digits and underscores. -/
def isDigitRun : List Char → Bool
  | [] => false
  | c :: cs => c.isDigit && cs.all isDigitOrGap

/-- Whether a text is an integer without its sign: of base two, eight, ten, sixteen or sixty. -/
def isUnsignedInt (cs : List Char) : Bool :=
  match cs with
  | ['0'] => true
  | '0' :: 'b' :: digits => !digits.isEmpty && digits.all fun c => c = '0' || c = '1' || c = '_'
  | '0' :: 'x' :: digits =>
    !digits.isEmpty && digits.all fun c =>
      c.isDigit || ('a' ≤ c && c ≤ 'f') || ('A' ≤ c && c ≤ 'F') || c = '_'
  | '0' :: digits => digits.all fun c => ('0' ≤ c && c ≤ '7') || c = '_'
  | c :: digits => c.isDigit && isSixties (digits.dropWhile isDigitOrGap)
  | [] => false

/-- Whether a text is nothing or an exponent, which needs a sign. -/
def isExponent : List Char → Bool
  | [] => true
  | e :: sign :: digits =>
    (e = 'e' || e = 'E') && (sign = '-' || sign = '+') && !digits.isEmpty && digits.all Char.isDigit
  | _ => false

/-- Whether a text is a number with a point. -/
def isFloat (text : String) : Bool :=
  let cs := text.toList
  let behind := unsigned cs
  match Text.cutAt '.' behind with
  | none => false
  | some (whole, fraction) =>
    let whole60 := whole.dropWhile isDigitOrGap
    let exponent := fraction.dropWhile isDigitOrGap
    if whole.isEmpty then
      infinityWords.contains (String.ofList behind) || nanWords.contains text ||
        (cs.head? = some '.' && fraction.head?.any Char.isDigit && isExponent exponent)
    else if whole60.isEmpty then isDigitRun whole && isExponent exponent
    else whole.head?.any Char.isDigit && isSixties whole60 && exponent.isEmpty

end Tag

/-- A time as it is written: the numbers of its date, and of its time of day if it has one. -/
structure WrittenTime where
  year : Nat
  month : Nat
  day : Nat
  /-- Hour, minute, second, the digits of the fraction and the offset. -/
  clock : Option (Nat × Nat × Nat × List Char × Option Int)
  deriving Repr

namespace WrittenTime

/-- A number of `least` to `most` digits at the start of a text. -/
def number? (least most : Nat) (cs : List Char) : Option (Nat × List Char) :=
  let digits := (cs.take most).takeWhile Char.isDigit
  if digits.length < least then none
  else some (digits.foldl (fun n c => n * 10 + (c.toNat - 48)) 0, cs.drop digits.length)

/-- The text behind a character that it starts with. -/
def after? (c : Char) : List Char → Option (List Char)
  | [] => none
  | d :: cs => if c = d then some cs else none

/-- The text behind the gap between a date and a time of day. -/
def afterGap? : List Char → Option (List Char)
  | 'T' :: cs | 't' :: cs => some cs
  | c :: cs => if c = ' ' ∨ c = '\t' then some (cs.dropWhile fun c => c = ' ' || c = '\t') else none
  | [] => none

/-- The offset of a text of hours, and perhaps minutes, behind a sign. -/
def signedOffset? (cs : List Char) : Option Int := do
  let (hours, rest) ← number? 1 2 cs
  match rest with
  | [] => return hours * 3600
  | _ =>
    let (minutes, rest) ← number? 2 2 (← after? ':' rest)
    if rest.isEmpty then return hours * 3600 + minutes * 60 else none

/-- The offset that ends a text, none if the text is over. -/
def offset? (cs : List Char) : Option (Option Int) :=
  match cs with
  | [] => some none
  | _ =>
    match cs.dropWhile fun c => c = ' ' || c = '\t' with
    | ['Z'] => some (some 0)
    | '+' :: cs => (signedOffset? cs).map some
    | '-' :: cs => (signedOffset? cs).map fun offset => some (-offset)
    | _ => none

/-- The time that a text is written as. -/
def read? (cs : List Char) : Option WrittenTime := do
  let (year, cs) ← number? 4 4 cs
  let (month, cs) ← number? 1 2 (← after? '-' cs)
  let (day, cs) ← number? 1 2 (← after? '-' cs)
  if cs.isEmpty then return { year, month, day, clock := none }
  let (hour, cs) ← number? 1 2 (← afterGap? cs)
  let (minute, cs) ← number? 2 2 (← after? ':' cs)
  let (second, cs) ← number? 2 2 (← after? ':' cs)
  let (fraction, cs) := match cs with
    | '.' :: cs => cs.span Char.isDigit
    | cs => ([], cs)
  let offset ← offset? cs
  return { year, month, day, clock := some (hour, minute, second, fraction, offset) }

end WrittenTime

namespace Tag

/-- Whether a text is a time. A date that stands alone has two digits for month and day. -/
def isTime (text : String) : Bool :=
  match WrittenTime.read? text.toList with
  | none => false
  | some time => time.clock.isSome || text.length = 10

/-- The tag that the text of a plain scalar has by itself. -/
def ofPlain (text : String) : Tag :=
  let text := match text.toList.getLast? with
    | some '\n' => if text.length = 1 then text else String.ofList text.toList.dropLast
    | _ => text
  if text.isEmpty ∨ nullWords.contains text then .null
  else if boolWords.contains text then .bool
  else if isFloat text then .float
  else if isUnsignedInt (unsigned text.toList) then .int
  else if isTime text then .timestamp
  else if text = "<<" then .merge
  else if text = "=" then .value
  else if ["!", "&", "*"].contains text then .unknown
  else .str

end Tag

end GuardedStore.Yaml
