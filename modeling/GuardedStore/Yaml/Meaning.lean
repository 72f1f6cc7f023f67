import GuardedStore.Config.Datum
import GuardedStore.Number.Arithmetic
import GuardedStore.Number.Radix
import GuardedStore.Text.Base64
import GuardedStore.Text.Case
import GuardedStore.Yaml.Cursor
import GuardedStore.Yaml.Tag

/-! # What scalars mean

The data that the text of a scalar spells under its tag.
-/

namespace GuardedStore.Yaml.Meaning

/-- The words for truth values in lower case. -/
def boolValues : List (String × Bool) :=
  [("yes", true), ("no", false), ("true", true), ("false", false), ("on", true), ("off", false)]

def bool (text : String) : Except Flaw Datum :=
  match boolValues.find? (·.1 = Text.lowerCase text) with
  | some (_, b) => .ok (.bool b)
  | none => .error .unknownWord

/-- The sign and the characters behind it of a number, whose underscores do not count. -/
def signAndDigits (text : String) : Except Flaw (Bool × List Char) :=
  match text.toList.filter (· ≠ '_') with
  | [] => .error .emptyNumber
  | '-' :: cs => .ok (true, cs)
  | '+' :: cs => .ok (false, cs)
  | cs => .ok (false, cs)

/-- How many digits a text starts with, behind blanks and a sign. -/
def countDigits (cs : List Char) : Nat :=
  ((Numeral.readSign (Text.stripEnds Numeral.isMargin cs)).2.takeWhile Text.isDigit).length

def integerIn (base : Nat) (cs : List Char) : Except Flaw Int :=
  if base = 10 ∧ Numeral.digitLimit < countDigits cs then
    .error (.misspelled (Numeral.tooManyDigits (countDigits cs)))
  else match Numeral.readInteger? base cs with
    | some n => .ok n
    | none =>
      let shown := String.ofList ((Text.quote (String.ofList cs)).toList.take 200)
      .error (.misspelled s!"invalid literal for int() with base {base}: {shown}")

/-- An integer without its sign: in base two or sixteen behind its mark, in base eight behind a
    zero, in base sixty with colons, or else in base ten. -/
def unsignedInteger (cs : List Char) : Except Flaw Int :=
  match cs with
  | [] => .error .emptyNumber
  | ['0'] => .ok 0
  | '0' :: 'b' :: digits => integerIn 2 digits
  | '0' :: 'x' :: digits => integerIn 16 digits
  | '0' :: _ => integerIn 8 cs
  | _ =>
    if cs.contains ':' then do
      let digits ← (Text.splitWhere (· = ':') cs).mapM (integerIn 10)
      return digits.foldl (fun n digit => n * 60 + digit) 0
    else integerIn 10 cs

def int (text : String) : Except Flaw Datum := do
  let (negative, cs) ← signAndDigits text
  let n ← unsignedInteger cs
  return .int (if negative then -n else n)

def number (cs : List Char) : Except Flaw Binary64 :=
  let text := String.ofList cs
  match Numeral.read? text with
  | some x => .ok x
  | none => .error (.misspelled ("could not convert string to float: " ++ Text.quote text))

/-- A number of digits in base sixty, the last one first, each rounded where it is added; `base` is
    the weight of the first of them. -/
def sumSixties (base : Int) (sum : Binary64) : List Binary64 → Except Flaw Binary64
  | [] => .ok sum
  | digit :: digits =>
    match Binary64.ofInt? base with
    | none => .error .outOfRange
    | some weight => sumSixties (base * 60) (sum.add (digit.mul weight)) digits

/-- A number with a point without its sign: a word, digits in base sixty, or a decimal numeral. -/
def unsignedNumber (cs : List Char) : Except Flaw Binary64 :=
  if String.ofList cs = ".inf" then .ok (.infinity false)
  else if String.ofList cs = ".nan" then .ok (.nan 0)
  else if cs.contains ':' then do
    let digits ← (Text.splitWhere (· = ':') cs).mapM number
    sumSixties 1 .zero digits.reverse
  else number cs

/-- A number with a point. The word `.nan` means one `nan` everywhere; any other is that of its own
    node. -/
def float (node : Nat) (text : String) : Except Flaw Datum := do
  let (negative, cs) ← signAndDigits (Text.lowerCase text)
  match ← unsignedNumber cs with
  | .nan _ => return .float (.nan (if String.ofList cs = ".nan" then 0 else node + 1))
  | x => return .float (if negative then x.neg else x)

def binary (text : String) : Except Flaw Datum :=
  if text.toList.all (·.toNat < 128) then
    match Text.Base64.decode? text.toList with
    | some bytes => .ok (.bytes bytes)
    | none => .error .malformed
  else .error .malformed

/-- A condition on a time, with what is said when it fails. -/
def demand (condition : Bool) (details : String) : Except Flaw Unit :=
  if condition then .ok () else .error (.misspelled details)

/-- A date, if its numbers are within their ranges. -/
def date (year month day : Nat) : Except Flaw Config.Date := do
  demand (1 ≤ year) s!"year {year} is out of range"
  demand (1 ≤ month && month ≤ 12) "month must be in 1..12"
  demand (1 ≤ day && day ≤ Config.Date.daysInMonth year month) "day is out of range for month"
  return { year, month, day }

/-- The microseconds of the digits of a fraction, of which six count. -/
def microseconds (digits : List Char) : Nat :=
  ((digits.take 6 ++ List.replicate (6 - digits.length) '0').foldl
    (fun n c => n * 10 + (c.toNat - 48)) 0)

def daySeconds : Nat := 86400

def time (text : String) : Except Flaw Datum := do
  let cs := text.toList
  let cs := if cs.getLast? = some '\n' then cs.dropLast else cs
  match WrittenTime.read? cs with
  | none => throw .unformedTime
  | some { year, month, day, clock := none } => return .date (← date year month day)
  | some { year, month, day, clock := some (hour, minute, second, fraction, offset) } =>
    let far := offset.filter (daySeconds ≤ ·.natAbs)
    demand far.isNone
      ("offset must be a timedelta strictly between -timedelta(hours=24) and " ++
        "timedelta(hours=24), not " ++ (far.map Config.Moment.durationLiteral).getD "" ++ ".")
    let date ← date year month day
    demand (hour ≤ 23) "hour must be in 0..23"
    demand (minute ≤ 59) "minute must be in 0..59"
    demand (second ≤ 59) "second must be in 0..59"
    return .moment
      { date, hour, minute, second, microsecond := microseconds fraction, offset }

end GuardedStore.Yaml.Meaning
