/-! # Dates and times of configuration data

A date, or a date with a time of day and perhaps an offset from universal time, and how both are
shown.
-/

namespace GuardedStore.Config

structure Date where
  year : Nat
  month : Nat
  day : Nat
  deriving DecidableEq, Repr

/-- A date with a time of day. The offset counts seconds east of universal time. -/
structure Moment where
  date : Date
  hour : Nat
  minute : Nat
  second : Nat
  microsecond : Nat
  offset : Option Int
  deriving DecidableEq, Repr

def padded (width n : Nat) : String :=
  let digits := Nat.toDigits 10 n
  String.ofList (List.replicate (width - digits.length) '0' ++ digits)

namespace Date

def isLeapYear (year : Nat) : Bool :=
  year % 4 = 0 && (year % 100 ≠ 0 || year % 400 = 0)

def daysInMonth (year month : Nat) : Nat :=
  if month = 2 then if isLeapYear year then 29 else 28
  else if month = 4 ∨ month = 6 ∨ month = 9 ∨ month = 11 then 30
  else 31

/-- The days before a year, counted from the first year. -/
def daysBeforeYear (year : Nat) : Nat :=
  let past := year - 1
  past * 365 + past / 4 - past / 100 + past / 400

/-- The number of a day, counted from the first day of the first year. -/
def dayNumber (date : Date) : Nat :=
  (List.range (date.month - 1)).foldl (fun days m => days + daysInMonth date.year (m + 1))
    (daysBeforeYear date.year) + date.day

def toText (date : Date) : String :=
  padded 4 date.year ++ "-" ++ padded 2 date.month ++ "-" ++ padded 2 date.day

/-- The numbers of a date, between commas. -/
def arguments (date : Date) : List String :=
  [toString date.year, toString date.month, toString date.day]

def literal (date : Date) : String :=
  "datetime.date(" ++ ", ".intercalate date.arguments ++ ")"

end Date

namespace Moment

/-- The seconds from the first day of the first year on, in universal time when the offset is
    known. -/
def seconds (moment : Moment) : Int :=
  ((moment.date.dayNumber * 24 + moment.hour) * 60 + moment.minute) * 60 + moment.second -
    moment.offset.getD 0

def offsetText (offset : Int) : String :=
  let minutes := offset.natAbs / 60
  (if offset < 0 then "-" else "+") ++ padded 2 (minutes / 60) ++ ":" ++ padded 2 (minutes % 60)

def toText (moment : Moment) : String :=
  moment.date.toText ++ " " ++ padded 2 moment.hour ++ ":" ++ padded 2 moment.minute ++ ":" ++
    padded 2 moment.second ++
    (if moment.microsecond = 0 then "" else "." ++ padded 6 moment.microsecond) ++
    (moment.offset.map offsetText).getD ""

/-- A number of seconds, which is not zero, as a literal: whole days, rounded down, and the seconds
    left over. -/
def durationLiteral (duration : Int) : String :=
  let days := Int.fdiv duration 86400
  let seconds := Int.fmod duration 86400
  let parts := (if days = 0 then [] else ["days=" ++ toString days]) ++
    (if seconds = 0 then [] else ["seconds=" ++ toString seconds])
  "datetime.timedelta(" ++ ", ".intercalate parts ++ ")"

def offsetLiteral (offset : Int) : String :=
  if offset = 0 then "datetime.timezone.utc"
  else "datetime.timezone(" ++ durationLiteral offset ++ ")"

/-- The moment as a literal; zero seconds at the end are left out. -/
def literal (moment : Moment) : String :=
  let fine := if moment.microsecond ≠ 0 then [toString moment.second, toString moment.microsecond]
    else if moment.second ≠ 0 then [toString moment.second] else []
  let zone := (moment.offset.map fun offset => ["tzinfo=" ++ offsetLiteral offset]).getD []
  "datetime.datetime(" ++
    ", ".intercalate (moment.date.arguments ++ [toString moment.hour, toString moment.minute] ++
      fine ++ zone) ++ ")"

end Moment

end GuardedStore.Config
