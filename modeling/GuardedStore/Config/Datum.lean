import GuardedStore.Config.Moment
import GuardedStore.Value.Comparison
import GuardedStore.Value.Literal

/-! # Configuration data

What a configuration document holds. It is wider than a stored value: there are dates, byte
sequences, sets and tuples, and the keys of a mapping need not be texts.
-/

namespace GuardedStore

inductive Datum where
  | null
  | bool (b : Bool)
  | int (n : Int)
  | float (x : Binary64)
  | str (s : String)
  | date (d : Config.Date)
  | moment (m : Config.Moment)
  | bytes (bs : List Nat)
  | list (items : List Datum)
  | tuple (items : List Datum)
  | set (items : List Datum)
  | mapping (entries : List (Datum × Datum))
  /-- A list around this place, which holds itself here. -/
  | sameList
  /-- A mapping around this place, which holds itself here. -/
  | sameMapping
  deriving Repr, Inhabited

namespace Datum

mutual

def ofValue : Value → Datum
  | .null => .null
  | .bool b => .bool b
  | .int n => .int n
  | .float x => .float x
  | .str s => .str s
  | .list items => .list (ofValues items)
  | .object fields => .mapping (ofFields fields)

def ofValues : List Value → List Datum
  | [] => []
  | v :: vs => ofValue v :: ofValues vs

def ofFields : Fields → List (Datum × Datum)
  | [] => []
  | (name, v) :: rest => (.str name, ofValue v) :: ofFields rest

end

/-- The mark of a quoted byte sequence: single quotes, unless it holds one and no double quote. -/
def bytesMark (bs : List Nat) : Nat :=
  if bs.contains 39 && !bs.contains 34 then 34 else 39

def quoteByte (mark b : Nat) : List Char :=
  if b = mark ∨ b = 92 then ['\\', Char.ofNat b]
  else if b = 9 then ['\\', 't']
  else if b = 10 then ['\\', 'n']
  else if b = 13 then ['\\', 'r']
  else if 32 ≤ b ∧ b < 127 then [Char.ofNat b]
  else '\\' :: 'x' :: Text.hexDigits 2 b

def bytesLiteral (bs : List Nat) : String :=
  let mark := bytesMark bs
  String.ofList ('b' :: Char.ofNat mark :: bs.flatMap (quoteByte mark) ++ [Char.ofNat mark])

mutual

def literal : Datum → String
  | .null => Value.null.literal
  | .bool b => (Value.bool b).literal
  | .int n => (Value.int n).literal
  | .float x => (Value.float x).literal
  | .str s => (Value.str s).literal
  | .date d => d.literal
  | .moment m => m.literal
  | .bytes bs => bytesLiteral bs
  | .list items => "[" ++ ", ".intercalate (literals items) ++ "]"
  | .tuple [] => "()"
  | .tuple [item] => "(" ++ item.literal ++ ",)"
  | .tuple items => "(" ++ ", ".intercalate (literals items) ++ ")"
  | .set [] => "set()"
  | .set items => "\x7b" ++ ", ".intercalate (literals items) ++ "\x7d"
  | .mapping entries => "\x7b" ++ ", ".intercalate (entryLiterals entries) ++ "\x7d"
  | .sameList => "[...]"
  | .sameMapping => "\x7b...\x7d"

def literals : List Datum → List String
  | [] => []
  | d :: ds => literal d :: literals ds

def entryLiterals : List (Datum × Datum) → List String
  | [] => []
  | (key, d) :: rest => (literal key ++ ": " ++ literal d) :: entryLiterals rest

end

/-- A piece of data as a name: texts, dates and moments as they are, all else as a literal. -/
def asName : Datum → String
  | .str s => s
  | .date d => d.toText
  | .moment m => m.toText
  | d => d.literal

mutual

/-- Whether a piece of data can be a key or a member of a set: it holds no list, set or mapping. -/
def isKey : Datum → Bool
  | .list _ | .set _ | .mapping _ | .sameList | .sameMapping => false
  | .tuple items => areKeys items
  | _ => true

/-- Whether all of a list of data can be keys. -/
def areKeys : List Datum → Bool
  | [] => true
  | d :: ds => isKey d && areKeys ds

end

/-- The place of a number on the number line; a truth value lies at zero or one. -/
def place? : Datum → Option Place
  | .bool b => (Value.bool b).place?
  | .int n => (Value.int n).place?
  | .float x => (Value.float x).place?
  | _ => none

mutual

/-- Whether two keys name the same entry: numbers and truth values go by their place. -/
def sameKey : Datum → Datum → Bool
  | .null, .null => true
  | .str a, .str b => a = b
  | .date a, .date b => a = b
  | .moment a, .moment b =>
    a.offset.isSome = b.offset.isSome && a.seconds = b.seconds && a.microsecond = b.microsecond
  | .bytes a, .bytes b => a = b
  | .tuple as, .tuple bs => sameKeys as bs
  | .float (.nan p), .float (.nan q) => p = q
  | a, b =>
    match a.place?, b.place? with
    | some x, some y => x.compare y == .eq
    | _, _ => false

def sameKeys : List Datum → List Datum → Bool
  | [], [] => true
  | a :: as, b :: bs => sameKey a b && sameKeys as bs
  | _, _ => false

end

/-- Sets the entry of a key: in its place when there is an entry of the same key, whose key stays; at
    the end otherwise. -/
def setEntry {α : Type} (entries : List (Datum × α)) (key : Datum) (value : α) :
    List (Datum × α) :=
  match entries with
  | [] => [(key, value)]
  | (old, v) :: rest =>
    if sameKey old key then (old, value) :: rest else (old, v) :: setEntry rest key value

def ofPairs {α : Type} (pairs : List (Datum × α)) : List (Datum × α) :=
  pairs.foldl (fun entries (key, value) => setEntry entries key value) []

/-- The members of a set as they are shown: naturals that are small for their number in ascending
    order, all else in the order in which they were given. -/
def shownMembers (members : List Datum) : List Datum :=
  let naturals := List.range (max 8 (2 * members.length + 1))
  let sorted := naturals.flatMap fun n => members.filter (·.sameKey (.int n))
  if sorted.length = members.length then sorted else members

def entries? : Datum → Option (List (Datum × Datum))
  | .mapping entries => some entries
  | _ => none

end Datum

end GuardedStore
