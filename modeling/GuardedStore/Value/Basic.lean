import GuardedStore.Number.Binary64

/-! # Values

The values that records hold: null, booleans, integers of any size, binary64 numbers, texts, lists
and objects. An object keeps its fields in the order in which they were first set; `Fields.set`
replaces a field in place.
-/

namespace GuardedStore

inductive Value where
  | null
  | bool (b : Bool)
  /-- An integer of any size. -/
  | int (n : Int)
  | float (x : Binary64)
  | str (s : String)
  | list (items : List Value)
  /-- An object, its fields in insertion order. -/
  | object (fields : List (String × Value))
  deriving Inhabited, Repr

abbrev Entries (α : Type) := List (String × α)

abbrev Fields := Entries Value

namespace Entries

variable {α : Type}

def get? (entries : Entries α) (name : String) : Option α :=
  (entries.find? (·.1 = name)).map (·.2)

def has (entries : Entries α) (name : String) : Bool :=
  entries.any (·.1 = name)

def names (entries : Entries α) : List String :=
  entries.map (·.1)

/-- Sets an entry: in its place when the name is there, at the end otherwise. -/
def set (entries : Entries α) (name : String) (value : α) : Entries α :=
  match entries with
  | [] => [(name, value)]
  | (key, old) :: rest =>
    if key = name then (key, value) :: rest else (key, old) :: set rest name value

/-- Leaves out the entries under a name. -/
def erase (entries : Entries α) (name : String) : Entries α :=
  entries.filter (·.1 ≠ name)

/-- Sets the entries of `others`, one after another. -/
def overlay (entries others : Entries α) : Entries α :=
  others.foldl (fun acc (name, value) => set acc name value) entries

/-- The entries that a list of pairs leaves: a later pair replaces an earlier one of its name. -/
def ofPairs (pairs : List (String × α)) : Entries α :=
  overlay [] pairs

end Entries

namespace Value

/-- A field of an object's fields, null when it is missing. -/
def fieldOrNull (fields : Fields) (name : String) : Value :=
  (Entries.get? fields name).getD .null

/-- Whether a value is a number; a truth value is none. -/
def isNumber : Value → Bool
  | .int _ | .float _ => true
  | _ => false

def isContainer : Value → Bool
  | .list _ | .object _ => true
  | _ => false

end Value

end GuardedStore
