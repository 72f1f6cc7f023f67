import GuardedStore.Value.Basic

/-! # Records

A record holds fields, and it knows which of the lists and objects in them are one and the same, so
that a rule that changes one of them changes it wherever it stands. For this the lists and objects of
a record can have numbers, of which equal ones stand for the same list or object.

A list or object may also hold itself. It has no contents where it comes again inside itself.
-/

namespace GuardedStore

namespace Value

mutual

/-- The number of lists and objects in a value, the value included. -/
def containers : Value → Nat
  | .list items => containersOfItems items + 1
  | .object fields => containersOfFields fields + 1
  | _ => 0

def containersOfItems : List Value → Nat
  | [] => 0
  | v :: vs => containers v + containersOfItems vs

def containersOfFields : List (String × Value) → Nat
  | [] => 0
  | (_, v) :: rest => containers v + containersOfFields rest

end

mutual

/-- Whether a list or object of a value holds itself or one of `around`, given the numbers of the
    value and of what follows; and the numbers of what follows. -/
def holdsItself (around : List Nat) : List Nat → Value → Bool × List Nat
  | number :: numbers, .list items =>
    if around.contains number then (true, numbers)
    else someHoldItself (number :: around) numbers items
  | number :: numbers, .object fields =>
    if around.contains number then (true, numbers)
    else someFieldHoldsItself (number :: around) numbers fields
  | numbers, _ => (false, numbers)

def someHoldItself (around : List Nat) : List Nat → List Value → Bool × List Nat
  | numbers, [] => (false, numbers)
  | numbers, v :: vs =>
    let (first, numbers) := holdsItself around numbers v
    let (others, numbers) := someHoldItself around numbers vs
    (first || others, numbers)

def someFieldHoldsItself (around : List Nat) : List Nat → List (String × Value) → Bool × List Nat
  | numbers, [] => (false, numbers)
  | numbers, (_, v) :: rest =>
    let (first, numbers) := holdsItself around numbers v
    let (others, numbers) := someFieldHoldsItself around numbers rest
    (first || others, numbers)

end

end Value

structure Record where
  fields : Fields
  /-- The numbers of the lists and objects in the value of a field, in the order in which they are
      written, the outer before the inner ones. Without numbers each is a list or object of its
      own. -/
  identities : Entries (List Nat) := []
  deriving Repr, Inhabited

namespace Record

/-- The record of some fields in which no list or object stands twice. -/
def plain (fields : Fields) : Record where
  fields

/-- The value of a field, null when it is missing. -/
def value (record : Record) (name : String) : Value :=
  Value.fieldOrNull record.fields name

/-- Sets a field to a value without numbers. -/
def set (record : Record) (name : String) (value : Value) : Record where
  fields := Entries.set record.fields name value
  identities := Entries.erase record.identities name

def erase (record : Record) (name : String) : Record where
  fields := Entries.erase record.fields name
  identities := Entries.erase record.identities name

def without (record : Record) (names : List String) : Record where
  fields := record.fields.filter fun (name, _) => !names.contains name
  identities := record.identities.filter fun (name, _) => !names.contains name

/-- The fields with some names, in the order of the names. -/
def only (record : Record) (names : List String) : Record where
  fields :=
    Entries.ofPairs (names.filterMap fun name => (Entries.get? record.fields name).map (name, ·))
  identities := record.identities.filter fun (name, _) => names.contains name

/-- A number above those of a record. -/
def bound (record : Record) : Nat :=
  (record.identities.flatMap (·.2)).foldl (fun bound n => max bound (n + 1)) 0

/-- The numbers of a record, each raised by an amount. -/
def raised (record : Record) (amount : Nat) : Entries (List Nat) :=
  record.identities.map fun (name, numbers) => (name, numbers.map (· + amount))

/-- Sets the fields of another record, with which nothing is shared. -/
def overlay (record other : Record) : Record where
  fields := Entries.overlay record.fields other.fields
  identities :=
    (record.identities.filter fun (name, _) => !Entries.has other.fields name) ++
      other.raised record.bound

/-- The numbers of all lists and objects of fields; those without one get numbers from `next` on. -/
def numbersFrom (identities : Entries (List Nat)) (next : Nat) : List (String × Value) → List Nat
  | [] => []
  | (name, v) :: rest =>
    match Entries.get? identities name with
    | some numbers => numbers ++ numbersFrom identities next rest
    | none =>
      List.range' next v.containers ++ numbersFrom identities (next + v.containers) rest

/-- The numbers of a record as a value: its own number and those of what it holds. -/
def numbers (record : Record) : List Nat :=
  record.bound :: numbersFrom record.identities (record.bound + 1) record.fields

/-- Sets a field to another record, with which nothing is shared. -/
def embed (record : Record) (name : String) (other : Record) : Record :=
  let set := record.set name (.object other.fields)
  if other.identities.isEmpty then set
  else
    { set with
      identities := set.identities ++ [(name, other.numbers.map (· + record.bound))] }

/-- Whether a list or object in the value of a field holds itself. -/
def isCircularAt (record : Record) (name : String) : Bool :=
  match Entries.get? record.identities name with
  | some numbers => (Value.holdsItself [] numbers (record.value name)).1
  | none => false

def isCircular (record : Record) : Bool :=
  record.fields.any fun (name, _) => record.isCircularAt name

end Record

end GuardedStore
