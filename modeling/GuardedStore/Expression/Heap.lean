import GuardedStore.Expression.Expr
import GuardedStore.Value.Comparison
import GuardedStore.Value.Literal
import GuardedStore.Value.Record

/-! # Shared values

While rules run, lists and objects are shared: setting a field to an object makes the object
reachable in two places, and a later change shows in both. A heap holds the lists and objects under
addresses; a slot is a plain value or an address.

Loading a value or a record into a heap shares nothing with what is there, and reading a slot back
gives the value that it stands for at that moment. A list or object that holds itself is read without
contents where it comes again. Comparing two of them part by part need not come to an end.
-/

namespace GuardedStore.Expression

/-- What a variable, a field or a list item holds. -/
inductive Slot where
  | plain (value : Literal)
  | shared (address : Nat)
  deriving DecidableEq, Repr, Inhabited

inductive Node where
  | list (items : List Slot)
  | object (fields : Entries Slot)
  deriving Repr, Inhabited

/-- The lists and objects that rules share; an address is an index. -/
structure Heap where
  nodes : Array Node
  deriving Repr, Inhabited

namespace Heap

def empty : Heap := ⟨#[]⟩

/-- Adds a node at a new address. -/
def alloc (heap : Heap) (node : Node) : Slot × Heap :=
  (.shared heap.nodes.size, ⟨heap.nodes.push node⟩)

def node? (heap : Heap) (address : Nat) : Option Node :=
  heap.nodes[address]?

/-- Replaces the node at an address. -/
def put (heap : Heap) (address : Nat) (node : Node) : Heap :=
  ⟨heap.nodes.setIfInBounds address node⟩

mutual

def load (heap : Heap) : Value → Slot × Heap
  | .null => (.plain .null, heap)
  | .bool b => (.plain (.bool b), heap)
  | .int n => (.plain (.int n), heap)
  | .float x => (.plain (.float x), heap)
  | .str s => (.plain (.str s), heap)
  | .list items =>
    let (slots, heap) := loadItems heap items
    heap.alloc (.list slots)
  | .object fields =>
    let (slots, heap) := loadFields heap fields
    heap.alloc (.object slots)

def loadItems (heap : Heap) : List Value → List Slot × Heap
  | [] => ([], heap)
  | v :: vs =>
    let (slot, heap) := load heap v
    let (slots, heap) := loadItems heap vs
    (slot :: slots, heap)

def loadFields (heap : Heap) : Fields → Entries Slot × Heap
  | [] => ([], heap)
  | (name, v) :: rest =>
    let (slot, heap) := load heap v
    let (slots, heap) := loadFields heap rest
    ((name, slot) :: slots, heap)

end

/-- The state of loading a record: the numbers of the lists and objects that come next, and the
    addresses of those that were met. -/
structure Loading where
  heap : Heap
  met : List (Nat × Nat) := []
  numbers : List Nat := []

namespace Loading

/-- The next number, if there is one. -/
def next (loading : Loading) : Option Nat × Loading :=
  (loading.numbers.head?, { loading with numbers := loading.numbers.drop 1 })

/-- The address of the list or object with a number, if it was met. -/
def address? (loading : Loading) (number : Option Nat) : Option Nat :=
  number.bind fun number => (loading.met.find? (·.1 = number)).map (·.2)

/-- Meets a list or object, whose contents are not known yet. -/
def meet (loading : Loading) (number : Option Nat) (node : Node) : Nat × Loading :=
  let address := loading.heap.nodes.size
  (address,
    { loading with
      heap := (loading.heap.alloc node).2
      met := number.toList.map (·, address) ++ loading.met })

def fill (loading : Loading) (address : Nat) (node : Node) : Loading :=
  { loading with heap := loading.heap.put address node }

/-- Passes over the numbers of what is not loaded again. -/
def pass (loading : Loading) (count : Nat) : Loading :=
  { loading with numbers := loading.numbers.drop count }

mutual

/-- Loads a value whose lists and objects have the numbers that come next. -/
def load (loading : Loading) : Value → Slot × Loading
  | .null => (.plain .null, loading)
  | .bool b => (.plain (.bool b), loading)
  | .int n => (.plain (.int n), loading)
  | .float x => (.plain (.float x), loading)
  | .str s => (.plain (.str s), loading)
  | .list items =>
    let (number, loading) := loading.next
    match loading.address? number with
    | some address => (.shared address, loading.pass (Value.containersOfItems items))
    | none =>
      let (address, loading) := loading.meet number (.list [])
      let (slots, loading) := loadItems loading items
      (.shared address, loading.fill address (.list slots))
  | .object fields =>
    let (number, loading) := loading.next
    match loading.address? number with
    | some address => (.shared address, loading.pass (Value.containersOfFields fields))
    | none =>
      let (address, loading) := loading.meet number (.object [])
      let (slots, loading) := loadFields loading fields
      (.shared address, loading.fill address (.object slots))

def loadItems (loading : Loading) : List Value → List Slot × Loading
  | [] => ([], loading)
  | v :: vs =>
    let (slot, loading) := load loading v
    let (slots, loading) := loadItems loading vs
    (slot :: slots, loading)

def loadFields (loading : Loading) : List (String × Value) → Entries Slot × Loading
  | [] => ([], loading)
  | (name, v) :: rest =>
    let (slot, loading) := load loading v
    let (slots, loading) := loadFields loading rest
    ((name, slot) :: slots, loading)

end

/-- Loads the fields of a record, each with its own numbers. -/
def loadRecordFields (identities : Entries (List Nat)) (loading : Loading) :
    List (String × Value) → Entries Slot × Loading
  | [] => ([], loading)
  | (name, v) :: rest =>
    let numbers := (Entries.get? identities name).getD []
    let (slot, loading) := load { loading with numbers } v
    let (slots, loading) := loadRecordFields identities loading rest
    ((name, slot) :: slots, loading)

end Loading

def loadRecordFields (heap : Heap) (record : Record) : Entries Slot × Heap :=
  if record.identities.isEmpty then heap.loadFields record.fields
  else
    let (slots, loading) := Loading.loadRecordFields record.identities { heap } record.fields
    (slots, loading.heap)

def loadRecord (heap : Heap) (record : Record) : Slot × Heap :=
  let (fields, heap) := heap.loadRecordFields record
  heap.alloc (.object fields)

def loadRecords (heap : Heap) : List Record → List Slot × Heap
  | [] => ([], heap)
  | record :: records =>
    let (slot, heap) := heap.loadRecord record
    let (slots, heap) := heap.loadRecords records
    (slot :: slots, heap)

/-- The value of a slot, followed through at most `depth` addresses, inside the lists and objects at
    the addresses `around`. -/
def readTo (heap : Heap) : Nat → List Nat → Slot → Value
  | _, _, .plain value => value.toValue
  | 0, _, .shared _ => .null
  | depth + 1, around, .shared address =>
    let inner := if around.contains address then none else some (address :: around)
    match heap.node? address with
    | some (.list items) =>
      .list ((inner.map fun around => items.map (readTo heap depth around)).getD [])
    | some (.object fields) =>
      .object ((inner.map fun around =>
        fields.map fun (name, slot) => (name, readTo heap depth around slot)).getD [])
    | none => .null

/-- The value of a slot. A chain of addresses without repetition is no longer than the heap. -/
def read (heap : Heap) (slot : Slot) : Value :=
  heap.readTo (heap.nodes.size + 1) [] slot

/-- The addresses of the lists and objects in the value of a slot, in the order in which they are
    written. -/
def addressesTo (heap : Heap) : Nat → List Nat → Slot → List Nat
  | _, _, .plain _ | 0, _, .shared _ => []
  | depth + 1, around, .shared address =>
    if around.contains address then [address]
    else
      match heap.node? address with
      | some (.list items) =>
        address :: items.flatMap (addressesTo heap depth (address :: around))
      | some (.object fields) =>
        address :: fields.flatMap fun (_, slot) =>
          addressesTo heap depth (address :: around) slot
      | none => []

/-- The addresses of the lists and objects in the value of a slot. -/
def addresses (heap : Heap) (slot : Slot) : List Nat :=
  heap.addressesTo (heap.nodes.size + 1) [] slot

def record (heap : Heap) (fields : Entries Slot) : Record :=
  let identities := fields.map fun (name, slot) => (name, heap.addresses slot)
  { fields := fields.map fun (name, slot) => (name, heap.read slot)
    identities := if (identities.flatMap (·.2)).Nodup then [] else identities }

/-- What is shown of a list or object inside itself. -/
def again : Node → String
  | .list _ => "[...]"
  | .object _ => "\x7b...\x7d"

/-- The value of a slot as a literal, followed through at most `depth` addresses, inside the lists and
    objects at the addresses `around`. -/
def literalTo (heap : Heap) : Nat → List Nat → Slot → String
  | _, _, .plain value => value.toValue.literal
  | 0, _, .shared _ => ""
  | depth + 1, around, .shared address =>
    match heap.node? address with
    | none => ""
    | some node =>
      if around.contains address then again node
      else match node with
        | .list items =>
          "[" ++ ", ".intercalate (items.map (literalTo heap depth (address :: around))) ++ "]"
        | .object fields =>
          "\x7b" ++ ", ".intercalate (fields.map fun (name, slot) =>
            Text.quote name ++ ": " ++ literalTo heap depth (address :: around) slot) ++ "\x7d"

/-- The value of a slot as a name: a text as it is, any other value as its literal. -/
def name (heap : Heap) : Slot → String
  | .plain value => value.toValue.asName
  | slot => heap.literalTo (heap.nodes.size + 1) [] slot

def fields? (heap : Heap) : Slot → Option (Entries Slot)
  | .plain _ => none
  | .shared address =>
    match heap.node? address with
    | some (.object fields) => some fields
    | _ => none

/-- The record in a slot that holds an object; an empty one in any other slot. -/
def readRecord (heap : Heap) (slot : Slot) : Record :=
  heap.record ((heap.fields? slot).getD [])

/-- Changes the fields of an object; any other slot stays as it is. -/
def modifyFields (heap : Heap) (slot : Slot) (f : Entries Slot → Entries Slot) : Heap :=
  match slot with
  | .plain _ => heap
  | .shared address =>
    match heap.node? address with
    | some (.object fields) => heap.put address (.object (f fields))
    | _ => heap

/-- Whether a test holds of all of a list. It is tried in turn, up to the first item of which it does
    not hold or for which it does not end. -/
def allEnd {α : Type} (test : α → Option Bool) : List α → Option Bool
  | [] => some true
  | a :: as =>
    match test a with
    | some true => allEnd test as
    | other => other

/-- Whether two lists or two objects have the same contents, the fields of an object in any order. -/
def sameNodes (same : Slot → Slot → Option Bool) : Node → Node → Option Bool
  | .list items, .list others =>
    if items.length = others.length then
      allEnd (fun (item, other) => same item other) (items.zip others)
    else some false
  | .object fields, .object others =>
    if fields.length = others.length then
      allEnd (fun (name, slot) => match Entries.get? others name with
        | some other => same slot other
        | none => some false) fields
    else some false
  | _, _ => some false

/-- Whether two slots have the same contents, followed through at most `depth` addresses, while the
    pairs of addresses `around` are being compared. There is no end when one of them comes again. -/
def sameTo (heap : Heap) : Nat → List (Nat × Nat) → Slot → Slot → Option Bool
  | _, _, .plain v, .plain w =>
    some (Value.sameNan v.toValue w.toValue || Value.same v.toValue w.toValue)
  | _, _, .plain _, .shared _ | _, _, .shared _, .plain _ => some false
  | 0, _, .shared _, .shared _ => none
  | depth + 1, around, .shared a, .shared b =>
    if a = b then some true
    else if around.contains (a, b) then none
    else match heap.node? a, heap.node? b with
      | some node, some other => sameNodes (sameTo heap depth ((a, b) :: around)) node other
      | _, _ => some false

/-- Whether two slots have the same contents, if finding out ends. No more pairs are compared inside
    one another than there are. -/
def same? (heap : Heap) (left right : Slot) : Option Bool :=
  heap.sameTo (heap.nodes.size * heap.nodes.size + 1) [] left right

def kind (heap : Heap) : Slot → Kind
  | .plain value => value.toValue.kind
  | .shared address =>
    match heap.node? address with
    | some (.list _) => .list
    | some (.object _) => .object
    | none => .null

end Heap

end GuardedStore.Expression
