import GuardedStore.Expression.Heap
import GuardedStore.Expression.Parser

/-! # Evaluating rules

A rule sees the variables `user`, `data` and `newData` and two functions: `get`, which copies a
record or a whole collection out of a store, and `isOwner`. Operands are evaluated from left to
right; the connectives evaluate the second operand only when it decides. What was assigned before
a rule fails stays assigned.
-/

namespace GuardedStore.Expression

inductive Stop where
  | failed (reason : Reason)
  | outOfRange
  /-- What holds itself is compared without end. -/
  | endless
  deriving DecidableEq, Repr

inductive Found where
  | record (record : Record)
  | records (records : List Record)
  deriving Repr

/-- What a rule can see besides the heap. -/
structure Scope where
  user : Slot
  data : Slot
  newData : Slot
  /-- Copies a record, or a whole collection when there is no id, or says why it is not there. -/
  lookup : String → Option String → Except String Found

/-- A computation on the heap that may stop. -/
abbrev Eval := EStateM Stop Heap

def fail {α : Type} (reason : Reason) : Eval α :=
  throw (.failed reason)

/-- Continues with a result, or stops because a number is out of range. -/
def ranged {α : Type} (result : Except OutOfRange α) : Eval α :=
  match result with
  | .ok a => pure a
  | .error _ => throw .outOfRange

def readSlot (slot : Slot) : Eval Value := do
  return (← get).read slot

def loadFound (found : Found) : Eval Slot := do
  let heap ← get
  let (slot, heap) := match found with
    | .record record => heap.loadRecord record
    | .records records =>
      let (slots, heap) := heap.loadRecords records
      heap.alloc (.list slots)
  set heap
  return slot

/-- A slot as a name: a text as it is, any other value as its literal. -/
def slotName (slot : Slot) : Eval String := do
  return (← get).name slot

def Scope.variable? (scope : Scope) (name : String) : Option Slot :=
  if name = "user" then some scope.user
  else if name = "data" then some scope.data
  else if name = "newData" then some scope.newData
  else none

/-- The index that a key stands for: a whole number, as an integer or not. -/
def indexOf? : Literal → Except OutOfRange (Option Int)
  | .int n =>
    match Binary64.ofInt? n with
    | some _ => .ok (some n)
    | none => .error .outOfRange
  | .float x => .ok (if x.isInteger then x.truncate? else none)
  | _ => .ok none

/-- The item of a sequence that a key gives: its length, an item by its index or null. -/
def readItem (length : Nat) (item : Nat → Slot) (key : Slot) : Eval Slot :=
  match key with
  | .shared _ => return .plain .null
  | .plain key => do
    if key = .str "length" then return .plain (.int length)
    match ← ranged (indexOf? key) with
    | some n => return if 0 ≤ n ∧ n < length then item n.toNat else .plain .null
    | none => return .plain .null

/-- The property of a container that a key gives. -/
def readProperty (container key : Slot) : Eval Slot :=
  match container with
  | .plain .null => do fail (.readsNull (← slotName key))
  | .plain (.str s) =>
    readItem s.length (fun n => .plain (.str (String.ofList (s.toList[n]?).toList))) key
  | .plain _ => return .plain .null
  | .shared address => do
    match (← get).node? address with
    | some (.object fields) =>
      return (Entries.get? fields (← slotName key)).getD (.plain .null)
    | some (.list items) => readItem items.length (fun n => items[n]?.getD (.plain .null)) key
    | none => return .plain .null

/-- Whether two slots with lists or objects have the same contents. -/
def compareContents (left right : Slot) : Eval Bool := do
  match (← get).same? left right with
  | some same => return same
  | none => throw .endless

/-- Whether two slots hold equal values. Lists and objects go by their contents, however values are
    compared. -/
def comparesEqual (compare : Value → Value → Except OutOfRange Bool) (left right : Slot) :
    Eval Bool := do
  match left, right with
  | .shared _, .shared _ => compareContents left right
  | _, _ => ranged (compare (← readSlot left) (← readSlot right))

def Comparison.accepts (op : Comparison) (order : Ordering) : Bool :=
  match op with
  | .less => order.isLT
  | .lessOrEqual => order.isLE
  | .greater => order.isGT
  | .greaterOrEqual => order.isGE
  | _ => false

/-- The outcome of a comparison. Values that are not comparable satisfy no ordering operator. -/
def compareSlots (op : Comparison) (left right : Slot) : Eval Bool := do
  match op with
  | .loose => comparesEqual Value.looseEquals left right
  | .notLoose => return !(← comparesEqual Value.looseEquals left right)
  | .strict => comparesEqual (fun a b => .ok (Value.strictEquals a b)) left right
  | .notStrict => return !(← comparesEqual (fun a b => .ok (Value.strictEquals a b)) left right)
  | op =>
    match ← ranged (Value.order? (← readSlot left) (← readSlot right)) with
    | some order => return op.accepts order
    | none => return false

def truthySlot : Slot → Bool
  | .plain value => value.toValue.truthy
  | .shared _ => true

def writeProperty (container : Slot) (key : String) (value : Slot) : Eval Slot := do
  modify fun heap => heap.modifyFields container fun fields => Entries.set fields key value
  return value

/-- Only an object can have a property set. -/
def requireObject (container : Slot) (key : String) : Eval Unit := do
  let kind := (← get).kind container
  if kind ≠ .object then fail (.setsProperty key kind)

/-- The function `get`. -/
def callGet (scope : Scope) (collection : Slot) (id : Slot) : Eval Slot := do
  let collection ← slotName collection
  let shownId ← slotName id
  match scope.lookup collection (if id = .plain .null then none else some shownId) with
  | .ok found => loadFound found
  | .error message => fail (.lookupFailed collection shownId message)

/-- The function `isOwner`: whether a record belongs to a user. -/
def callIsOwner (user record : Slot) : Eval Slot := do
  let heap ← get
  match heap.fields? user, heap.fields? record with
  | some userFields, some recordFields =>
    let id := (Entries.get? userFields "_id").getD (.plain .null)
    let owner := (Entries.get? recordFields "_ownerId").getD (.plain .null)
    return .plain (.bool (← comparesEqual Value.looseEquals id owner))
  | _, _ => return .plain (.bool false)

def functionNames : List String := ["get", "isOwner"]

def callFunction (scope : Scope) (function : String) (args : List Slot) : Eval Slot :=
  match function, args with
  | "get", [collection] => callGet scope collection (.plain .null)
  | "get", [collection, id] => callGet scope collection id
  | "isOwner", [user, record] => callIsOwner user record
  | _, _ => fail (.argumentCount function args.length)

mutual

def evaluate (scope : Scope) : Expr → Eval Slot
  | .literal value => return .plain value
  | .name name =>
    match scope.variable? name with
    | some slot => return slot
    | none => fail (.undefinedName name)
  | .member target name => do
    readProperty (← evaluate scope target) (.plain (.str name))
  | .index target key => do
    let container ← evaluate scope target
    readProperty container (← evaluate scope key)
  | .call function args => do
    if functionNames.contains function then
      callFunction scope function (← evaluateAll scope args)
    else fail (.undefinedFunction function)
  | .not operand => do
    return .plain (.bool !truthySlot (← evaluate scope operand))
  | .compare op left right => do
    let left ← evaluate scope left
    let right ← evaluate scope right
    return .plain (.bool (← compareSlots op left right))
  | .logical .and left right => do
    let left ← evaluate scope left
    if truthySlot left then evaluate scope right else return left
  | .logical .or left right => do
    let left ← evaluate scope left
    if truthySlot left then return left else evaluate scope right
  | .assignMember target name value => do
    let container ← evaluate scope target
    requireObject container name
    writeProperty container name (← evaluate scope value)
  | .assignIndex target key value => do
    let container ← evaluate scope target
    let key ← evaluate scope key
    requireObject container (← slotName key)
    let value ← evaluate scope value
    writeProperty container (← slotName key) value

def evaluateAll (scope : Scope) : List Expr → Eval (List Slot)
  | [] => return []
  | e :: es => do
    let slot ← evaluate scope e
    return slot :: (← evaluateAll scope es)

end

def evaluateSource (scope : Scope) (source : String) : Eval Slot :=
  match compile source with
  | .ok expr => evaluate scope expr
  | .error reason => fail reason

end GuardedStore.Expression
