import GuardedStore.Number.Numeral
import GuardedStore.Value.Basic

/-! # Comparing values

Truth, the numeric reading of a value, two equalities and an order. The strict equality asks for
the same kind, the loose one also reads texts and truth values as numbers, and the order is partial:
null, lists, objects and texts that are no numerals compare with nothing but texts with texts.

Reading an integer as a binary64 number fails beyond the range of the format, so every operation
that may do it can fail with `OutOfRange`.
-/

namespace GuardedStore

/-- An integer is too large for the binary64 format. -/
inductive OutOfRange where
  | outOfRange
  deriving DecidableEq, Repr

inductive Kind where
  | null | bool | int | float | str | list | object
  deriving DecidableEq, Repr

namespace Value

def kind : Value → Kind
  | .null => .null
  | .bool _ => .bool
  | .int _ => .int
  | .float _ => .float
  | .str _ => .str
  | .list _ => .list
  | .object _ => .object

/-- Whether a value counts as true: null, false, zero, `nan` and the empty text do not. -/
def truthy : Value → Bool
  | .null => false
  | .bool b => b
  | .int n => n ≠ 0
  | .float (.nan _) => false
  | .float (.finite _ units) => units ≠ 0
  | .float (.infinity _) => true
  | .str s => s ≠ ""
  | .list _ | .object _ => true

/-- The place of a number on the number line; a truth value lies at zero or one. -/
def place? : Value → Option Place
  | .bool b => some (.ofInt (if b then 1 else 0))
  | .int n => some (.ofInt n)
  | .float x => x.place?
  | _ => none

def samePlace (left right : Value) : Bool :=
  match left.place?, right.place? with
  | some a, some b => a.compare b == .eq
  | _, _ => false

/-- Whether two values are the same `nan`. As an item or a field a `nan` equals itself, though it
    equals no number. -/
def sameNan : Value → Value → Bool
  | .float (.nan p), .float (.nan q) => p = q
  | _, _ => false

mutual

/-- Equality of content: numbers and truth values by their place, objects without regard to the
    order of their fields. -/
def same : Value → Value → Bool
  | .null, .null => true
  | .str a, .str b => a = b
  | .list as, .list bs => sameItems as bs
  | .object as, .object bs => as.length = bs.length && sameFields bs as
  | a, b => samePlace a b

def sameItems : List Value → List Value → Bool
  | [], [] => true
  | a :: as, b :: bs => (sameNan a b || same a b) && sameItems as bs
  | _, _ => false

/-- Whether each field of a list of fields has its equal in `whole`. -/
def sameFields (whole : Fields) : Fields → Bool
  | [] => true
  | (name, a) :: as =>
    (match Entries.get? whole name with
      | some b => sameNan a b || same a b
      | none => false) && sameFields whole as

end

/-- The numeric reading of a value: numbers and truth values as they are, blank texts as zero, other
    texts when they are numerals. -/
def toNumber? : Value → Except OutOfRange (Option Binary64)
  | .int n =>
    match Binary64.ofInt? n with
    | some x => .ok (some x)
    | none => .error .outOfRange
  | .float x => .ok (some x)
  | .bool b => .ok (some (if b then .one else .zero))
  | .str s =>
    let text := Text.trim s
    .ok (if text.isEmpty then some .zero else Numeral.read? text)
  | _ => .ok none

/-- Whether two numbers of the format lie at the same place. -/
def sameNumber (x y : Binary64) : Bool :=
  match x.place?, y.place? with
  | some a, some b => a.compare b == .eq
  | _, _ => false

/-- Equality that also takes texts and truth values for the numbers they stand for. Null equals only
    itself. -/
def looseEquals (left right : Value) : Except OutOfRange Bool :=
  match left, right with
  | .null, .null => .ok true
  | .null, _ | _, .null => .ok false
  | _, _ =>
    if left.kind = right.kind ∨ (left.isNumber ∧ right.isNumber) then .ok (same left right)
    else if left.isContainer ∨ right.isContainer then .ok false
    else do
      let x ← left.toNumber?
      let y ← right.toNumber?
      match x, y with
      | some x, some y => return sameNumber x y
      | _, _ => return false

/-- Equality of values of one kind; any two numbers count as one kind. -/
def strictEquals (left right : Value) : Bool :=
  if left.isNumber ∧ right.isNumber then samePlace left right
  else left.kind = right.kind && same left right

def textOrder (left right : String) : Ordering :=
  if left < right then .lt else if right < left then .gt else .eq

/-- The order of two numbers of the format; `nan` is not told apart from anything. -/
def numberOrder (x y : Binary64) : Ordering :=
  match x.place?, y.place? with
  | some a, some b => a.compare b
  | _, _ => .eq

/-- The order of two values, if they are comparable. -/
def order? (left right : Value) : Except OutOfRange (Option Ordering) :=
  match left, right with
  | .null, _ | _, .null => .ok none
  | .str a, .str b => .ok (some (textOrder a b))
  | _, _ =>
    if left.isContainer ∨ right.isContainer then .ok none
    else do
      let x ← left.toNumber?
      let y ← right.toNumber?
      match x, y with
      | some x, some y => return some (numberOrder x y)
      | _, _ => return none

end Value

end GuardedStore
