import GuardedStore.Value.Basic

/-! # Rule expressions

The expressions that decide who may do what. They read the variables `user`, `data` and `newData`,
call the functions `get` and `isOwner`, and may set fields.
-/

namespace GuardedStore.Expression

/-- A value that can be written in an expression. -/
inductive Literal where
  | null
  | bool (b : Bool)
  | int (n : Int)
  | float (x : Binary64)
  | str (s : String)
  deriving DecidableEq, Repr, Inhabited

def Literal.toValue : Literal → Value
  | .null => .null
  | .bool b => .bool b
  | .int n => .int n
  | .float x => .float x
  | .str s => .str s

inductive Comparison where
  | loose
  | notLoose
  | strict
  | notStrict
  | less
  | lessOrEqual
  | greater
  | greaterOrEqual
  deriving DecidableEq, Repr

def Comparison.sign : Comparison → String
  | .loose => "=="
  | .notLoose => "!="
  | .strict => "==="
  | .notStrict => "!=="
  | .less => "<"
  | .lessOrEqual => "<="
  | .greater => ">"
  | .greaterOrEqual => ">="

/-- The connectives, which decide by the first operand whether the second counts. -/
inductive Connective where
  | and | or
  deriving DecidableEq, Repr

def Connective.word : Connective → String
  | .and => "and"
  | .or => "or"

inductive Expr where
  | literal (value : Literal)
  | name (var : String)
  /-- The property `name` of the target. -/
  | member (target : Expr) (name : String)
  /-- The property of the target that a key gives. -/
  | index (target key : Expr)
  | call (function : String) (args : List Expr)
  | not (operand : Expr)
  | compare (op : Comparison) (left right : Expr)
  | logical (op : Connective) (left right : Expr)
  /-- Sets the property `name` of the target. -/
  | assignMember (target : Expr) (name : String) (value : Expr)
  /-- Sets the property of the target that a key gives. -/
  | assignIndex (target key value : Expr)
  deriving Repr, Inhabited

namespace Expr

/-- The variable that a chain of properties starts from. -/
def root? : Expr → Option String
  | .name var => some var
  | .member target _ => target.root?
  | .index target _ => target.root?
  | _ => none

/-- The variables whose fields may be set. -/
def assignableRoots : List String := ["data", "newData"]

/-- Whether a chain of properties starts from a variable whose fields may be set. -/
def isAssignableRoot (target : Expr) : Bool :=
  match target.root? with
  | some var => assignableRoots.contains var
  | none => false

/-- The assignment to a place, if the place is a field of an assignable variable. -/
def assign? (place value : Expr) : Option Expr :=
  match place with
  | .member target field =>
    if target.isAssignableRoot then some (.assignMember target field value) else none
  | .index target key =>
    if target.isAssignableRoot then some (.assignIndex target key value) else none
  | _ => none

end Expr

end GuardedStore.Expression
