import GuardedStore.Json.Reader
import GuardedStore.Refusal
import GuardedStore.Text.Blank
import GuardedStore.Text.Case
import GuardedStore.Value.PlainText
import GuardedStore.Value.Record

/-! # Filters

A filter is a list of clauses `field operator literal`, all joined by `and` or all joined by `or`;
`and` is looked for first. The literal is JSON; behind `in` it is a list in parentheses. Operators
that are words, and the words between clauses, may be written in any case.

In a word operator a dotted capital or a dotless small i is taken for the letter i when clauses are
cut, but the operator that this gives is unknown.
-/

namespace GuardedStore.Query

inductive Operator where
  | lessOrEqual
  | less
  | greaterOrEqual
  | greater
  | equal
  /-- `like`: the text of the field contains the text of the literal, in any case. -/
  | like
  /-- `in`: the field is there and strictly equals an item of the literal. -/
  | memberOf
  deriving DecidableEq, Repr

structure Clause where
  field : String
  operator : Operator
  literal : Value
  deriving Repr

inductive Filter where
  | all (clauses : List Clause)
  | any (clauses : List Clause)
  deriving Repr

namespace Clause

/-- Whether a field value and a literal are comparable and in an accepted order. -/
def ordered (accepts : Ordering → Bool) (value literal : Value) : Except OutOfRange Bool := do
  match ← Value.order? value literal with
  | some order => return accepts order
  | none => return false

/-- Whether the plain text of a value contains that of a literal, in any case. -/
def containsText (value literal : Value) : Bool :=
  let needle := (Text.lowerCase literal.plainText).toList
  match value with
  | .null => false
  | value => Text.occursIn needle (Text.lowerCase value.plainText).toList

/-- Whether a value strictly equals an item of a list. -/
def isMember (value literal : Value) : Bool :=
  match literal with
  | .list items => items.any (Value.strictEquals value)
  | _ => false

/-- Whether a clause holds for a record. A missing field counts as null, but is no member of any
    list. What holds itself equals no literal, and has no text. -/
def holds (clause : Clause) (record : Record) : Except Fault Bool :=
  let value := record.value clause.field
  let circular := record.isCircularAt clause.field
  match clause.operator with
  | .lessOrEqual => liftM (ordered Ordering.isLE value clause.literal)
  | .less => liftM (ordered Ordering.isLT value clause.literal)
  | .greaterOrEqual => liftM (ordered Ordering.isGE value clause.literal)
  | .greater => liftM (ordered Ordering.isGT value clause.literal)
  | .equal => if circular then .ok false else liftM (Value.looseEquals value clause.literal)
  | .like => if circular then .error .circular else .ok (containsText value clause.literal)
  | .memberOf =>
    .ok (Entries.has record.fields clause.field && !circular && isMember value clause.literal)

/-- Whether all clauses hold, looked at until one does not. -/
def allHold (record : Record) : List Clause → Except Fault Bool
  | [] => .ok true
  | clause :: rest => do
    if ← clause.holds record then allHold record rest else return false

/-- Whether some clause holds, looked at until one does. -/
def someHolds (record : Record) : List Clause → Except Fault Bool
  | [] => .ok false
  | clause :: rest => do
    if ← clause.holds record then return true else someHolds record rest

end Clause

namespace Filter

def keeps (filter : Filter) (record : Record) : Except Fault Bool :=
  match filter with
  | .all clauses => Clause.allHold record clauses
  | .any clauses => Clause.someHolds record clauses

def apply (filter : Filter) : List Record → Except Fault (List Record)
  | [] => .ok []
  | record :: rest => do
    let kept ← filter.keeps record
    let rest ← filter.apply rest
    return if kept then record :: rest else rest

end Filter

inductive FilterFault where
  /-- A clause is not `field operator literal`. -/
  | unreadable
  /-- A clause has an operator that only looks like one. -/
  | unknownOperator
  deriving DecidableEq, Repr

/-- The fault of an operation that a filter ends. -/
def FilterFault.fault : FilterFault → Fault
  | .unreadable => .refused .filterUnreadable
  | .unknownOperator => .unknownOperator

/-- Whether a character stands for a small letter when words are looked for. -/
def looksLike (letter c : Char) : Bool :=
  c = letter || c = letter.toUpper || (letter = 'k' && c = '\u212A') ||
    (letter = 'i' && (c = '\u0130' || c = '\u0131'))

/-- The characters behind a word in blanks that a text starts with, and the word as written. -/
def afterWord? : List Char → List Char → Option (List Char × List Char)
  | [], cs => some ([], cs)
  | _, [] => none
  | letter :: word, c :: cs =>
    if looksLike letter c then (afterWord? word cs).map fun (read, rest) => (c :: read, rest)
    else none

/-- The parts of a text between the places where a word stands in blanks. -/
def splitAtWord (word : List Char) (part : List Char) (fuel : Nat) (cs : List Char) :
    List (List Char) :=
  match fuel, cs with
  | 0, _ | _, [] => [part.reverse]
  | fuel + 1, c :: rest =>
    match afterWord? word (c :: rest) with
    | some (_, after) => part.reverse :: splitAtWord word [] fuel after
    | none => splitAtWord word (c :: part) fuel rest

/-- The parts of a text between the places where ` and ` stands. -/
def splitAnd (cs : List Char) : List (List Char) :=
  splitAtWord " and ".toList [] cs.length cs

/-- The parts of a text between the places where ` or ` stands. -/
def splitOr (cs : List Char) : List (List Char) :=
  splitAtWord " or ".toList [] cs.length cs

/-- An operator written with a word; a look-alike letter makes it unknown. -/
def wordOperator? (word : String) (operator : Operator) (cs : List Char) :
    Option (Option Operator × List Char) :=
  (afterWord? word.toList cs).map fun (read, rest) =>
    (if read.any fun c => c = '\u0130' ∨ c = '\u0131' then none else some operator, rest)

/-- The operator that a text starts with, unknown if it only looks like one, and the text behind it,
    which must not be empty. -/
def readOperator? (cs : List Char) : Option (Option Operator × List Char) :=
  match cs with
  | '<' :: '=' :: c :: rest => some (some .lessOrEqual, c :: rest)
  | '<' :: c :: rest => some (some .less, c :: rest)
  | '>' :: '=' :: c :: rest => some (some .greaterOrEqual, c :: rest)
  | '>' :: c :: rest => some (some .greater, c :: rest)
  | '=' :: c :: rest => some (some .equal, c :: rest)
  | _ =>
    match wordOperator? " like " .like cs with
    | some (operator, c :: rest) => some (operator, c :: rest)
    | _ =>
      match wordOperator? " in " .memberOf cs with
      | some (operator, c :: rest) => some (operator, c :: rest)
      | _ => none

/-- Cuts a clause at the first operator behind its first character: the field, the operator and the
    literal. -/
def cutClause? (field : List Char) : List Char → Option (List Char × Option Operator × List Char)
  | [] => none
  | c :: rest =>
    if field.isEmpty then cutClause? [c] rest
    else match readOperator? (c :: rest) with
      | some (operator, literal) => some (field.reverse, operator, literal)
      | none => cutClause? (c :: field) rest

/-- The text in the first parentheses that hold at least one character. -/
def parenthesised? (cs : List Char) : Option (List Char) :=
  match cs.dropWhile (· ≠ '(') with
  | '(' :: first :: rest =>
    let inner := rest.takeWhile (· ≠ ')')
    if inner.length < rest.length then some (first :: inner) else none
  | _ => none

def readLiteral? (operator : Option Operator) (cs : List Char) : Option Value :=
  let text := Text.stripEnds Text.isBlank cs
  match operator with
  | some .memberOf =>
    (parenthesised? text).bind fun inner => Json.parse? (String.ofList (['['] ++ inner ++ [']']))
  | _ => Json.parse? (String.ofList text)

def Clause.ofText (cs : List Char) : Except FilterFault Clause :=
  match cutClause? [] cs with
  | none => .error .unreadable
  | some (field, operator, literal) =>
    match readLiteral? operator literal with
    | none => .error .unreadable
    | some literal =>
      match operator with
      | none => .error .unknownOperator
      | some operator =>
        .ok ⟨String.ofList (Text.stripEnds Text.isBlank field), operator, literal⟩

def Clause.ofTexts : List (List Char) → Except FilterFault (List Clause)
  | [] => .ok []
  | cs :: rest => do
    let clause ← Clause.ofText cs
    return clause :: (← Clause.ofTexts rest)

def Filter.ofText (text : String) : Except FilterFault Filter := do
  let conjuncts := splitAnd text.toList
  let disjuncts := splitOr text.toList
  if 1 < conjuncts.length then return .all (← Clause.ofTexts conjuncts)
  else if 1 < disjuncts.length then return .any (← Clause.ofTexts disjuncts)
  else return .all [← Clause.ofText (Text.stripEnds Text.isBlank text.toList)]

end GuardedStore.Query
