import GuardedStore.Expression.Token

/-! # Reading rule expressions

Operators from the loosest to the tightest: assignment, which groups to the right; `or` and `and`,
which group to the left; negation; the comparisons, which do not group at all; and the postfixes
for members, indices and calls.

A token that can follow no operand is refused before anything else is checked about the operand.
Whether an assignment has a place on its left and a call a name is checked when the next token can
follow.
-/

namespace GuardedStore.Expression

/-- How tightly an operator must bind to be taken up. -/
inductive Level where
  /-- Everything, assignments included. -/
  | assignment
  /-- Disjunctions and what binds tighter. -/
  | disjunction
  /-- Conjunctions and what binds tighter. -/
  | conjunction
  | negation
  | operand
  deriving DecidableEq, Repr

/-- The rank of a level, from the loosest on. -/
def Level.rank : Level → Nat
  | .assignment => 0
  | .disjunction => 1
  | .conjunction => 2
  | .negation => 3
  | .operand => 4

def Connective.level : Connective → Level
  | .or => .disjunction
  | .and => .conjunction

/-- The level of the right operand of a connective: what binds tighter than the connective. -/
def Connective.rightLevel : Connective → Level
  | .or => .conjunction
  | .and => .negation

/-- Whether a token can stand behind a complete operand. -/
def Token.followsOperand : Token → Bool
  | .connective _ _ | .comparison _ | .assign | .closeGroup | .closeIndex | .comma => true
  | _ => false

/-- Whether the rest of the tokens can stand behind a complete operand. -/
def Tokens.followOperand : Tokens → Bool
  | .done => true
  | .stuck _ _ => false
  | .more token _ _ => token.followsOperand

/-- Whether the rest of the tokens can stand behind an operand that may still get a postfix. -/
def Tokens.followPostfix (tokens : Tokens) : Bool :=
  match tokens with
  | .more .dot _ _ | .more .openIndex _ _ | .more .openGroup _ _ => true
  | _ => tokens.followOperand

/-- Refuses what the tokens start with. -/
def Tokens.refuse {α : Type} (tokens : Tokens) : Except Reason α :=
  .error tokens.unexpected

mutual

/-- An expression of a level and the tokens behind it. -/
def readExpr : Nat → Level → Tokens → Except Reason (Expr × Tokens)
  | 0, _, tokens => tokens.refuse
  | fuel + 1, level, tokens => do
    let (left, rest) ← readOperand fuel tokens
    readOperators fuel level left rest

/-- A negation or an operand with its postfixes. -/
def readOperand : Nat → Tokens → Except Reason (Expr × Tokens)
  | 0, tokens => tokens.refuse
  | fuel + 1, tokens =>
    match tokens with
    | .more (.negation _) _ rest => do
      let (operand, rest) ← readExpr fuel .negation rest
      return (.not operand, rest)
    | .more (.number value) _ rest => readPostfixes fuel (.literal value) rest
    | .more (.text s) _ rest => readPostfixes fuel (.literal (.str s)) rest
    | .more (.constant c) _ rest => readPostfixes fuel (.literal c.literal) rest
    | .more (.name s) _ rest => readPostfixes fuel (.name s) rest
    | .more .openGroup _ rest => do
      let (inner, rest) ← readExpr fuel .assignment rest
      match rest with
      | .more .closeGroup _ rest => readPostfixes fuel inner rest
      | rest => rest.refuse
    | tokens => tokens.refuse

def readPostfixes : Nat → Expr → Tokens → Except Reason (Expr × Tokens)
  | 0, _, tokens => tokens.refuse
  | fuel + 1, target, tokens =>
    match tokens with
    | .more .dot _ rest =>
      match rest with
      | .more (.name s) _ rest => readPostfixes fuel (.member target s) rest
      | rest => rest.refuse
    | .more .openIndex _ rest => do
      let (key, rest) ← readExpr fuel .assignment rest
      match rest with
      | .more .closeIndex _ rest => readPostfixes fuel (.index target key) rest
      | rest => rest.refuse
    | .more .openGroup _ rest => do
      let (args, rest) ← readArguments fuel rest
      if !rest.followPostfix then rest.refuse
      else match target with
        | .name function => readPostfixes fuel (.call function args) rest
        | _ => .error .notCallable
    | tokens => if tokens.followOperand then .ok (target, tokens) else tokens.refuse

def readArguments : Nat → Tokens → Except Reason (List Expr × Tokens)
  | 0, tokens => tokens.refuse
  | fuel + 1, tokens =>
    match tokens with
    | .more .closeGroup _ rest => .ok ([], rest)
    | tokens => readArgumentList fuel tokens

/-- One or more arguments up to the closing parenthesis. -/
def readArgumentList : Nat → Tokens → Except Reason (List Expr × Tokens)
  | 0, tokens => tokens.refuse
  | fuel + 1, tokens => do
    let (arg, rest) ← readExpr fuel .assignment tokens
    match rest with
    | .more .closeGroup _ rest => return ([arg], rest)
    | .more .comma _ rest =>
      let (args, rest) ← readArgumentList fuel rest
      return (arg :: args, rest)
    | rest => rest.refuse

/-- The operators of a level behind a left operand. -/
def readOperators : Nat → Level → Expr → Tokens → Except Reason (Expr × Tokens)
  | 0, _, _, tokens => tokens.refuse
  | fuel + 1, level, left, tokens =>
    match tokens with
    | .more (.comparison op) _ rest =>
      if Level.operand.rank ≤ level.rank then .ok (left, tokens)
      else do
        let (right, rest) ← readExpr fuel .operand rest
        match rest with
        | .more (.comparison _) _ _ => rest.refuse
        | rest => readOperators fuel level (.compare op left right) rest
    | .more (.connective op _) _ rest =>
      if op.level.rank < level.rank then .ok (left, tokens)
      else do
        let (right, rest) ← readExpr fuel op.rightLevel rest
        readOperators fuel level (.logical op left right) rest
    | .more .assign _ rest =>
      if 0 < level.rank then .ok (left, tokens)
      else do
        let (right, rest) ← readExpr fuel .assignment rest
        match left.assign? right with
        | some assignment => return (assignment, rest)
        | none => throw .notAssignable
    | tokens => .ok (left, tokens)

end

/-- The expression that a source text stands for, or why there is none. The readers call each other
    at most a fixed number of times for each token. -/
def compile (source : String) : Except Reason Expr := do
  let tokens := Tokens.ofSource source
  let (expr, rest) ← readExpr (6 * tokens.count + 8) .assignment tokens
  match rest with
  | .done => return expr
  | rest => rest.refuse

end GuardedStore.Expression
