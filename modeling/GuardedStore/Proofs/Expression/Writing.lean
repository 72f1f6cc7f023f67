import Mathlib
import GuardedStore.Expression.Token
import GuardedStore.Proofs.Expression.Syntax

/-! # Writing rule expressions

An expression is written token by token. Parentheses stand only where an operand binds looser than its
operator, or just as loosely on a side to which the operator does not group. Between two tokens stands
some white space; how much, which quotes a text has and whether an operator is a sign or a word is left
to whoever writes.
-/

namespace GuardedStore.Expression

/-- Whether a text is a name: letters, digits, underscores and dollar signs, no digit in front, and no
word with a meaning of its own. -/
def isName (text : String) : Bool :=
  match text.toList with
  | [] => false
  | c :: rest =>
    Token.startsName c && rest.all Token.continuesName && !(Token.reserved.map (·.1)).contains text

/-- Whether a literal is no number with a fraction. -/
def Literal.isWhole : Literal → Bool
  | .float _ => false
  | _ => true

/-- Whether a literal is no integer with too many digits. -/
def Literal.isShort : Literal → Bool
  | .int n => n.natAbs < 10 ^ Numeral.digitLimit
  | _ => true

namespace Expr

mutual

/-- Whether all literals of an expression are whole, all names in it are names, and all assignments go to
fields of variables that may be set. -/
def isWritable : Expr → Bool
  | .literal value => value.isWhole
  | .name var => isName var
  | .member target field => target.isWritable && isName field
  | .index target key => target.isWritable && key.isWritable
  | .call function args => isName function && areWritable args
  | .not operand => operand.isWritable
  | .compare _ left right | .logical _ left right => left.isWritable && right.isWritable
  | .assignMember target field value =>
    target.isAssignableRoot && target.isWritable && isName field && value.isWritable
  | .assignIndex target key value =>
    target.isAssignableRoot && target.isWritable && key.isWritable && value.isWritable

def areWritable : List Expr → Bool
  | [] => true
  | e :: es => e.isWritable && areWritable es

end

end Expr

/-- The operators of a rule, from the loosest on. -/
inductive Tier where
  /-- Groups to the right. -/
  | assignment
  /-- Groups to the left. -/
  | disjunction
  /-- Groups to the left. -/
  | conjunction
  | negation
  /-- Does not group. -/
  | comparison
  /-- Members, indices and calls, and what has no operator. -/
  | operand
  deriving DecidableEq, Repr

def Tier.rank : Tier → Nat
  | .assignment => 0
  | .disjunction => 1
  | .conjunction => 2
  | .negation => 3
  | .comparison => 4
  | .operand => 5

def Connective.tier : Connective → Tier
  | .or => .disjunction
  | .and => .conjunction

/-- The operator that an expression is made with. -/
def Expr.tier : Expr → Tier
  | .literal _ | .name _ | .member _ _ | .index _ _ | .call _ _ => .operand
  | .not _ => .negation
  | .compare _ _ _ => .comparison
  | .logical op _ _ => op.tier
  | .assignMember _ _ _ | .assignIndex _ _ _ => .assignment

/-- Whether an operand needs parentheses beside an operator, which groups to its side or does not. -/
def Tier.encloses (operator : Tier) (groups : Bool) (inner : Tier) : Bool :=
  inner.rank < operator.rank || (inner.rank = operator.rank && !groups)

/-- The tokens of an operand beside an operator. -/
def Tier.beside (operator : Tier) (groups : Bool) (inner : Tier) (tokens : List Token) : List Token :=
  if operator.encloses groups inner then .openGroup :: (tokens ++ [.closeGroup]) else tokens

def Literal.token : Literal → Token
  | .null => .constant .null
  | .bool true => .constant .true
  | .bool false => .constant .false
  | .int n => .number (.int n)
  | .float x => .number (.float x)
  | .str s => .text s

namespace Expr

mutual

/-- The tokens that an expression is written with. Nothing binds looser than an assignment, so that its
value, keys and arguments need no parentheses. -/
def tokens : Expr → List Token
  | .literal value => [value.token]
  | .name var => [.name var]
  | .member target field => Tier.operand.beside true target.tier target.tokens ++ [.dot, .name field]
  | .index target key =>
    Tier.operand.beside true target.tier target.tokens ++ .openIndex :: (key.tokens ++ [.closeIndex])
  | .call function args => .name function :: .openGroup :: (argumentTokens args ++ [.closeGroup])
  | .not operand => .negation .sign :: Tier.negation.beside true operand.tier operand.tokens
  | .compare op left right =>
    Tier.comparison.beside false left.tier left.tokens ++
      .comparison op :: Tier.comparison.beside false right.tier right.tokens
  | .logical op left right =>
    op.tier.beside true left.tier left.tokens ++
      .connective op .sign :: op.tier.beside false right.tier right.tokens
  | .assignMember target field value =>
    Tier.operand.beside true target.tier target.tokens ++ .dot :: .name field :: .assign :: value.tokens
  | .assignIndex target key value =>
    Tier.operand.beside true target.tier target.tokens ++
      .openIndex :: (key.tokens ++ .closeIndex :: .assign :: value.tokens)

/-- The tokens of arguments, with commas between them. -/
def argumentTokens : List Expr → List Token
  | [] => []
  | [e] => e.tokens
  | e :: next :: es => e.tokens ++ .comma :: argumentTokens (next :: es)

end

end Expr

/-- White space between two tokens. -/
structure Gap where
  chars : List Char
  nonempty : chars ≠ []
  blank : ∀ c ∈ chars, c ∈ [' ', '\t', '\r', '\n']

inductive Quotes where
  | single | double
  deriving DecidableEq, Repr

def Quotes.mark : Quotes → Char
  | .single => '\x27'
  | .double => '"'

/-- How a token is written: as a sign or as a word, between which quotes, and what comes behind it. -/
structure Hand where
  spelling : Spelling
  quotes : Quotes
  gap : Gap

/-- One character of a text between quotes. Nothing is escaped but the quote and the backslash. -/
def Quotes.written (quotes : Quotes) (c : Char) : List Char :=
  if c = quotes.mark ∨ c = '\\' then ['\\', c] else [c]

namespace Token

/-- A token with an operator that is spelled in a way, if there is a choice. -/
def respelled (spelling : Spelling) : Token → Token
  | .negation _ => .negation spelling
  | .connective op _ => .connective op spelling
  | token => token

/-- A token as it stands in a rule. -/
def written (hand : Hand) : Token → List Char
  | .text s => hand.quotes.mark :: (s.toList.flatMap hand.quotes.written ++ [hand.quotes.mark])
  | token => (token.respelled hand.spelling).spelled.toList

/-- The text of tokens, each by a hand of its own. -/
def writtenAll (hands : Nat → Hand) : List Token → List Char
  | [] => []
  | [token] => token.written (hands 0)
  | token :: next :: rest =>
    token.written (hands 0) ++ (hands 0).gap.chars ++
      writtenAll (fun i => hands (i + 1)) (next :: rest)

end Token

/-- The rule that stands for an expression. -/
def Expr.print (hands : Nat → Hand) (e : Expr) : String :=
  String.ofList (Token.writtenAll hands e.tokens)

example :
    Expr.print (fun _ => ⟨.word, .double, ⟨[' '], by simp, by simp⟩⟩)
      (.logical .and (.logical .or (.name "user") (.not (.name "x")))
        (.compare .loose (.literal (.int (-12))) (.not (.call "get" [])))) =
      "( user or not x ) and -12 == ( not get ( ) )" := by
  decide

end GuardedStore.Expression
