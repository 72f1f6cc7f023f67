import GuardedStore.Text.Quoted
import GuardedStore.Value.Comparison
import GuardedStore.Value.Literal

/-! # Why a rule fails

The causes for which a rule expression cannot be read or evaluated, and their wording.
-/

namespace GuardedStore.Expression

/-- Why a rule cannot be read or evaluated. -/
inductive Reason where
  /-- No token starts at an offset; the text from there on is given. -/
  | unexpectedCharacter (offset : Nat) (rest : String)
  /-- An integer has too many digits. -/
  | tooManyDigits (count : Nat)
  /-- A token, given as it is shown, stands where it may not. -/
  | unexpectedToken (shown : String) (offset : Nat)
  | unexpectedEnd
  /-- Something else than a field of `data` or `newData` is assigned. -/
  | notAssignable
  /-- Something else than a name is called. -/
  | notCallable
  | undefinedName (var : String)
  | undefinedFunction (function : String)
  | argumentCount (function : String) (count : Nat)
  | readsNull (key : String)
  /-- A property of a value without properties of its own is set. -/
  | setsProperty (key : String) (kind : Kind)
  /-- A record that a rule asks for is not there; the refusal is given. -/
  | lookupFailed (collection id message : String)
  deriving DecidableEq, Repr

/-- The word for a kind of value that cannot have its fields set. -/
def kindWord : Kind → String
  | .null => "null"
  | .bool => "bool"
  | .int => "int"
  | .float => "float"
  | .str => "str"
  | .list => "list"
  | .object => "dict"

/-- How many characters of an unreadable text are shown. -/
def shownCharacters : Nat := 10

/-- The wording of a reason. A wrong number of arguments is reported without one. -/
def Reason.message? : Reason → Option String
  | .unexpectedCharacter offset rest =>
    let shown := Text.quote (String.ofList (rest.toList.take shownCharacters))
    some s!"unexpected character at {offset}: {shown}"
  | .tooManyDigits count => some (Numeral.tooManyDigits count)
  | .unexpectedToken shown offset => some s!"unexpected token {shown} at {offset}"
  | .unexpectedEnd => some "unexpected end of expression"
  | .notAssignable => some "only fields of data or newData can be assigned"
  | .notCallable => some "only named functions can be called"
  | .undefinedName var => some s!"{var} is not defined"
  | .undefinedFunction function => some s!"{function} is not a function"
  | .argumentCount _ _ => none
  | .readsNull key => some s!"cannot read property '{key}' of null"
  | .setsProperty key kind =>
    let word := kindWord kind
    some s!"cannot set property '{key}' of {word}"
  | .lookupFailed collection id message => some s!"get('{collection}', '{id}'): {message}"

/-- The wording of the failure of a rule, which names its source text. -/
def failureMessage? (source : String) (reason : Reason) : Option String :=
  reason.message?.map fun message => s!"Rule '{source}' failed: {message}"

end GuardedStore.Expression
