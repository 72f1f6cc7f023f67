import GuardedStore.Expression.Reason

/-! # Refusals and faults

A refusal is an answer to a request that cannot be carried out: it has a kind, a message and a code.
A fault is whatever ends an operation early: a refusal, a rule that cannot be evaluated, or a value
that an operation cannot work with.
-/

namespace GuardedStore

inductive RefusalKind where
  | service
  /-- A collection or record does not exist. -/
  | notFound
  | request
  /-- A value that must be unique is taken. -/
  | conflict
  | authorization
  /-- The caller is known, or need not be, and may not do this. -/
  | credential
  deriving DecidableEq, Repr

namespace RefusalKind

def status : RefusalKind → Nat
  | .service | .request => 400
  | .notFound => 404
  | .conflict => 409
  | .authorization => 401
  | .credential => 403

/-- The message of a refusal that states none. -/
def defaultMessage : RefusalKind → String
  | .service => "Service Error"
  | .notFound => "Resource not found"
  | .request => "Request error"
  | .conflict => "Resource conflict"
  | .authorization => "Unauthorized"
  | .credential => "Forbidden"

end RefusalKind

structure Report where
  kind : RefusalKind
  message : String
  code : Value
  deriving Repr

/-- A report with a message and a code of its own; without them it has those of its kind. An empty
    message counts as none. -/
def Report.make (kind : RefusalKind) (message : Option String) (code : Option Value) : Report where
  kind
  message := match message with
    | some text => if text.isEmpty then kind.defaultMessage else text
    | none => kind.defaultMessage
  code := code.getD (.int kind.status)

inductive Refusal where
  | collectionMissing (name : String)
  | entryMissing (id : String)
  | collectionNotNamed
  /-- An update or deletion names no record. -/
  | entryNotNamed
  /-- A creation names a record. -/
  | entryNamed
  | filterUnreadable
  /-- A relation to load is not written as it should be. -/
  | relationUnreadable (part : String)
  /-- There is nowhere to load relations from. -/
  | relationsUnavailable
  | pathTooLong
  | bodyUnreadable
  | bodyNotObject
  /-- The body of a request has a wrong shape. -/
  | bodyInvalid (details : String)
  /-- A registration lacks the identity or the password. -/
  | credentialsMissing
  /-- The identity of a registration is taken. -/
  | identityTaken (field : String)
  | loginWrong
  | sessionMissing
  | tokenInvalid
  | unauthorized
  | forbidden
  deriving DecidableEq, Repr

namespace Refusal

def kind : Refusal → RefusalKind
  | .collectionMissing _ | .entryMissing _ => .notFound
  | .collectionNotNamed | .entryNotNamed | .entryNamed | .filterUnreadable | .relationUnreadable _
  | .relationsUnavailable | .pathTooLong | .bodyUnreadable | .bodyNotObject | .bodyInvalid _
  | .credentialsMissing => .request
  | .identityTaken _ => .conflict
  | .unauthorized => .authorization
  | .loginWrong | .sessionMissing | .tokenInvalid | .forbidden => .credential

/-- The message of a refusal, unless its kind says it all. -/
def ownMessage? : Refusal → Option String
  | .collectionMissing name => some s!"Collection does not exist: {name}"
  | .entryMissing id => some s!"Entry does not exist: {id}"
  | .collectionNotNamed => some "Missing collection name"
  | .entryNotNamed => some "Missing entry ID"
  | .entryNamed => some "Use PUT to update records"
  | .filterUnreadable => some "Could not parse WHERE clause, check your syntax."
  | .relationUnreadable part =>
    some s!"Invalid load specifier '{part}', expected prop=idField:collection"
  | .relationsUnavailable => some "Relations cannot be loaded here"
  | .pathTooLong => some "Too many path segments, expected /data/\x7bcollection\x7d/\x7bid\x7d"
  | .bodyUnreadable => some "Request body is not valid JSON"
  | .bodyNotObject => some "Request body must be a JSON object"
  | .bodyInvalid details => some details
  | .credentialsMissing => some "Missing fields"
  | .identityTaken field => some s!"A user with the same {field} already exists"
  | .loginWrong => some "Login or password don't match"
  | .sessionMissing => some "User session does not exist"
  | .tokenInvalid => some "Invalid access token"
  | .unauthorized | .forbidden => none

def report (refusal : Refusal) : Report :=
  .make refusal.kind refusal.ownMessage? none

def message (refusal : Refusal) : String :=
  refusal.report.message

end Refusal

inductive Fault where
  | refused (refusal : Refusal)
  /-- The rule with the source text cannot be read or evaluated. -/
  | ruleFailed (source : String) (reason : Expression.Reason)
  /-- An integer is too large for the binary64 format. -/
  | outOfRange
  /-- What holds itself is compared without end. -/
  | endless
  /-- A filter uses an operator that only looks like one. -/
  | unknownOperator
  /-- A value has a kind that the operation cannot work with. -/
  | wrongKind
  /-- A list or object that holds itself has no text. -/
  | circular
  deriving DecidableEq, Repr

instance : MonadLift (Except Refusal) (Except Fault) where
  monadLift result := result.mapError .refused

instance : MonadLift (Except OutOfRange) (Except Fault) where
  monadLift result := result.mapError fun _ => .outOfRange

end GuardedStore
