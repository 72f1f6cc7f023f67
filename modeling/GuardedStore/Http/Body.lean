import GuardedStore.Account.Credentials
import GuardedStore.Json.Encoding

/-! # Bodies of calls

How the body of a call is read: the payload of a write may be missing, credentials may not.
-/

namespace GuardedStore.Http

/-- The white space of ASCII. -/
def isAsciiBlank (b : UInt8) : Bool :=
  b = 32 || (9 ≤ b && b ≤ 13)

/-- The payload of a write; nothing but blanks stands for no fields. -/
def readPayload (body : List UInt8) : Except Refusal Fields :=
  if body.all isAsciiBlank then .ok []
  else match Json.receive body with
    | .ok (.object fields) => .ok fields
    | .ok _ => .error .bodyNotObject
    | .error _ => .error .bodyUnreadable

/-- Why a body holds no credentials. -/
inductive CredentialsFault where
  /-- The body is no text, or an integer in it has too many digits. -/
  | unreadable
  /-- The body is a text that holds none. -/
  | refused (refusal : Refusal)
  deriving DecidableEq, Repr

/-- The credentials of a registration or login. -/
def readCredentials (body : List UInt8) : Except CredentialsFault Fields :=
  let refuse (details : String) := .error (.refused (.bodyInvalid details))
  if body.isEmpty then refuse "body: Field required"
  else match Json.receive body with
    | .ok (.object fields) => (Account.credentials fields).mapError .refused
    | .ok _ => refuse "body: Input should be a valid dictionary or object to extract fields from"
    | .error (.text (.unexpected offset)) => refuse s!"body.{offset}: JSON decode error"
    | .error (.text (.tooManyDigits _)) | .error .undecodable => .error .unreadable

mutual

/-- A value as it is sent: JSON has no numbers that are not finite, null is sent for them. -/
def sendable : Value → Value
  | .float (.nan _) | .float (.infinity _) => .null
  | .list items => .list (sendableItems items)
  | .object fields => .object (sendableFields fields)
  | v => v

def sendableItems : List Value → List Value
  | [] => []
  | v :: vs => sendable v :: sendableItems vs

def sendableFields : Fields → Fields
  | [] => []
  | (name, v) :: fields => (name, sendable v) :: sendableFields fields

end

end GuardedStore.Http
