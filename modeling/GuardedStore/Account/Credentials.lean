import GuardedStore.Account.Service

/-! # Credentials

What is sent to register or to log in: an object of any fields whose password, if it has one, is a
text. Fields without a value do not count.
-/

namespace GuardedStore.Account

def isGiven (v : Value) : Bool :=
  v.kind ≠ .null

/-- The fields of credentials that count, the password first. -/
def credentials (body : Fields) : Except Refusal Fields :=
  let others := (Entries.erase body passwordField).filter fun (_, v) => isGiven v
  match Value.fieldOrNull body passwordField with
  | .null => .ok others
  | .str password => .ok ((passwordField, .str password) :: others)
  | _ => .error (.bodyInvalid "body.password: Input should be a valid string")

end GuardedStore.Account
