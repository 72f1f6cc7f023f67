import GuardedStore.Access.Principal
import GuardedStore.Digest.Keyed
import GuardedStore.World

/-! # Accounts

Users register with an identity and a password and then log in and out. Every login opens a session,
whose access token is the keyed hash of the session's id; the token stands for its user until the
session is closed. Users and sessions are records of the store of accounts.
-/

namespace GuardedStore.Account

open Access (Principal)

def sessionCollection : String := "sessions"

/-- The field that holds the access token of a session. -/
def tokenField : String := "accessToken"

/-- The field of a session that holds the id of its user. -/
def userIdField : String := "userId"

def passwordField : String := "password"

structure Service where
  hasher : Hasher
  /-- The field that tells users apart. -/
  identityField : String := "email"
  userCollection : String := "users"

/-- The records of a collection that have the expected fields; none when there is no collection. -/
def find (collection : String) (expected : Fields) : Serve (List Record) := do
  match (← get).accounts.query collection expected with
  | .ok records => return records
  | .error (.refused (.collectionMissing _)) => return []
  | .error fault => throw fault

/-- The id of a record that a store has handed out. -/
def idOf (record : Record) : String :=
  (record.value idField).asName

/-- Opens a session for a user. The answer is the user without the password hash, with the access
    token. -/
def openSession (service : Service) (user : Record) : Serve Fields := do
  let world ← get
  let session ← Serve.keepAccounts (world.accounts.add world.supply sessionCollection
    (.plain [(userIdField, user.value idField)]) none)
  let token := service.hasher (idOf session)
  let world ← get
  let _ ← Serve.keepAccounts (← Serve.orRefuse (world.accounts.replace world.supply
    sessionCollection (idOf session) (session.set tokenField (.str token))))
  return Entries.set (Entries.erase user.fields passwordHashField) tokenField (.str token)

/-- Whether a value counts as not given. -/
def isBlankValue (v : Value) : Bool :=
  match v with
  | .null => true
  | .str s => s.isEmpty
  | _ => false

/-- The record of a new user: the fields of a request, with the hash of the password in place of the
    password. -/
def newUser (service : Service) (body : Fields) : Fields :=
  let password := Value.fieldOrNull body passwordField
  Entries.set (Entries.erase body passwordField) passwordHashField
    (.str (service.hasher password.asName))

def register (service : Service) (body : Fields) : Serve Fields := do
  let identity := Value.fieldOrNull body service.identityField
  if isBlankValue identity || isBlankValue (Value.fieldOrNull body passwordField) then
    throw (.refused .credentialsMissing)
  let others ← find service.userCollection [(service.identityField, identity)]
  if !others.isEmpty then throw (.refused (.identityTaken service.identityField))
  let world ← get
  let user ← Serve.keepAccounts
    (world.accounts.add world.supply service.userCollection (.plain (newUser service body)) none)
  openSession service user

/-- Whether a user has a password. A user without a hash has none; a hash that is no text cannot be
    compared. -/
def passwordMatches (service : Service) (user : Record) (password : Value) : Except Fault Bool :=
  match (Entries.get? user.fields passwordHashField).getD (.str "") with
  | .str digest => service.hasher.verify password.asName digest
  | _ => .error .wrongKind

/-- Opens a session for the only user with the identity and the password of a request. -/
def login (service : Service) (body : Fields) : Serve Fields := do
  let identity := Value.fieldOrNull body service.identityField
  let users ← find service.userCollection [(service.identityField, identity)]
  match users, Value.fieldOrNull body passwordField with
  | [user], password =>
    if password.kind = .null then throw (.refused .loginWrong)
    if ← Serve.ofExcept (passwordMatches service user password) then openSession service user
    else throw (.refused .loginWrong)
  | _, _ => throw (.refused .loginWrong)

def deleteSessions : List Record → Serve Unit
  | [] => return ()
  | session :: rest => do
    let world ← get
    let _ ← Serve.keepAccounts (← Serve.orRefuse
      (world.accounts.delete world.supply sessionCollection (idOf session)))
    deleteSessions rest

/-- Closes the session of a user that has a token. -/
def logout (principal : Option Principal) (token : Option String) : Serve Unit := do
  match principal, token with
  | some principal, some token =>
    deleteSessions (← find sessionCollection
      [(tokenField, .str token), (userIdField, .str principal.id)])
  | _, _ => throw (.refused .sessionMissing)

def me (principal : Option Principal) : Serve Fields :=
  match principal with
  | some principal => return principal.record
  | none => throw (.refused .unauthorized)

/-- The principal behind a token. Without a token there is none; a token without a session, or whose
    user is gone, is refused. -/
def resolve (service : Service) (token : Option String) : Serve (Option Principal) := do
  match token with
  | none => return none
  | some token =>
    match ← find sessionCollection [(tokenField, .str token)] with
    | [] => throw (.refused .tokenInvalid)
    | session :: _ =>
      let userId := (session.value userIdField).asName
      match (← get).accounts.find service.userCollection userId with
      | .ok user => return some (.ofUser (idOf user) user)
      | .error _ => throw (.refused .tokenInvalid)

end GuardedStore.Account
