import GuardedStore.Access.RulesFile
import GuardedStore.Http.Body
import GuardedStore.Http.Resource
import GuardedStore.Http.Target
import GuardedStore.Request.Execution
import GuardedStore.Seed
import GuardedStore.Settings

/-! # The server

A server is started from its settings and the texts of its files, and then answers one call after
another. A call is answered by the resource that its path stands for. What goes wrong is reported
with the status of its kind; what nobody has foreseen is reported as status 500, also where a call
was carried out and there is no text for the body of its reply.
-/

namespace GuardedStore.Http

structure Call where
  method : Method
  target : Target
  /-- The values of the headers in Latin-1. -/
  headers : List (String × List UInt8) := []
  body : List UInt8 := []
  /-- Whether there is a text for the body of a reply. There is none for half of a surrogate pair;
      one that was read is kept as the replacement character, so that every call says for itself
      which bodies hold one. -/
  renders : Value → Bool := fun _ => true

/-- What a call is answered with: a status, and a body unless it is empty. -/
structure Reply where
  status : Nat
  body : Option Value
  deriving Repr, Inhabited

/-- What the answers of a server depend on, besides its state. -/
structure Server where
  settings : Settings
  requests : Request.Service
  accounts : Account.Service

inductive RulesSource where
  /-- There are none but the built-in ones. -/
  | builtIn
  | mapping (entries : List (Datum × Datum))
  | file (name text : String)
  deriving Repr

def RulesSource.read : RulesSource → Except Access.InvalidRulesFile Access.RuleSet
  | .builtIn => .mapError .invalid Access.RuleSet.builtIn
  | .mapping entries => .mapError .invalid (Access.RuleSet.ofEntries entries)
  | .file name text => Access.RuleSet.ofFile name text

/-- The files that a server starts from. -/
structure Sources where
  /-- The names and texts of the files of collections. -/
  records : List (String × String) := []
  /-- The name and the text of the file of accounts. -/
  accounts : Option (String × String) := none
  rules : RulesSource := .builtIn
  deriving Repr

inductive StartFault where
  | seed (fault : Seed.SeedFault)
  | rules (fault : Access.InvalidRulesFile)
  deriving Repr

namespace Server

def make (settings : Settings) (rules : Access.RuleSet) : Server where
  settings
  requests :=
    { rules
      engine :=
        { identityCollection := settings.identityCollection
          defaultPageSize := settings.defaultPageSize } }
  accounts :=
    { hasher := Keyed.hasher settings.hashSecret
      identityField := settings.identityField
      userCollection := settings.identityCollection }

/-- Starts a server: the records are read first, then the accounts and last the rules. -/
def start (settings : Settings) (sources : Sources) (supply : Supply) :
    Except StartFault (Server × World) := do
  let records ← (Seed.ofDirectory "" sources.records).mapError .seed
  let accounts ← match sources.accounts with
    | none => pure []
    | some (name, text) => (Seed.ofFile name text).mapError .seed
  let rules ← sources.rules.read.mapError .rules
  return (make settings rules,
    { records := Store.ofSnapshot records, accounts := Store.ofSnapshot accounts, supply })

end Server

def tokenHeader : String := "x-authorization"

/-- The header whose presence lifts the rules for actions. -/
def overrideHeader : String := "x-admin"

def latinText (bytes : List UInt8) : String :=
  String.ofList (bytes.map fun b => Char.ofNat b.toNat)

namespace Call

/-- The value of the first header of a name, which counts in any case. -/
def header? (call : Call) (name : String) : Option String :=
  (call.headers.find? (·.1.toLower = name)).map fun (_, value) => latinText value

def token? (call : Call) : Option String :=
  call.header? tokenHeader

/-- Whether a call lifts the rules for actions. -/
def override (call : Call) : Bool :=
  (call.header? overrideHeader).isSome

def query (call : Call) : Query.Parameters :=
  .ofEntries (Entries.ofPairs call.target.parameters)

end Call

namespace Reply

def ok (body : Value) : Reply where
  status := 200
  body := some (sendable body)

def empty (status : Nat) : Reply where
  status
  body := none

/-- A reply from the surroundings of the resources. -/
def detail (status : Nat) (text : String) : Reply where
  status
  body := some (.object [("detail", .str text)])

def error (status : Nat) (code : Value) (message : String) : Reply where
  status
  body := some (.object [("code", code), ("message", .str message)])

/-- The reply where something unforeseen went wrong. -/
def serverError : Reply :=
  error 500 (.int 500) "Server Error"

/-- The reply to a call that ends with a fault. -/
def ofFault : Fault → Reply
  | .refused refusal =>
    error refusal.kind.status refusal.report.code refusal.report.message
  | _ => serverError

end Reply

/-- A reply as it is sent. -/
def Call.rendered (call : Call) (reply : Reply) : Reply :=
  match reply.body with
  | some body => if call.renders body then reply else .serverError
  | none => reply

/-- The record id of a path behind a collection; empty parts do not count. -/
def recordId (behind : List Char) : Except Refusal (Option String) :=
  match (Text.splitWhere (· = '/') behind).filter (!·.isEmpty) with
  | [] => .ok none
  | [id] => .ok (some (String.ofList id))
  | _ => .error .pathTooLong

def Method.action : Method → Access.Action
  | .post => .create
  | .put | .patch => .update
  | .delete => .delete
  | _ => .read

/-- Whether the body of a method on records is a payload. -/
def Method.hasPayload : Method → Bool
  | .post | .put | .patch => true
  | _ => false

namespace Server

def principal (server : Server) (call : Call) : Serve (Option Access.Principal) :=
  Account.resolve server.accounts call.token?

def health (server : Server) : Serve Reply := do
  let count : Int := (← get).records.collectionNames.length
  return .ok (.object
    [("status", .str "healthy"), ("version", .str server.settings.version),
      ("environment", .str server.settings.environment), ("collections", .int count)])

def collections (server : Server) (call : Call) : Serve Reply := do
  let principal ← server.principal call
  let answer ← Request.execute server.requests
    { action := .read, principal, override := call.override }
  return .ok answer.toValue

/-- Reads or writes records. The caller is known before the path and the body are looked at. What has
    been written stays written when the answer holds itself and cannot be sent. -/
def records (server : Server) (call : Call) (collection : String) (behind : List Char) :
    Serve Reply := do
  let principal ← server.principal call
  let id ← Serve.orRefuse (recordId behind)
  let payload ←
    if call.method.hasPayload then Serve.orRefuse (readPayload call.body) else pure []
  let answer ← Request.execute server.requests
    { action := call.method.action, collection := some collection, id, principal, payload
      query := call.query, override := call.override, merge := call.method = .patch }
  if answer.isCircular then throw .circular
  return .ok answer.toValue

/-- Answers a call whose body holds credentials. -/
def withCredentials (call : Call) (run : Fields → Serve Fields) : Serve Reply :=
  match readCredentials call.body with
  | .ok body => do return .ok (.object (← run body))
  | .error .unreadable => return .detail 400 "There was an error parsing the body"
  | .error (.refused refusal) => throw (.refused refusal)

/-- Answers a call to a resource with a method that it knows. -/
def serve (server : Server) (call : Call) : Resource → Serve Reply
  | .health => server.health
  | .collections => server.collections call
  | .records collection behind => server.records call collection behind
  | .register => withCredentials call (Account.register server.accounts)
  | .login => withCredentials call (Account.login server.accounts)
  | .logout => do
    Account.logout (← server.principal call) call.token?
    return .empty 204
  | .me => do
    return .ok (.object (← Account.me (← server.principal call)))
  | .manual => return .empty 200

/-- Answers a call that may have a body in its reply. Where only slashes at the end of the path are
    too many, the caller is sent on. -/
def reply (server : Server) (call : Call) (world : World) : Reply × World :=
  match Resource.ofPath? call.target.path with
  | none =>
    (if Resource.isNear call.target.path then .empty 307 else .detail 404 "Not Found", world)
  | some resource =>
    if resource.methods.contains call.method then
      match (server.serve call resource).run world with
      | .ok reply world => (reply, world)
      | .error fault world => (.ofFault fault, world)
    else (.detail 405 "Method Not Allowed", world)

/-- Answers a call. What was done stays done when there is no text for the reply. A call for the head
    of a reply gets no body. -/
def answer (server : Server) (call : Call) (world : World) : Reply × World :=
  let (reply, world) := server.reply call world
  let reply := call.rendered reply
  (if call.method = .head then { reply with body := none } else reply, world)

def answerAll (server : Server) : List Call → World → List Reply × World
  | [], world => ([], world)
  | call :: calls, world =>
    let (reply, world) := server.answer call world
    let (replies, world) := answerAll server calls world
    (reply :: replies, world)

end Server

end GuardedStore.Http
