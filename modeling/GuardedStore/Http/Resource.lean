import GuardedStore.Text.Split

/-! # Resources

What the paths of the server stand for, and which methods each of them knows.
-/

namespace GuardedStore.Http

inductive Method where
  | get
  | post
  | put
  | patch
  | delete
  /-- A method whose replies have no body. -/
  | head
  | other
  deriving DecidableEq, Repr

def Method.ofName (name : String) : Method :=
  match name.toUpper with
  | "GET" => .get
  | "POST" => .post
  | "PUT" => .put
  | "PATCH" => .patch
  | "DELETE" => .delete
  | "HEAD" => .head
  | _ => .other

inductive Resource where
  | health
  | collections
  /-- The records of a collection, or what is behind it on the path. -/
  | records (collection : String) (behind : List Char)
  | register
  | login
  | logout
  | me
  | manual
  deriving DecidableEq, Repr

namespace Resource

def methods : Resource → List Method
  | .health | .collections | .logout | .me => [.get]
  | .register | .login => [.post]
  | .manual => [.get, .head]
  | .records _ _ => [.get, .post, .put, .patch, .delete]

/-- The resources with a path of their own. -/
def fixed : List (String × Resource) :=
  [("/health", .health), ("/data", .collections), ("/users/register", .register),
    ("/users/login", .login), ("/users/logout", .logout), ("/users/me", .me), ("/docs", .manual),
    ("/docs/oauth2-redirect", .manual), ("/redoc", .manual), ("/openapi.json", .manual)]

/-- A text without a line feed at its end. -/
def dropLineEnd (cs : List Char) : List Char :=
  if cs.getLast? = some '\n' then cs.dropLast else cs

/-- The records that the path behind `/data/` stands for. What is behind the collection has no line
    feed. -/
def recordsOf? (cs : List Char) : Option Resource :=
  match Text.cutAt '/' cs with
  | none => if cs.isEmpty then none else some (.records (String.ofList cs) [])
  | some (collection, behind) =>
    let behind := dropLineEnd behind
    if collection.isEmpty ∨ behind.contains '\n' then none
    else some (.records (String.ofList collection) behind)

/-- The path of the collections with the slash behind it. -/
def recordsStart : List Char := ['/', 'd', 'a', 't', 'a', '/']

/-- The resource of a path. A line feed at its end does not count. -/
def ofPath? (path : List Char) : Option Resource :=
  match fixed.find? (·.1 = String.ofList (dropLineEnd path)) with
  | some (_, resource) => some resource
  | none =>
    if recordsStart.isPrefixOf path then recordsOf? (path.drop recordsStart.length) else none

/-- Whether a path stands for a resource once the slashes at its end are left out. -/
def isNear (path : List Char) : Bool :=
  (ofPath? (path.reverse.dropWhile (· = '/')).reverse).isSome

end Resource

end GuardedStore.Http
