import GuardedStore.Access.Enforcement
import GuardedStore.Request.Basic
import GuardedStore.World

/-! # Executing requests

A read takes records out of the store, arranges them, checks the caller against the rules for every
record, shapes what is left and hides the fields that the rules deny. A write checks the rules for
the record as it is and for what is to be written, and then writes what the rules have left.
-/

namespace GuardedStore.Request

open Access (Guarded Lookup)

structure Service where
  rules : Access.RuleSet
  engine : Query.Engine

/-- Runs a check on a heap of its own. -/
def checked {α : Type} (check : Guarded α) : Serve α := fun world =>
  match check.run .empty with
  | .ok a _ => .ok a world
  | .error fault _ => .error fault world

def loadCaller? (principal : Option Access.Principal) : Guarded (Option Access.Caller) :=
  match principal with
  | none => return none
  | some principal => do return some (← Access.loadCaller principal)

/-- Loads what is to be written, if there is anything. -/
def loadPayload? (payload : Option Fields) : Guarded (Option Expression.Slot) :=
  match payload with
  | none => return none
  | some payload => do return some (← Access.loadRecord (.plain payload))

/-- A record after the check for reading it, and the fields that are denied. -/
structure Gated where
  record : Record
  denied : List String
  deriving Repr, Inhabited

def redact (record : Record) (denied : List String) : Record :=
  record.without denied

/-- Checks the reading of loaded records, one after another. -/
def gateSlots (service : Service) (lookup : Lookup) (request : Request)
    (caller : Option Access.Caller) : List Expression.Slot → Guarded (List (List String))
  | [] => return []
  | slot :: rest => do
    let denied ← Access.enforce service.rules lookup
      { action := .read, collection := request.collection, caller, data := slot, newData := none,
        override := request.override }
    return denied :: (← gateSlots service lookup request caller rest)

def loadRecords : List Record → Guarded (List Expression.Slot)
  | [] => return []
  | record :: rest => do
    let slot ← Access.loadRecord record
    return slot :: (← loadRecords rest)

/-- Checks the reading of records. The rules may change the records; all of them share one heap. -/
def gateRecords (service : Service) (lookup : Lookup) (request : Request)
    (records : List Record) : Guarded (List Gated) := do
  let caller ← loadCaller? request.principal
  let slots ← loadRecords records
  let denied ← gateSlots service lookup request caller slots
  let heap ← get
  return List.zipWith (fun slot denied => ⟨heap.readRecord slot, denied⟩) slots denied

/-- Checks an action that is not a read: on a record as it is, with what is to be written. The
    result is what is left of that. -/
def gateWrite (service : Service) (lookup : Lookup) (request : Request) (existing : Record)
    (payload : Option Fields) : Guarded Record := do
  let caller ← loadCaller? request.principal
  let data ← Access.loadRecord existing
  let newData ← loadPayload? payload
  let _ ← Access.enforce service.rules lookup
    { action := request.action, collection := request.collection, caller, data, newData,
      override := request.override }
  let heap ← get
  return match newData with
    | none => .plain []
    | some slot => heap.readRecord slot

/-- How relations find records: users among the accounts, all else among the records. -/
def fetchRelated (service : Service) (world : World) : Query.Fetch := fun collection id =>
  (if collection = service.engine.identityCollection then world.accounts else world.records).find
    collection id

/-- The names of the collections, for a caller who may read at all. -/
def listCollections (service : Service) (request : Request) : Serve Answer := do
  let world ← get
  let _ ← checked (gateRecords service (Access.lookupIn world.records)
    { request with collection := none } [.plain []])
  return .names world.records.collectionNames

/-- Records of a collection that a filter selects, or all of them. -/
def readMany (service : Service) (request : Request) (name : String) : Serve Answer := do
  let world ← get
  let all ← Serve.orRefuse (world.records.all name)
  let arranged ← Serve.ofExcept (service.engine.arrange all request.query)
  let gated ← checked (gateRecords service (Access.lookupIn world.records) request arranged)
  if request.query.wantsCount then return .count gated.length
  let shaped ← Serve.ofExcept
    (service.engine.shape (fetchRelated service world) request.query (gated.map (·.record)))
  return .records (List.zipWith redact shaped (gated.map (·.denied)))

def readOne (service : Service) (request : Request) (name id : String) : Serve Answer := do
  let world ← get
  let record ← Serve.orRefuse (world.records.find name id)
  let gated ← checked (gateRecords service (Access.lookupIn world.records) request [record])
  let shaped ← Serve.ofExcept
    (service.engine.shape (fetchRelated service world) request.query (gated.map (·.record)))
  return .record ((List.zipWith redact shaped (gated.map (·.denied))).head?.getD default)

/-- Reads the collections, a collection or a record. A filter selects among all records, also when
    an id is given. -/
def read (service : Service) (request : Request) : Serve Answer :=
  match Query.given? request.collection with
  | none => listCollections service request
  | some name =>
    match Query.given? request.query.filter, request.id with
    | none, some id => readOne service request name id
    | _, _ => readMany service request name

def create (service : Service) (request : Request) : Serve Answer := do
  let name ← Serve.orRefuse request.requireCollection
  if request.id.isSome then throw (.refused .entryNamed)
  let world ← get
  let lookup := Access.lookupIn world.records
  let payload ← checked (gateWrite service lookup request (.plain []) (some request.payload))
  let owner := request.principal.map (·.id)
  return .record (← Serve.keepRecords (world.records.add world.supply name payload owner))

def update (service : Service) (request : Request) : Serve Answer := do
  let name ← Serve.orRefuse request.requireCollection
  let id ← Serve.orRefuse request.requireId
  let world ← get
  let existing ← Serve.orRefuse (world.records.find name id)
  let lookup := Access.lookupIn world.records
  let payload ← checked (gateWrite service lookup request existing (some request.payload))
  let write := if request.merge then world.records.merge else world.records.replace
  return .record (← Serve.keepRecords (← Serve.orRefuse (write world.supply name id payload)))

def delete (service : Service) (request : Request) : Serve Answer := do
  let name ← Serve.orRefuse request.requireCollection
  let id ← Serve.orRefuse request.requireId
  let world ← get
  let existing ← Serve.orRefuse (world.records.find name id)
  let _ ← checked (gateWrite service (Access.lookupIn world.records) request existing none)
  return .record
    (← Serve.keepRecords (← Serve.orRefuse (world.records.delete world.supply name id)))

def execute (service : Service) (request : Request) : Serve Answer :=
  match request.action with
  | .read => read service request
  | .create => create service request
  | .update => update service request
  | .delete => delete service request

end GuardedStore.Request
