import GuardedStore.Access.Principal
import GuardedStore.Access.Resolution
import GuardedStore.Expression.Evaluation

/-! # Enforcing rules

An action is checked against its rule, then every field that has a rule. A list of roles refuses an
unknown caller as unauthorized, any other denial is forbidden; an override lifts both, but not the
rules for fields. A write loses the fields that are denied.

Rules run on a heap that holds the record, the new record and the attributes of the caller, so that
what one rule changes the next one sees.
-/

namespace GuardedStore.Access

open Expression (Heap Slot)

/-- A known caller whose attributes are loaded into a heap. -/
structure Caller where
  id : String
  attributes : Entries Slot
  deriving Repr, Inhabited

structure Attempt where
  action : Action
  collection : Option String
  caller : Option Caller
  data : Slot
  newData : Option Slot
  override : Bool

/-- A computation on the heap that may end early. -/
abbrev Guarded := EStateM Fault Heap

abbrev Lookup := String → Option String → Except String Expression.Found

def lookupIn (store : Store) : Lookup := fun collection id =>
  let found : Except Refusal Expression.Found := match id with
    | some id => (store.find collection id).map .record
    | none => (store.all collection).map .records
  found.mapError Refusal.message

def loadCaller (principal : Principal) : Guarded Caller := do
  let (attributes, heap) := (← get).loadFields principal.attributes
  set heap
  return ⟨principal.id, attributes⟩

def loadRecord (record : Record) : Guarded Slot := do
  let (slot, heap) := (← get).loadRecord record
  set heap
  return slot

/-- The field of the record in a slot, null when it is missing. -/
def readField (record : Slot) (name : String) : Guarded Value := do
  let heap ← get
  return match heap.fields? record with
    | some fields => ((Entries.get? fields name).map heap.read).getD .null
    | none => .null

/-- Whether the rule with a source text is true. -/
def holds (scope : Expression.Scope) (source : String) : Guarded Bool := fun heap =>
  match Expression.evaluateSource scope source heap with
  | .ok slot heap => .ok (Expression.truthySlot slot) heap
  | .error (.failed reason) heap => .error (.ruleFailed source reason) heap
  | .error .outOfRange heap => .error .outOfRange heap
  | .error .endless heap => .error .endless heap

def callerOwns (caller : Caller) (data : Slot) : Guarded Bool := do
  match Principal.ownsOwner caller.id (← readField data ownerField) with
  | .ok owns => return owns
  | .error _ => throw .outOfRange

def rolesAllowAction (roles : List Role) (attempt : Attempt) : Guarded Bool := do
  if roles.contains .guest then return true
  match attempt.caller with
  | none =>
    if attempt.override then return roles.contains .user else throw (.refused .unauthorized)
  | some caller =>
    if roles.contains .user then return true
    if roles.contains .owner then callerOwns caller attempt.data else return false

def allowsAction (rule : Rule) (scope : Expression.Scope) (attempt : Attempt) : Guarded Bool :=
  match rule with
  | .unset => return false
  | .flag allowed => return allowed
  | .expression source => holds scope source
  | .roles roles => rolesAllowAction roles attempt

def rolesAllowField (roles : List Role) (attempt : Attempt) : Guarded Bool := do
  if roles.contains .guest then return true
  match attempt.caller with
  | none => return false
  | some caller =>
    if roles.contains .user then return true
    if roles.contains .owner then callerOwns caller attempt.data else return false

def allowsField (rule : Rule) (scope : Expression.Scope) (attempt : Attempt) : Guarded Bool :=
  match rule with
  | .unset => return true
  | .flag allowed => return allowed
  | .expression source => holds scope source
  | .roles roles => rolesAllowField roles attempt

def dropField (attempt : Attempt) (name : String) : Guarded Unit :=
  match attempt.newData with
  | some newData =>
    if attempt.action.isWrite then
      modify fun heap => heap.modifyFields newData fun fields => Entries.erase fields name
    else return ()
  | none => return ()

/-- The fields whose rules deny them, in order. -/
def deniedFields (scope : Expression.Scope) (attempt : Attempt) :
    List (String × Rule) → Guarded (List String)
  | [] => return []
  | (name, rule) :: rest => do
    if ← allowsField rule scope attempt then deniedFields scope attempt rest
    else
      dropField attempt name
      return name :: (← deniedFields scope attempt rest)

/-- The id by which the rules for a record are looked up. Only texts name records; a list or an
    object cannot be looked up at all. -/
def recordKey (ruleSet : RuleSet) (collection : Option String) (id : Value) :
    Except Fault (Option String) :=
  match id with
  | .str id => .ok (some id)
  | .list (_ :: _) | .object (_ :: _) =>
    if (ruleSet.group? collection).isSome then .error .wrongKind else .ok none
  | _ => .ok none

/-- What the rules see of an attempt. -/
def openScope (lookup : Lookup) (attempt : Attempt) : Guarded Expression.Scope := do
  let user ← match attempt.caller with
    | none => pure (.plain .null)
    | some caller => do
      let fields := Entries.set caller.attributes idField (.plain (.str caller.id))
      let (slot, heap) := (← get).alloc (.object fields)
      set heap
      pure slot
  return { user, data := attempt.data, newData := attempt.newData.getD (.plain .null), lookup }

/-- Checks an attempt and names the fields that are denied. -/
def enforce (ruleSet : RuleSet) (lookup : Lookup) (attempt : Attempt) : Guarded (List String) := do
  match recordKey ruleSet attempt.collection (← readField attempt.data idField) with
  | .error fault => throw fault
  | .ok id =>
    let resolved := ruleSet.resolve attempt.action attempt.collection id
    let scope ← openScope lookup attempt
    let allowed ← allowsAction resolved.rule scope attempt
    if !allowed && !attempt.override then throw (.refused .forbidden)
    deniedFields scope attempt resolved.fields

end GuardedStore.Access
