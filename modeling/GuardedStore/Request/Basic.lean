import GuardedStore.Access.Principal
import GuardedStore.Access.RuleSet
import GuardedStore.Query.Shape

/-! # Requests for records

A request reads, creates, updates or deletes records of a collection for a caller. Its answer is
the names of the collections, a number, a record or a list of records.
-/

namespace GuardedStore

structure Request where
  action : Access.Action
  collection : Option String := none
  id : Option String := none
  principal : Option Access.Principal := none
  payload : Fields := []
  query : Query.Parameters := {}
  /-- Lifts the rules for actions, but not those for fields. -/
  override : Bool := false
  /-- An update sets the fields of the payload and keeps the others. -/
  merge : Bool := false
  deriving Repr

namespace Request

inductive Answer where
  | names (names : List String)
  | count (n : Nat)
  | record (record : Record)
  | records (records : List Record)
  deriving Repr, Inhabited

namespace Answer

def toValue : Answer → Value
  | .names list => .list (list.map .str)
  | .count n => .int n
  | .record one => .object one.fields
  | .records list => .list (list.map fun record => .object record.fields)

/-- Whether a list or object of an answer holds itself, so that no value shows all of it. -/
def isCircular : Answer → Bool
  | .names _ | .count _ => false
  | .record one => one.isCircular
  | .records list => list.any (·.isCircular)

end Answer

/-- The collection of a request that must name one. -/
def requireCollection (request : Request) : Except Refusal String :=
  match Query.given? request.collection with
  | some name => .ok name
  | none => .error .collectionNotNamed

/-- The record id of a request that must name one. -/
def requireId (request : Request) : Except Refusal String :=
  match request.id with
  | some id => .ok id
  | none => .error .entryNotNamed

end Request

end GuardedStore
