import GuardedStore.Query.Arrangement
import GuardedStore.Store.Basic

/-! # Shaping records

The records of an answer are cut to the selected fields and then get the records that they refer
to, one relation after another.
-/

namespace GuardedStore.Query

/-- How related records are found by collection and id. -/
abbrev Fetch := String → String → Except Refusal Record

/-- The record that a record refers to. The records of users come without the password hash. -/
def Engine.related (engine : Engine) (fetch : Fetch) (relation : Relation) (id : Value) :
    Except Fault Record := do
  let related ← (fetch relation.collection id.plainText : Except Refusal Record)
  return if relation.collection = engine.identityCollection then related.erase passwordHashField
    else related

/-- Attaches the record that a record refers to; null when it refers to none. What holds itself is no
    reference. -/
def Engine.attach (engine : Engine) (fetch : Fetch) (relation : Relation) (record : Record) :
    Except Fault Record :=
  if record.isCircularAt relation.idField then .error .circular
  else
    match record.value relation.idField with
    | .null => .ok (record.set relation.field .null)
    | id => do return record.embed relation.field (← engine.related fetch relation id)

def Engine.attachAll (engine : Engine) (fetch : Fetch) (relation : Relation) :
    List Record → Except Fault (List Record)
  | [] => .ok []
  | record :: rest => do
    let record ← engine.attach fetch relation record
    return record :: (← engine.attachAll fetch relation rest)

/-- Attaches the records of relations, one relation after another. -/
def Engine.attachRelations (engine : Engine) (fetch : Fetch) (records : List Record) :
    List Relation → Except Fault (List Record)
  | [] => .ok records
  | relation :: rest => do
    let records ← engine.attachAll fetch relation records
    engine.attachRelations fetch records rest

/-- The records after selection and relations. Without a way to fetch records no relation can be
    loaded. -/
def Engine.shape (engine : Engine) (fetch : Option Fetch) (parameters : Parameters)
    (records : List Record) : Except Fault (List Record) :=
  let selected := match given? parameters.select with
    | some text => records.map (·.only (listItems (some text)))
    | none => records
  match given? parameters.load with
  | none => .ok selected
  | some text =>
    match fetch with
    | none => .error (.refused .relationsUnavailable)
    | some fetch => do
      let relations ← (Relation.ofParameter (some text) : Except Refusal (List Relation))
      engine.attachRelations fetch selected relations

end GuardedStore.Query
