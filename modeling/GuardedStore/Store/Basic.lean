import GuardedStore.Refusal
import GuardedStore.Store.Table
import GuardedStore.Text.Case
import GuardedStore.Value.Record

/-! # The record store

A store holds collections of records under ids, both in insertion order. A stored record is held
without its id; what a store hands out carries it in the field `_id`. Four fields belong to the
store: callers never set `_id`, `_createdOn`, `_updatedOn` and `_ownerId`.

Ids and times come from a supply, so that a write is a function of the store, the supply and its
arguments. A write that fails leaves no store and no supply behind: the caller keeps the old ones.
-/

namespace GuardedStore

/-- The field that holds the id of a record that a store hands out. -/
def idField : String := "_id"

/-- The field that holds the id of the user whom a record belongs to. -/
def ownerField : String := "_ownerId"

/-- The field that holds when a record was added. -/
def createdField : String := "_createdOn"

/-- The field that holds when a record was last changed. -/
def updatedField : String := "_updatedOn"

def deletedField : String := "_deletedOn"

/-- The field of a user that holds the hash of the password. -/
def passwordHashField : String := "hashedPassword"

def systemFields : List String := [idField, createdField, updatedField, ownerField]

/-- The fields of a record that belong to its writer. -/
def withoutSystemFields (record : Record) : Record :=
  record.without systemFields

/-- The system fields of a record, in the order of `systemFields`. -/
def systemPart (record : Record) : Record :=
  record.only systemFields

/-- Where new ids and times come from: first the queued ids, then the fresh ones from `serial` on;
    and a clock that ticks with every reading. -/
structure Supply where
  queued : List String
  fresh : Nat → String
  serial : Nat
  clock : Int

namespace Supply

def tick (supply : Supply) : Int × Supply :=
  (supply.clock, { supply with clock := supply.clock + 1 })

/-- Draws fresh ids until one is not taken; at most `fuel` of them are passed over. -/
def drawFresh (taken : String → Bool) : Nat → Supply → String × Supply
  | 0, supply => (supply.fresh supply.serial, { supply with serial := supply.serial + 1 })
  | fuel + 1, supply =>
    let id := supply.fresh supply.serial
    let supply := { supply with serial := supply.serial + 1 }
    if taken id then drawFresh taken fuel supply else (id, supply)

/-- Draws ids until one is not among the taken ones. Of different fresh ids, at most as many as are
    taken can be passed over. -/
def drawId (supply : Supply) (taken : List String) : String × Supply :=
  match supply.queued.dropWhile taken.contains with
  | id :: queued => (id, { supply with queued })
  | [] => drawFresh taken.contains taken.length { supply with queued := [] }

end Supply

/-- A collection: records without their ids, under their ids. -/
abbrev Collection := Table Record

def withId (id : String) (record : Record) : Record :=
  record.set idField (.str id)

structure Store where
  collections : Table Collection
  deriving Repr, Inhabited

abbrev Snapshot := List (String × List (String × Fields))

namespace Store

def empty : Store := ⟨.empty⟩

def plainRecords (records : List (String × Fields)) : Entries Record :=
  records.map fun (id, fields) => (id, .plain fields)

/-- Adds the records of a snapshot, each replacing the one with its id. -/
def load (store : Store) (snapshot : Snapshot) : Store :=
  snapshot.foldl
    (fun store (name, records) =>
      let collection := (store.collections.get? name).getD .empty
      ⟨store.collections.set name (collection.overlay (plainRecords records))⟩)
    store

def ofSnapshot (snapshot : Snapshot) : Store :=
  empty.load snapshot

def collectionNames (store : Store) : List String :=
  store.collections.names

/-- A collection, which must exist. -/
def collection (store : Store) (name : String) : Except Refusal Collection :=
  match store.collections.get? name with
  | some collection => .ok collection
  | none => .error (.collectionMissing name)

/-- The stored form of a record, which must exist. -/
def stored (store : Store) (name id : String) : Except Refusal Record := do
  match (← store.collection name).get? id with
  | some record => return record
  | none => throw (.entryMissing id)

def all (store : Store) (name : String) : Except Refusal (List Record) := do
  return (← store.collection name).entries.map fun (id, record) => withId id record

def find (store : Store) (name id : String) : Except Refusal Record := do
  return withId id (← store.stored name id)

/-- Whether a value of a record is the expected one: texts are compared without regard to case, all
    else by loose equality. -/
def matchesValue (expected actual : Value) : Except OutOfRange Bool :=
  match expected, actual with
  | .str a, .str b => .ok (Text.foldCase a = Text.foldCase b)
  | _, _ => Value.looseEquals expected actual

/-- Whether a stored record has every expected field with the expected value. What holds itself is never
    expected. -/
def matchesFields (record : Record) : Fields → Except OutOfRange Bool
  | [] => .ok true
  | (name, expected) :: rest =>
    match Entries.get? record.fields name with
    | none => .ok false
    | some actual => do
      if record.isCircularAt name then return false
      if ← matchesValue expected actual then matchesFields record rest else return false

/-- The entries that pass a test which may fail. -/
def filterEntries (test : Record → Except OutOfRange Bool) :
    Entries Record → Except OutOfRange (Entries Record)
  | [] => .ok []
  | (id, record) :: rest => do
    let passes ← test record
    let rest ← filterEntries test rest
    return if passes then (id, record) :: rest else rest

/-- The records of a collection that have the expected fields. -/
def query (store : Store) (name : String) (expected : Fields) : Except Fault (List Record) := do
  let collection ← (store.collection name : Except Refusal Collection)
  let entries ← filterEntries (matchesFields · expected) collection.entries
  return entries.map fun (id, record) => withId id record

/-- What a write leaves: the record as it is handed out, the store and the supply. -/
structure Written where
  record : Record
  store : Store
  supply : Supply

def put (store : Store) (name id : String) (record : Record) : Store :=
  let collection := (store.collections.get? name).getD .empty
  ⟨store.collections.set name (collection.set id record)⟩

/-- The record that is added at a time for some data. -/
def newRecord (data : Record) (owner : Option String) (time : Int) : Record :=
  let owned : Fields := match owner with
    | some owner => [(ownerField, .str owner)]
    | none => []
  ((Record.plain owned).overlay (withoutSystemFields data)).set createdField (.int time)

/-- The record that takes the place of a record at a time. -/
def replacedRecord (existing data : Record) (time : Int) : Record :=
  ((withoutSystemFields data).overlay (systemPart existing)).set updatedField (.int time)

/-- The record that is left of a record whose fields are set at a time. -/
def mergedRecord (existing data : Record) (time : Int) : Record :=
  (existing.overlay (withoutSystemFields data)).set updatedField (.int time)

/-- Adds a record under a new id, creating the collection when it is missing. -/
def add (store : Store) (supply : Supply) (name : String) (data : Record)
    (owner : Option String) : Written :=
  let taken := ((store.collections.get? name).getD .empty).names
  let (id, supply) := supply.drawId taken
  let (time, supply) := supply.tick
  let record := newRecord data owner time
  ⟨withId id record, store.put name id record, supply⟩

/-- Replaces the fields of a record, its system fields apart. -/
def replace (store : Store) (supply : Supply) (name id : String) (data : Record) :
    Except Refusal Written := do
  let existing ← store.stored name id
  let (time, supply) := supply.tick
  let record := replacedRecord existing data time
  return ⟨withId id record, store.put name id record, supply⟩

/-- Sets fields of a record, its system fields apart. -/
def merge (store : Store) (supply : Supply) (name id : String) (data : Record) :
    Except Refusal Written := do
  let existing ← store.stored name id
  let (time, supply) := supply.tick
  let record := mergedRecord existing data time
  return ⟨withId id record, store.put name id record, supply⟩

/-- Removes a record; the result tells when. The collection stays. -/
def delete (store : Store) (supply : Supply) (name id : String) : Except Refusal Written := do
  let collection ← store.collection name
  let _ ← store.stored name id
  let (time, supply) := supply.tick
  let store := ⟨store.collections.set name (collection.erase id)⟩
  return ⟨.plain [(deletedField, .int time)], store, supply⟩

/-- All collections with their records as they are handed out. -/
def contents (store : Store) : List (String × List Record) :=
  store.collections.entries.map fun (name, collection) =>
    (name, collection.entries.map fun (id, record) => withId id record)

end Store

end GuardedStore
