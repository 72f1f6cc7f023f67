import GuardedStore.Json.Reader
import GuardedStore.Store.Basic

/-! # Seeds

The records that a store starts with are read from JSON files: one file for each collection of a
directory, or a single file with all collections. The files of a directory are read in the order of
their names.
-/

namespace GuardedStore.Seed

/-- Why seeds cannot be loaded. The file is named as its path. -/
inductive SeedFault where
  /-- A file is not JSON. -/
  | unreadable
  /-- A file holds an integer with too many digits. -/
  | tooManyDigits (count : Nat)
  /-- The file of a collection holds no object. -/
  | notRecords (file : String)
  /-- The file of all collections holds no object. -/
  | notCollections (file : String)
  | collectionNotObject (file : String)
  | recordNotObject (id file : String)
  deriving DecidableEq, Repr

/-- The wording of what is wrong with a seed. A text that is not JSON is reported without one. -/
def SeedFault.message? : SeedFault → Option String
  | .unreadable => none
  | .tooManyDigits count => some (Numeral.tooManyDigits count)
  | .notRecords file => some s!"Seed file {file} must contain an object of records"
  | .notCollections file => some s!"Seed file {file} must contain an object of collections"
  | .collectionNotObject file =>
    some s!"Collection in {file} must be an object keyed by record id"
  | .recordNotObject id file => some s!"Record '{id}' in {file} is not an object"

def readFile (text : String) : Except SeedFault Value :=
  (Json.parse text).mapError fun
    | .unexpected _ => .unreadable
    | .tooManyDigits count => .tooManyDigits count

def readRecords (file : String) : Fields → Except SeedFault (List (String × Fields))
  | [] => .ok []
  | (id, .object record) :: rest => do return (id, record) :: (← readRecords file rest)
  | (id, _) :: _ => .error (.recordNotObject id file)

/-- The records of a value that must be a collection. -/
def readCollection (file : String) : Value → Except SeedFault (List (String × Fields))
  | .object records => readRecords file records
  | _ => .error (.collectionNotObject file)

def readCollections (file : String) : Fields → Except SeedFault Snapshot
  | [] => .ok []
  | (name, v) :: rest => do
    let records ← readCollection file v
    return (name, records) :: (← readCollections file rest)

def ofFile (file text : String) : Except SeedFault Snapshot := do
  match ← readFile text with
  | .object collections => readCollections file collections
  | _ => throw (.notCollections file)

def ending : List Char := ['.', 'j', 's', 'o', 'n']

/-- The name of a seed file without its ending, if anything is left of it. -/
def stem (name : String) : String :=
  let front := name.toList.take (name.length - ending.length)
  if front.isEmpty then name else String.ofList front

/-- Whether a file of the directory is a seed. -/
def isSeedName (name : String) : Bool :=
  ending.isSuffixOf name.toList

/-- Reads the files of a directory in the given order. A later file of the same collection replaces
    an earlier one. -/
def readFiles (directory : String) : List (String × String) → Except SeedFault Snapshot
  | [] => .ok []
  | (name, text) :: rest => do
    let file := directory ++ name
    match ← readFile text with
    | .object records =>
      let records ← readRecords file records
      return (stem name, records) :: (← readFiles directory rest)
    | _ => throw (.notRecords file)

/-- The collections of a directory: pairs of a file name and its text. Messages name files below
    `directory`. -/
def ofDirectory (directory : String) (files : List (String × String)) :
    Except SeedFault Snapshot := do
  let seeds := files.filter fun (name, _) => isSeedName name
  let sorted := seeds.mergeSort fun a b => a.1 ≤ b.1
  return Entries.ofPairs (← readFiles directory sorted)

end GuardedStore.Seed
