import GuardedStore.Yaml.Meaning
import GuardedStore.Yaml.Merge

/-! # Documents

The data that a document holds. Lists, sets and mappings are told apart by numbers, so that one which
a reference stands for is the same one everywhere, also inside itself.

A scalar is read where it is first met. Lists, sets and mappings get their contents later, in the
order in which they are met; so of several flaws the one that lies least deep is reported, and of
those the first.
-/

namespace GuardedStore.Yaml

inductive Item where
  /-- A piece of data without parts. -/
  | plain (datum : Datum)
  /-- The list, set or mapping with a number. -/
  | shared (number : Nat)
  deriving Repr, Inhabited

/-- What a list, set or mapping holds. -/
inductive Contents where
  | list (items : List Item)
  | pairs (pairs : List (Item × Item))
  | set (members : List Datum)
  | mapping (entries : List (Datum × Item))
  deriving Repr

instance : Inhabited Contents := ⟨.list []⟩

structure Document where
  root : Item
  /-- The contents of the lists, sets and mappings under their numbers. -/
  contents : Array Contents
  deriving Repr

/-- Whether a tag says that a node is a list, set or mapping. -/
def Tag.isContainer : Tag → Bool
  | .seq | .pairs | .map | .set => true
  | _ => false

structure Reading where
  nodes : Nodes
  /-- How many mappings may take over entries from one another. -/
  depth : Nat
  /-- What has been read of nodes. -/
  items : Array (Option Item)
  contents : Array Contents
  /-- The lists, sets and mappings whose contents are still to be read. -/
  waiting : List Nat := []

abbrev Read := StateT Reading (Except Flaw)

namespace Read

def malformed {α : Type} : Read α :=
  throw .malformed

/-- The text that a node stands for as a scalar: its own, or what a mapping has under its first value
    key. At most `depth` mappings are gone into. -/
def textTo (nodes : Nodes) : Nat → Nat → Option String
  | 0, _ => none
  | depth + 1, number =>
    match (nodes.node number).content with
    | .scalar text => some text
    | .sequence _ => none
    | .mapping entries =>
      (entries.find? fun (key, _) => nodes.tag key = .value).bind fun (_, value) =>
        textTo nodes depth value

/-- The text that a node must stand for as a scalar. -/
def text (number : Nat) : Read String := do
  let nodes := (← get).nodes
  match textTo nodes (nodes.size + 1) number with
  | some text => return text
  | none => malformed

/-- The time of a scalar. A mapping that stands for a text is none. -/
def time (number : Nat) : Read Datum := do
  let text ← text number
  match ((← get).nodes.node number).content with
  | .scalar _ => Meaning.time text
  | _ => throw .mappingAsTime

def scalar (number : Nat) : Tag → Read Datum
  | .null => do
    let _ ← text number
    return .null
  | .bool => do Meaning.bool (← text number)
  | .int => do Meaning.int (← text number)
  | .float => do Meaning.float number (← text number)
  | .binary => do Meaning.binary (← text number)
  | .timestamp => time number
  | .str => return .str (← text number)
  | _ => malformed

def keep (number : Nat) (item : Item) : Read Item := do
  modify fun state => { state with items := state.items.setIfInBounds number (some item) }
  return item

def item (number : Nat) : Read Item := do
  let state ← get
  match state.items.getD number none with
  | some item => return item
  | none =>
    let tag := state.nodes.tag number
    if tag.isContainer then
      modify fun state => { state with waiting := state.waiting ++ [number] }
      keep number (.shared number)
    else keep number (.plain (← scalar number tag))

/-- A key, which must have no parts. -/
def key (number : Nat) : Read Datum := do
  match ← item number with
  | .plain datum => return datum
  | .shared _ => malformed

/-- The entries of a mapping node with those that it takes over. Of two entries with one key the later
    value stands at the earlier place. -/
def entries (number : Nat) : Read (List (Datum × Item)) := do
  let state ← get
  let ((), nodes) ← (Merge.complete state.depth number).run state.nodes
  set { state with nodes }
  let pairs ← ((nodes.entries? number).getD []).mapM fun (name, value) => do
    return (← key name, ← item value)
  return Datum.ofPairs pairs

def sequence (number : Nat) : Read (List Nat) := do
  match ((← get).nodes.node number).content with
  | .sequence items => return items
  | _ => malformed

def pair (number : Nat) : Read (Item × Item) := do
  match (← get).nodes.entries? number with
  | some [(first, second)] => return (← item first, ← item second)
  | _ => malformed

/-- The contents of a list, set or mapping with a tag. -/
def contents (number : Nat) : Tag → Read Contents
  | .seq => do return .list (← (← sequence number).mapM item)
  | .pairs => do return .pairs (← (← sequence number).mapM pair)
  | .set => do return .set (Datum.shownMembers ((← entries number).map (·.1)))
  | .map => do return .mapping (← entries number)
  | _ => malformed

/-- Reads contents until none wait, of at most so many lists, sets and mappings. -/
def settle : Nat → Read Unit
  | 0 => malformed
  | count + 1 => do
    let state ← get
    match state.waiting with
    | [] => return ()
    | number :: waiting =>
      set { state with waiting }
      let contents ← contents number (state.nodes.tag number)
      modify fun state =>
        { state with contents := state.contents.setIfInBounds number contents }
      settle count

end Read

namespace Document

/-- The document that holds a piece of data without parts. -/
def plain (datum : Datum) : Document where
  root := .plain datum
  contents := #[]

/-- The document of nodes. Each of them waits at most once, and every mapping that takes over entries
    uses up a merge key. -/
def ofGraph (graph : Graph) : Except Flaw Document := do
  let count := graph.nodes.size
  let start : Reading :=
    { nodes := graph.nodes, depth := graph.nodes.merges + 2, items := Array.replicate count none,
      contents := Array.replicate count default }
  let read : Read Item := do
    let root ← Read.item graph.root
    Read.settle (count + 1)
    return root
  let (root, state) ← read.run start
  return { root, contents := state.contents }

/-- The only document of a YAML text, or null when there is none. -/
def parse (text : String) : Except Flaw Document := do
  match ← Graph.ofText text with
  | none => return .plain .null
  | some graph => ofGraph graph

/-- The contents of a list, set or mapping. -/
def held (document : Document) (number : Nat) : Contents :=
  document.contents.getD number default

def entries? (document : Document) : Item → Option (List (Datum × Item))
  | .plain _ => none
  | .shared number =>
    match document.held number with
    | .mapping entries => some entries
    | _ => none

/-- An item as data, inside the lists, sets and mappings `around`, followed through at most `depth` of
    them. One that comes again inside itself is not followed. -/
def datumTo (document : Document) : Nat → List Nat → Item → Datum
  | _, _, .plain datum => datum
  | 0, _, .shared _ => .null
  | depth + 1, around, .shared number =>
    let inner := datumTo document depth (number :: around)
    match document.held number, around.contains number with
    | .list _, true | .pairs _, true => .sameList
    | .mapping _, true => .sameMapping
    | .set members, _ => .set members
    | .list items, false => .list (items.map inner)
    | .pairs pairs, false => .list (pairs.map fun (a, b) => .tuple [inner a, inner b])
    | .mapping entries, false => .mapping (entries.map fun (key, value) => (key, inner value))

def datum (document : Document) (item : Item) : Datum :=
  document.datumTo (document.contents.size + 1) [] item

/-- An item as data, with nothing in a list or mapping. The members of a set have no parts. -/
def surface (document : Document) : Item → Datum
  | .plain datum => datum
  | .shared number =>
    match document.held number with
    | .list _ | .pairs _ => .list []
    | .set members => .set members
    | .mapping _ => .mapping []

end Document

end GuardedStore.Yaml
