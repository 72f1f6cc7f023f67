import GuardedStore.Yaml.Layout
import GuardedStore.Yaml.Tag

/-! # Nodes

A document consists of nodes: scalars, sequences and mappings, each with its tag. Every node has a
number, and what a sequence or a mapping holds is told by numbers, so that a reference is the number
of the node that its anchor was set on. A node may hold itself.
-/

namespace GuardedStore.Yaml

inductive Content where
  | scalar (text : String)
  | sequence (items : List Nat)
  | mapping (entries : List (Nat × Nat))
  deriving DecidableEq, Repr

structure Node where
  tag : Tag
  content : Content
  deriving DecidableEq, Repr

/-- The node of a place where nothing stands. -/
def Node.empty : Node where
  tag := .null
  content := .scalar ""

instance : Inhabited Node := ⟨Node.empty⟩

/-- The nodes of a document under their numbers, which start at zero. -/
abbrev Nodes := Array Node

/-- The nodes of a document, one of which holds all others. -/
structure Graph where
  nodes : Nodes
  root : Nat
  deriving Repr

structure Composition where
  tokens : List Token
  /-- What the handles of tags stand for. -/
  handles : List (String × String) := []
  /-- The anchors with the numbers of their nodes. -/
  anchors : List (String × Nat) := []
  /-- The nodes so far. Of one that is still being read only the number is known. -/
  nodes : Nodes := #[]
  deriving Repr

abbrev Compose := StateT Composition (Except Flaw)

structure Properties where
  anchor : Option String := none
  tag : Option String := none
  deriving DecidableEq, Repr

namespace Compose

def malformed {α : Type} : Compose α :=
  throw .malformed

def ensure (condition : Bool) : Compose Unit :=
  if condition then pure () else malformed

def peek : Compose (Option Token) := do
  return (← get).tokens.head?

def skip : Compose Unit :=
  modify fun state => { state with tokens := state.tokens.drop 1 }

/-- Reads a token if it is the next one. -/
def accept (token : Token) : Compose Bool := do
  if (← peek) = some token then
    skip
    return true
  else return false

def atAny (tokens : List Token) : Compose Bool := do
  return (← peek).any tokens.contains

/-- The handles that are always known. -/
def commonHandles : List (String × String) :=
  [("!", "!"), ("!!", Tag.commonStart)]

def fullTag (tag : WrittenTag) : Compose String := do
  match tag.handle with
  | none => return tag.suffix
  | some handle =>
    match (← get).handles.find? (·.1 = handle) with
    | some (_, start) => return start ++ tag.suffix
    | none => malformed

/-- The anchor and the tag before a node, in any order. -/
def properties : Compose Properties := do
  match ← peek with
  | some (.anchor name) =>
    skip
    match ← peek with
    | some (.tag tag) =>
      skip
      return { anchor := name, tag := ← fullTag tag }
    | _ => return { anchor := name }
  | some (.tag tag) =>
    skip
    match ← peek with
    | some (.anchor name) =>
      skip
      return { anchor := name, tag := ← fullTag tag }
    | _ => return { tag := ← fullTag tag }
  | _ => return {}

/-- Whether a tag leaves it to the text what a node stands for. -/
def leavesOpen (tag : Option String) : Bool :=
  tag.all (· = "!")

/-- The tag of a scalar. A lone exclamation mark treats any scalar as a plain one. -/
def scalarTag (tag : Option String) (plain : Bool) (text : String) : Tag :=
  match tag with
  | none => if plain then .ofPlain text else .str
  | some tag => if tag = "!" then .ofPlain text else .ofText tag

/-- The tag of a sequence or a mapping, given the one it has by itself. -/
def collectionTag (tag : Option String) (own : Tag) : Tag :=
  match tag with
  | none => own
  | some tag => if tag = "!" then own else .ofText tag

def add (node : Node) : Compose Nat :=
  modifyGet fun state =>
    (state.nodes.size, { state with nodes := state.nodes.push node })

/-- Gives a number to the node that follows. Its anchor, which must be new, stands for it from here
    on. -/
def openNode (anchor : Option String) : Compose Nat := do
  ensure ((← get).anchors.all fun (name, _) => anchor ≠ some name)
  let number ← add .empty
  modify fun state =>
    { state with anchors := anchor.toList.map (·, number) ++ state.anchors }
  return number

def closeNode (number : Nat) (tag : Tag) (content : Content) : Compose Nat := do
  modify fun state => { state with nodes := state.nodes.setIfInBounds number ⟨tag, content⟩ }
  return number

def refer (name : String) : Compose Nat := do
  match (← get).anchors.find? (·.1 = name) with
  | some (_, number) => return number
  | none => malformed

/-! Which tokens may begin a node depends on where it stands: lines of items and entries do not stand
inside brackets, and items in the column of their mapping only as the value or key of an entry. -/

inductive Position where
  | bracketed
  | lines
  /-- In an entry of a mapping of lines. -/
  | entry
  deriving DecidableEq, Repr

mutual

def node : Nat → Position → Compose Nat
  | 0, _ => malformed
  | fuel + 1, position => do
    match ← peek with
    | some (.reference name) =>
      skip
      refer name
    | _ =>
      let { anchor, tag } ← properties
      match ← peek, position with
      | some .item, .entry =>
        let number ← openNode anchor
        closeNode number (collectionTag tag .seq) (.sequence (← looseItems fuel))
      | some (.scalar plain text), _ =>
        skip
        let number ← openNode anchor
        closeNode number (scalarTag tag plain text) (.scalar text)
      | some .openBracket, _ =>
        skip
        let number ← openNode anchor
        closeNode number (collectionTag tag .seq) (.sequence (← bracketItems fuel true))
      | some .openBrace, _ =>
        skip
        let number ← openNode anchor
        closeNode number (collectionTag tag .map) (.mapping (← braceEntries fuel true))
      | some .sequenceStart, .lines | some .sequenceStart, .entry =>
        skip
        let number ← openNode anchor
        closeNode number (collectionTag tag .seq) (.sequence (← lineItems fuel))
      | some .mappingStart, .lines | some .mappingStart, .entry =>
        skip
        let number ← openNode anchor
        closeNode number (collectionTag tag .map) (.mapping (← lineEntries fuel))
      | _, _ =>
        ensure (anchor.isSome || tag.isSome)
        let number ← openNode anchor
        closeNode number (if leavesOpen tag then .null else scalarTag tag true "") (.scalar "")

/-- A node, unless one of some tokens follows. -/
def nodeUnless (ends : List Token) : Nat → Position → Compose Nat
  | 0, _ => malformed
  | fuel + 1, position => do
    if ← atAny ends then return ← add .empty
    node fuel position

def lineItems : Nat → Compose (List Nat)
  | 0 => malformed
  | fuel + 1 => do
    if ← accept .item then
      let first ← nodeUnless [.item, .blockEnd] fuel .lines
      return first :: (← lineItems fuel)
    ensure (← accept .blockEnd)
    return []

/-- The items of a sequence in the column of its mapping. -/
def looseItems : Nat → Compose (List Nat)
  | 0 => malformed
  | fuel + 1 => do
    if ← accept .item then
      let first ← nodeUnless [.item, .key, .value, .blockEnd] fuel .lines
      return first :: (← looseItems fuel)
    return []

def lineEntries : Nat → Compose (List (Nat × Nat))
  | 0 => malformed
  | fuel + 1 => do
    let ends := [Token.key, .value, .blockEnd]
    if ← accept .key then
      let key ← nodeUnless ends fuel .entry
      let value ← if ← accept .value then nodeUnless ends fuel .entry else add .empty
      return (key, value) :: (← lineEntries fuel)
    ensure (← accept .blockEnd)
    return []

/-- The items of a sequence inside brackets. An item may be an entry, which is a mapping then. -/
def bracketItems : Nat → Bool → Compose (List Nat)
  | 0, _ => malformed
  | fuel + 1, first => do
    if ← accept .closeBracket then return []
    if !first then ensure (← accept .comma)
    if ← accept .key then
      let key ← nodeUnless [.value, .comma, .closeBracket] fuel .bracketed
      let value ←
        if ← accept .value then nodeUnless [.comma, .closeBracket] fuel .bracketed
        else add .empty
      let entry ← add ⟨.map, .mapping [(key, value)]⟩
      return entry :: (← bracketItems fuel false)
    if ← accept .closeBracket then return []
    let item ← node fuel .bracketed
    return item :: (← bracketItems fuel false)

def braceEntries : Nat → Bool → Compose (List (Nat × Nat))
  | 0, _ => malformed
  | fuel + 1, first => do
    if ← accept .closeBrace then return []
    if !first then ensure (← accept .comma)
    if ← accept .key then
      let key ← nodeUnless [.value, .comma, .closeBrace] fuel .bracketed
      let value ←
        if ← accept .value then nodeUnless [.comma, .closeBrace] fuel .bracketed
        else add .empty
      return (key, value) :: (← braceEntries fuel false)
    if ← accept .closeBrace then return []
    let key ← node fuel .bracketed
    let value ← add .empty
    return (key, value) :: (← braceEntries fuel false)

end

/-- The directives before a document: at most one version, which must be of the first kind, and
    shorthands that differ. -/
def directives : Nat → Bool → List (String × String) → Compose (List (String × String))
  | 0, _, _ => malformed
  | fuel + 1, versioned, handles => do
    match ← peek with
    | some (.directive directive) =>
      skip
      match directive with
      | .version major _ =>
        ensure (!versioned && major = 1)
        directives fuel true handles
      | .shorthand handle start =>
        ensure (handles.all (·.1 ≠ handle))
        directives fuel versioned ((handle, start) :: handles)
      | .unknown => directives fuel versioned handles
    | _ => return handles

/-- Whether an explicit document is over where it starts. -/
def atDocumentEdge : Compose Bool := do
  match ← peek with
  | none | some (.directive _) | some .documentStart | some .documentEnd => return true
  | _ => return false

/-- Passes over the marks of the ends of documents. -/
def skipEnds : Nat → Compose Unit
  | 0 => malformed
  | fuel + 1 => do
    if ← accept .documentEnd then skipEnds fuel

/-- The node of the only document; none if there is no document. -/
def document : Compose (Option Nat) := do
  let count := (← get).tokens.length
  let fuel := 4 * count + 8
  let root ← match ← peek with
    | none => return none
    | some (.directive _) | some .documentStart => do
      let handles ← directives (count + 1) false []
      ensure (← accept .documentStart)
      modify fun state => { state with handles := handles ++ commonHandles }
      if ← atDocumentEdge then add .empty else node fuel .lines
    | _ => do
      modify fun state => { state with handles := commonHandles }
      node fuel .lines
  skipEnds (count + 1)
  ensure (← peek).isNone
  return some root

end Compose

/-- The nodes of the only document of a text; none if there is no document. -/
def Graph.ofText (text : String) : Except Flaw (Option Graph) := do
  let (root, state) ← Compose.document.run { tokens := ← tokens text }
  return root.map fun root => ⟨state.nodes, root⟩

end GuardedStore.Yaml
