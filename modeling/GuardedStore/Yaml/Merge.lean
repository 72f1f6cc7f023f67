import GuardedStore.Yaml.Node

/-! # Taking over entries

A mapping takes over the entries of the mappings under its merge keys; they stand before its own, so
that its own replace them. What it takes over from is made to take over its own entries first. A node
that comes upon itself in this way finds the entries that it has by then.

A value key of such a mapping is a text from then on, wherever else its node stands.
-/

namespace GuardedStore.Yaml

abbrev Merge := StateT Nodes (Except Flaw)

namespace Nodes

def node (nodes : Nodes) (number : Nat) : Node :=
  nodes.getD number .empty

def tag (nodes : Nodes) (number : Nat) : Tag :=
  (nodes.node number).tag

def entries? (nodes : Nodes) (number : Nat) : Option (List (Nat × Nat)) :=
  match (nodes.node number).content with
  | .mapping entries => some entries
  | _ => none

def change (nodes : Nodes) (number : Nat) (f : Node → Node) : Nodes :=
  nodes.modify number f

def isMerge (nodes : Nodes) (entry : Nat × Nat) : Bool :=
  nodes.tag entry.1 = .merge

def mergesOf (nodes : Nodes) (number : Nat) : Nat :=
  ((nodes.entries? number).getD []).countP nodes.isMerge

/-- The number of entries of all nodes with a merge key. -/
def merges (nodes : Nodes) : Nat :=
  (List.range nodes.size).foldl (fun count number => count + nodes.mergesOf number) 0

/-- Makes a text of a value key. -/
def nameKey (nodes : Nodes) (number : Nat) : Nodes :=
  nodes.change number fun node => if node.tag = .value then { node with tag := .str } else node

end Nodes

namespace Merge

def malformed {α : Type} : Merge α :=
  throw .malformed

/-- The entries of a node, which must be a mapping. -/
def entries (number : Nat) : Merge (List (Nat × Nat)) := do
  match (← get).entries? number with
  | some entries => return entries
  | none => malformed

/-- Takes the first merge key out of a mapping and answers what stands under it. -/
def dropMerge (number : Nat) : Merge (Option Nat) := do
  let nodes ← get
  let entries ← entries number
  match entries.find? nodes.isMerge with
  | none => return none
  | some (_, value) =>
    let rest := entries.eraseP nodes.isMerge
    set (nodes.change number fun node => { node with content := .mapping rest })
    return some value

/-- The entries to take over from a mapping, or from a sequence of mappings, where those of an earlier
    one replace those of a later one; `complete` makes a mapping take over its own. -/
def taken (complete : Nat → Merge Unit) (number : Nat) : Merge (List (Nat × Nat)) := do
  match ((← get).node number).content with
  | .scalar _ => malformed
  | .mapping _ =>
    complete number
    entries number
  | .sequence items =>
    let parts ← items.mapM fun item => do
      let _ ← entries item
      complete item
      entries item
    return parts.reverse.flatten

/-- The entries to take over under at most `count` merge keys, which are taken out. -/
def allTaken (complete : Nat → Merge Unit) (number : Nat) : Nat → Merge (List (Nat × Nat))
  | 0 => return []
  | count + 1 => do
    match ← dropMerge number with
    | none => return []
    | some value =>
      let first ← taken complete value
      return first ++ (← allTaken complete number count)

/-- Makes a mapping take over entries, going into at most so many mappings one inside another. -/
def complete : Nat → Nat → Merge Unit
  | 0, _ => malformed
  | depth + 1, number => do
    let others ← allTaken (complete depth) number ((← get).mergesOf number)
    let all := others ++ (← entries number)
    modify fun nodes =>
      all.foldl (fun nodes (key, _) => nodes.nameKey key)
        (nodes.change number fun node => { node with content := .mapping all })

end Merge

end GuardedStore.Yaml
