import GuardedStore.Proofs.Expression.Growth
import GuardedStore.Proofs.Expression.Readback
import GuardedStore.Proofs.Expression.Sameness

/-! # Heaps in which nothing holds itself

Values are loaded from the inside out, so that the parts of a list or object stand at earlier addresses than
it does. Records without shared parts are loaded the same way. As long as nothing is assigned this stays so, and
then all comparisons end.
-/

namespace GuardedStore.Expression

/-- A list or object in the slot stands below an address. -/
def Slot.Below (bound : Nat) : Slot → Prop
  | .plain _ => True
  | .shared address => address < bound

theorem Slot.Below.mono {slot : Slot} {bound bound' : Nat} (h : slot.Below bound) (grown : bound ≤ bound') :
    slot.Below bound' := by
  cases slot with
  | plain v => trivial
  | shared address => exact Nat.lt_of_lt_of_le h grown

namespace Heap

/-- All parts of a list or object stand below it. -/
def Descends (heap : Heap) : Prop :=
  ∀ address node, heap.node? address = some node → ∀ part ∈ node.slots, part.Below address

variable {heap : Heap}

theorem Descends.hasPart_lt (h : heap.Descends) {a b : Nat} (part : heap.HasPart a b) : b < a := by
  obtain ⟨node, found, member⟩ := part
  exact h a node found _ member

theorem Descends.not_holdsItself (h : heap.Descends) (a : Nat) : ¬ heap.HoldsItself a := by
  have falls {a b : Nat} (held : Relation.TransGen heap.HasPart a b) : b < a := by
    induction held with
    | single part => exact h.hasPart_lt part
    | tail _ part ih => exact (h.hasPart_lt part).trans ih
  exact fun held => Nat.lt_irrefl a (falls held)

theorem Descends.empty : Heap.empty.Descends := by
  intro address node found
  simp [Heap.empty, node?] at found

theorem Descends.alloc (h : heap.Descends) {node : Node}
    (below : ∀ part ∈ node.slots, part.Below heap.nodes.size) : (heap.alloc node).2.Descends := by
  intro address other found
  rw [node?_alloc] at found
  split at found
  · rename_i new
    cases found
    exact new ▸ below
  · exact h address other found

/-- What is loaded stands below the addresses that come next. -/
structure Lands (slots : List Slot) (later : Heap) : Prop where
  below : ∀ slot ∈ slots, slot.Below later.nodes.size
  descends : later.Descends

theorem Lands.cons {slot : Slot} {slots : List Slot} {next later : Heap} (first : Lands [slot] next)
    (rest : Lands slots later) (grown : Extends next later) : Lands (slot :: slots) later where
  below := List.forall_mem_cons.mpr
    ⟨(first.below slot List.mem_cons_self).mono grown.1, rest.below⟩
  descends := rest.descends

theorem Lands.alloc {slots : List Slot} (landed : Lands slots heap) {node : Node} (parts : node.slots = slots) :
    Lands [(heap.alloc node).1] (heap.alloc node).2 where
  below := List.forall_mem_singleton.mpr (by simp [Heap.alloc, Slot.Below])
  descends := landed.descends.alloc (parts ▸ landed.below)

mutual

theorem load_lands {heap : Heap} (h : heap.Descends) (v : Value) : Lands [(heap.load v).1] (heap.load v).2 := by
  cases v with
  | null | bool | int | float | str => exact ⟨List.forall_mem_singleton.mpr trivial, h⟩
  | list items => exact (loadItems_lands h items).alloc rfl
  | object fields => exact (loadFields_lands h fields).alloc rfl
termination_by sizeOf v

theorem loadItems_lands {heap : Heap} (h : heap.Descends) (vs : List Value) :
    Lands (heap.loadItems vs).1 (heap.loadItems vs).2 := by
  cases vs with
  | nil => exact ⟨nofun, h⟩
  | cons v vs =>
      have first := load_lands h v
      exact first.cons (loadItems_lands first.descends vs) (loadItems_extends _ vs)
termination_by sizeOf vs

theorem loadFields_lands {heap : Heap} (h : heap.Descends) (fields : Fields) :
    Lands ((heap.loadFields fields).1.map (·.2)) (heap.loadFields fields).2 := by
  cases fields with
  | nil => exact ⟨nofun, h⟩
  | cons field rest =>
      obtain ⟨name, v⟩ := field
      have first := load_lands h v
      exact first.cons (loadFields_lands first.descends rest) (loadFields_extends _ rest)
termination_by sizeOf fields

end

theorem loadRecord_lands (h : heap.Descends) {record : Record} (plain : record.identities = []) :
    Lands [(heap.loadRecord record).1] (heap.loadRecord record).2 := by
  rw [loadRecord_of_plain heap plain]
  exact (loadFields_lands h record.fields).alloc rfl

theorem loadRecords_lands (h : heap.Descends) {records : List Record}
    (plain : ∀ record ∈ records, record.identities = []) :
    Lands (heap.loadRecords records).1 (heap.loadRecords records).2 := by
  induction records generalizing heap with
  | nil => exact ⟨nofun, h⟩
  | cons record rest ih =>
      obtain ⟨here, others⟩ := List.forall_mem_cons.mp plain
      have first := loadRecord_lands h here
      exact first.cons (ih first.descends others) (loadRecords_extends _ rest)

end Heap

/-- No list or object stands twice in what is found. -/
def Found.IsPlain : Found → Prop
  | .record copy => copy.identities = []
  | .records copies => ∀ copy ∈ copies, copy.identities = []

/-- Rules find nothing but what is plain. -/
def Scope.FindsPlain (scope : Scope) : Prop :=
  ∀ collection id found, scope.lookup collection id = .ok found → found.IsPlain

variable {scope : Scope}

theorem maintains_loadFound {found : Found} (plain : found.IsPlain) :
    Maintains Heap.Descends (loadFound found) := by
  intro heap descends
  cases found with
  | record record => exact (Heap.loadRecord_lands descends plain).descends
  | records records => exact ((Heap.loadRecords_lands descends plain).alloc rfl).descends

/-- Where nothing is assigned and no part stands twice in what is found, nothing comes to hold itself. -/
theorem descends_evaluateSource (plain : scope.FindsPlain) {source : String}
    (quiet : ∀ e, compile source = .ok e → e.assigns = false) :
    Maintains Heap.Descends (evaluateSource scope source) := by
  have composes : Composes scope Heap.Descends (fun _ => Heap.Descends) fun _ => True :=
    composes_maintains fun there => maintains_loadFound (plain _ _ _ there)
  refine safe_iff_maintains.mp (composes.evaluateSource (fun _ _ _ _ => trivial) fun e compiled assigns => ?_)
  rw [quiet e compiled] at assigns
  cases assigns

end GuardedStore.Expression
