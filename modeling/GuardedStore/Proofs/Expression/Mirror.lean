import GuardedStore.Proofs.Expression.Loading
import GuardedStore.Proofs.Value.Likeness
import Mathlib

/-! # Heaps that mirror each other

Two heaps may hold the same lists and objects at different addresses. A link says which addresses
stand for each other; it relates every address to one address at most, on both sides, and what stands
at linked addresses looks the same as far as links reach. Links outlive additions to both heaps and
changes of both at linked addresses. What is kept of the first heap is not linked, so that nothing that
happens along links changes it.
-/

namespace GuardedStore.Expression

/-- Which addresses of one heap stand for which addresses of another. -/
abbrev Link := Nat → Nat → Prop

/-- Slots with the same plain value or with linked addresses. -/
inductive Twin (link : Link) : Slot → Slot → Prop
  | plain (v : Literal) : Twin link (.plain v) (.plain v)
  | shared {a b : Nat} (linked : link a b) : Twin link (.shared a) (.shared b)

/-- Fields with the same names in the same order. -/
def FieldTwins (link : Link) : Entries Slot → Entries Slot → Prop :=
  List.Forall₂ fun field field' => field.1 = field'.1 ∧ Twin link field.2 field'.2

def Node.slots : Node → List Slot
  | .list items => items
  | .object fields => fields.map (·.2)

inductive NodeTwin (link : Link) : Node → Node → Prop
  | list {items items' : List Slot} (twins : List.Forall₂ (Twin link) items items') :
      NodeTwin link (.list items) (.list items')
  | object {fields fields' : Entries Slot} (twins : FieldTwins link fields fields') :
      NodeTwin link (.object fields) (.object fields')

/-- Linked addresses hold twins, and what is kept of the first heap is not linked. -/
structure Mirrors (kept : Nat → Option Node) (link : Link) (heap heap' : Heap) : Prop where
  twins : ∀ {a b}, link a b → ∃ node node', heap.node? a = some node ∧ heap'.node? b = some node' ∧
    NodeTwin link node node'
  eq_right : ∀ {a b b'}, link a b → link a b' → b = b'
  eq_left : ∀ {a a' b}, link a b → link a' b → a = a'
  keeps : ∀ {a node}, kept a = some node → heap.node? a = some node ∧ ∀ b, ¬ link a b

variable {kept : Nat → Option Node} {link later : Link} {heap heap' : Heap} {slot slot' : Slot}

theorem Twin.mono (h : Twin link slot slot') (grown : link ≤ later) : Twin later slot slot' := by
  cases h with
  | plain v => exact .plain v
  | shared linked => exact .shared (grown _ _ linked)

theorem FieldTwins.mono {fields fields' : Entries Slot} (h : FieldTwins link fields fields')
    (grown : link ≤ later) : FieldTwins later fields fields' :=
  List.Forall₂.imp (fun _ _ same => ⟨same.1, same.2.mono grown⟩) h

theorem NodeTwin.mono {node node' : Node} (h : NodeTwin link node node') (grown : link ≤ later) :
    NodeTwin later node node' := by
  cases h with
  | list twins => exact .list (twins.imp fun _ _ same => same.mono grown)
  | object twins => exact .object (twins.mono grown)

namespace FieldTwins

variable {fields fields' : Entries Slot}

theorem get? (h : FieldTwins link fields fields') (name : String) :
    Option.Rel (Twin link) (Entries.get? fields name) (Entries.get? fields' name) :=
  Entries.rel_get? h name

theorem value (h : FieldTwins link fields fields') (name : String) :
    Twin link ((Entries.get? fields name).getD (.plain .null))
      ((Entries.get? fields' name).getD (.plain .null)) := by
  have found := h.get? name
  generalize Entries.get? fields name = one, Entries.get? fields' name = other at found ⊢
  cases found with
  | none => exact .plain .null
  | some twin => exact twin

theorem set (h : FieldTwins link fields fields') (name : String) (twin : Twin link slot slot') :
    FieldTwins link (Entries.set fields name slot) (Entries.set fields' name slot') := by
  induction h with
  | nil => exact .cons ⟨rfl, twin⟩ .nil
  | @cons field field' rest rest' same others ih =>
      obtain ⟨key, old⟩ := field
      obtain ⟨key', old'⟩ := field'
      obtain ⟨rfl, both⟩ := same
      simp only [Entries.set]
      split
      · exact .cons ⟨rfl, twin⟩ others
      · exact .cons ⟨rfl, both⟩ ih

theorem erase (h : FieldTwins link fields fields') (name : String) :
    FieldTwins link (Entries.erase fields name) (Entries.erase fields' name) := by
  induction h with
  | nil => exact .nil
  | @cons field field' rest rest' same others ih =>
      obtain ⟨key, old⟩ := field
      obtain ⟨key', old'⟩ := field'
      obtain ⟨rfl, both⟩ := same
      simp only [Entries.erase, List.filter_cons] at ih ⊢
      split
      · exact .cons ⟨rfl, both⟩ ih
      · exact ih

end FieldTwins

namespace Heap

theorem node?_alloc (heap : Heap) (node : Node) (address : Nat) :
    (heap.alloc node).2.node? address =
      if address = heap.nodes.size then some node else heap.node? address := by
  simp [alloc, node?, Array.getElem?_push]

theorem node?_put (heap : Heap) (address : Nat) (node : Node) (other : Nat) :
    (heap.put address node).node? other =
      if address = other ∧ address < heap.nodes.size then some node else heap.node? other := by
  by_cases same : address = other
  · subst same
    by_cases inside : address < heap.nodes.size <;> simp [put, node?, inside]
  · simp [put, node?, same]

theorem inside_of_node? {heap : Heap} {address : Nat} {node : Node}
    (h : heap.node? address = some node) : address < heap.nodes.size :=
  (Array.getElem?_eq_some_iff.mp h).1

/-- What stands in a heap from an address on. -/
def nodesFrom (heap : Heap) (bound address : Nat) : Option Node :=
  if bound ≤ address then heap.node? address else none

end Heap

namespace Mirrors

theorem inside (m : Mirrors kept link heap heap') {a b : Nat} (linked : link a b) :
    a < heap.nodes.size ∧ b < heap'.nodes.size :=
  let ⟨_, _, found, found', _⟩ := m.twins linked
  ⟨Heap.inside_of_node? found, Heap.inside_of_node? found'⟩

theorem empty : Mirrors (fun _ => none) ⊥ .empty .empty where
  twins := False.elim
  eq_right := False.elim
  eq_left := False.elim
  keeps := nofun

theorem rebase {kept' : Nat → Option Node} {heap₂ : Heap} (m : Mirrors kept link heap heap')
    (same : ∀ {a b}, link a b → heap₂.node? a = heap.node? a)
    (keeps : ∀ {a node}, kept' a = some node → heap₂.node? a = some node ∧ ∀ b, ¬ link a b) :
    Mirrors kept' link heap₂ heap' where
  twins linked := by
    obtain ⟨node, node', found, found', twin⟩ := m.twins linked
    exact ⟨node, node', (same linked).trans found, found', twin⟩
  eq_right := m.eq_right
  eq_left := m.eq_left
  keeps := keeps

theorem keepFrom {heap₂ : Heap} {bound : Nat} (m : Mirrors kept link heap heap')
    (same : ∀ {a b}, link a b → heap₂.node? a = heap.node? a)
    (below : ∀ {a b}, link a b → a < bound) : Mirrors (heap₂.nodesFrom bound) link heap₂ heap' := by
  refine m.rebase same fun {a node} isKept => ?_
  simp only [Heap.nodesFrom] at isKept
  split at isKept
  · rename_i beyond
    exact ⟨isKept, fun b linked => absurd (below linked) (Nat.not_lt_of_le beyond)⟩
  · cases isKept

theorem keptFrom {heap₂ : Heap} {bound a : Nat} (m : Mirrors (heap₂.nodesFrom bound) link heap heap')
    (beyond : bound ≤ a) (inside : a < heap₂.nodes.size) :
    heap.node? a = heap₂.node? a ∧ ∀ b, ¬ link a b := by
  have found : heap₂.node? a = some heap₂.nodes[a] := Array.getElem?_eq_getElem inside
  rw [found]
  exact m.keeps (by rw [Heap.nodesFrom, if_pos beyond, found])

theorem alloc (m : Mirrors kept link heap heap') {node node' : Node}
    (twin : NodeTwin link node node') :
    ∃ later, link ≤ later ∧ Mirrors kept later (heap.alloc node).2 (heap'.alloc node').2 ∧
      later heap.nodes.size heap'.nodes.size := by
  let later : Link := fun a b => link a b ∨ a = heap.nodes.size ∧ b = heap'.nodes.size
  have grown : link ≤ later := fun _ _ linked => .inl linked
  refine ⟨later, grown, ⟨?_, ?_, ?_, ?_⟩, .inr ⟨rfl, rfl⟩⟩
  · rintro a b (linked | ⟨rfl, rfl⟩)
    · obtain ⟨one, other, found, found', same⟩ := m.twins linked
      obtain ⟨inside, inside'⟩ := m.inside linked
      refine ⟨one, other, ?_, ?_, same.mono grown⟩
      · rw [Heap.node?_alloc, if_neg inside.ne, found]
      · rw [Heap.node?_alloc, if_neg inside'.ne, found']
    · refine ⟨node, node', ?_, ?_, twin.mono grown⟩
      · rw [Heap.node?_alloc, if_pos rfl]
      · rw [Heap.node?_alloc, if_pos rfl]
  · rintro a b b' (linked | ⟨rfl, rfl⟩) (linked' | ⟨isNew, rfl⟩)
    · exact m.eq_right linked linked'
    · exact absurd isNew (m.inside linked).1.ne
    · exact absurd rfl (m.inside linked').1.ne
    · rfl
  · rintro a a' b (linked | ⟨rfl, rfl⟩) (linked' | ⟨rfl, isNew⟩)
    · exact m.eq_left linked linked'
    · exact absurd isNew (m.inside linked).2.ne
    · exact absurd rfl (m.inside linked').2.ne
    · rfl
  · intro a old isKept
    obtain ⟨found, unlinked⟩ := m.keeps isKept
    have different := (Heap.inside_of_node? found).ne
    refine ⟨by rw [Heap.node?_alloc, if_neg different, found], ?_⟩
    rintro b (linked | ⟨isNew, -⟩)
    · exact unlinked b linked
    · exact different isNew

theorem put (m : Mirrors kept link heap heap') {a b : Nat} (linked : link a b) {node node' : Node}
    (twin : NodeTwin link node node') : Mirrors kept link (heap.put a node) (heap'.put b node') := by
  obtain ⟨inside, inside'⟩ := m.inside linked
  refine ⟨?_, m.eq_right, m.eq_left, ?_⟩
  · intro c d linked'
    by_cases same : a = c
    · subst same
      cases m.eq_right linked linked'
      exact ⟨node, node', by rw [Heap.node?_put, if_pos ⟨rfl, inside⟩],
        by rw [Heap.node?_put, if_pos ⟨rfl, inside'⟩], twin⟩
    · have apart : b ≠ d := by
        rintro rfl
        exact same (m.eq_left linked linked')
      obtain ⟨one, other, found, found', twins⟩ := m.twins linked'
      exact ⟨one, other, by rw [Heap.node?_put, if_neg (same ·.1), found],
        by rw [Heap.node?_put, if_neg (apart ·.1), found'], twins⟩
  · intro c old isKept
    obtain ⟨found, unlinked⟩ := m.keeps isKept
    refine ⟨?_, unlinked⟩
    rw [Heap.node?_put, if_neg, found]
    rintro ⟨rfl, -⟩
    exact unlinked b linked

/-- Twins are the same object or list exactly when their twins are. -/
theorem address_eq_iff (m : Mirrors kept link heap heap') {a b a' b' : Nat} (one : link a a')
    (other : link b b') : a = b ↔ a' = b' := by
  constructor
  · rintro rfl
    exact m.eq_right one other
  · rintro rfl
    exact m.eq_left one other

theorem fields? (m : Mirrors kept link heap heap') (twin : Twin link slot slot') :
    Option.Rel (FieldTwins link) (heap.fields? slot) (heap'.fields? slot') := by
  cases twin with
  | plain v => exact .none
  | shared linked =>
      obtain ⟨node, node', found, found', same⟩ := m.twins linked
      simp only [Heap.fields?, found, found']
      cases same with
      | list twins => exact .none
      | object twins => exact .some twins

theorem kind_eq (m : Mirrors kept link heap heap') (twin : Twin link slot slot') :
    heap.kind slot = heap'.kind slot' := by
  cases twin with
  | plain v => rfl
  | shared linked =>
      obtain ⟨node, node', found, found', same⟩ := m.twins linked
      simp only [Heap.kind, found, found']
      cases same <;> rfl

theorem modifyFields (m : Mirrors kept link heap heap') (twin : Twin link slot slot')
    {f f' : Entries Slot → Entries Slot}
    (same : ∀ {fields fields'}, FieldTwins link fields fields' →
      FieldTwins link (f fields) (f' fields')) :
    Mirrors kept link (heap.modifyFields slot f) (heap'.modifyFields slot' f') := by
  cases twin with
  | plain v => exact m
  | shared linked =>
      obtain ⟨node, node', found, found', nodes⟩ := m.twins linked
      simp only [Heap.modifyFields, found, found']
      cases nodes with
      | list twins => exact m
      | object twins => exact m.put linked (.object (same twins))

end Mirrors

/-- Twin results, and heaps that mirror each other under a link that has grown. -/
def Paired {α β : Type} (kept : Nat → Option Node) (Same : Link → α → β → Prop) (link : Link)
    (left : α × Heap) (right : β × Heap) : Prop :=
  ∃ later, link ≤ later ∧ Mirrors kept later left.2 right.2 ∧ Same later left.1 right.1

namespace Mirrors

mutual

theorem load {link : Link} {heap heap' : Heap} (m : Mirrors kept link heap heap') (v : Value) :
    Paired kept Twin link (heap.load v) (heap'.load v) := by
  cases v with
  | null | bool | int | float | str => exact ⟨link, le_refl link, m, .plain _⟩
  | list items =>
      obtain ⟨mid, grown, m, twins⟩ := loadItems m items
      obtain ⟨later, grown', m, linked⟩ := m.alloc (.list twins)
      exact ⟨later, grown.trans grown', m, .shared linked⟩
  | object fields =>
      obtain ⟨mid, grown, m, twins⟩ := loadFields m fields
      obtain ⟨later, grown', m, linked⟩ := m.alloc (.object twins)
      exact ⟨later, grown.trans grown', m, .shared linked⟩
termination_by sizeOf v

theorem loadItems {link : Link} {heap heap' : Heap} (m : Mirrors kept link heap heap')
    (vs : List Value) :
    Paired kept (fun link => List.Forall₂ (Twin link)) link (heap.loadItems vs)
      (heap'.loadItems vs) := by
  cases vs with
  | nil => exact ⟨link, le_refl link, m, .nil⟩
  | cons v vs =>
      obtain ⟨mid, grown, m, twin⟩ := load m v
      obtain ⟨later, grown', m, twins⟩ := loadItems m vs
      exact ⟨later, grown.trans grown', m, .cons (twin.mono grown') twins⟩
termination_by sizeOf vs

theorem loadFields {link : Link} {heap heap' : Heap} (m : Mirrors kept link heap heap')
    (fields : List (String × Value)) :
    Paired kept FieldTwins link (heap.loadFields fields) (heap'.loadFields fields) := by
  cases fields with
  | nil => exact ⟨link, le_refl link, m, .nil⟩
  | cons field rest =>
      obtain ⟨name, v⟩ := field
      obtain ⟨mid, grown, m, twin⟩ := load m v
      obtain ⟨later, grown', m, twins⟩ := loadFields m rest
      exact ⟨later, grown.trans grown', m, .cons ⟨rfl, twin.mono grown'⟩ twins⟩
termination_by sizeOf fields

end

end Mirrors

/-- Two loadings at the same point: the same numbers come next, and those that were met have linked
addresses. -/
structure LoadingTwin (kept : Nat → Option Node) (link : Link) (one other : Heap.Loading) : Prop where
  heaps : Mirrors kept link one.heap other.heap
  numbers : one.numbers = other.numbers
  met : List.Forall₂ (fun entry entry' => entry.1 = entry'.1 ∧ link entry.2 entry'.2) one.met other.met

namespace LoadingTwin

variable {one other : Heap.Loading}

theorem address? (h : LoadingTwin kept link one other) (number : Option Nat) :
    Option.Rel link (one.address? number) (other.address? number) := by
  cases number with
  | none => exact .none
  | some number =>
      simp only [Heap.Loading.address?, Option.bind_some]
      have met := h.met
      generalize one.met = entries, other.met = entries' at met ⊢
      induction met with
      | nil => exact .none
      | @cons entry entry' rest rest' same _ ih =>
          obtain ⟨n, address⟩ := entry
          obtain ⟨n', address'⟩ := entry'
          obtain ⟨rfl, linked⟩ := same
          by_cases here : n = number
          · simp only [List.find?_cons, here, decide_true, Option.map_some]
            exact .some linked
          · simpa only [List.find?_cons, here, decide_false] using ih

theorem next (h : LoadingTwin kept link one other) :
    one.next.1 = other.next.1 ∧ LoadingTwin kept link one.next.2 other.next.2 := by
  simp only [Heap.Loading.next, h.numbers, true_and]
  exact ⟨h.heaps, rfl, h.met⟩

theorem pass (h : LoadingTwin kept link one other) (count : Nat) :
    LoadingTwin kept link (one.pass count) (other.pass count) where
  heaps := h.heaps
  numbers := congrArg (List.drop count) h.numbers
  met := h.met

theorem meet (h : LoadingTwin kept link one other) (number : Option Nat) {node : Node}
    (twin : NodeTwin link node node) :
    ∃ later, link ≤ later ∧ LoadingTwin kept later (one.meet number node).2 (other.meet number node).2 ∧
      later (one.meet number node).1 (other.meet number node).1 := by
  obtain ⟨later, grown, heaps, linked⟩ := h.heaps.alloc twin
  have met : List.Forall₂ (fun entry entry' => entry.1 = entry'.1 ∧ later entry.2 entry'.2)
      one.met other.met := h.met.imp fun _ _ same => ⟨same.1, grown _ _ same.2⟩
  refine ⟨later, grown, ⟨heaps, h.numbers, ?_⟩, linked⟩
  cases number with
  | none => exact met
  | some number => exact .cons ⟨rfl, linked⟩ met

theorem fill (h : LoadingTwin kept link one other) {a b : Nat} (linked : link a b)
    {node node' : Node} (twin : NodeTwin link node node') :
    LoadingTwin kept link (one.fill a node) (other.fill b node') where
  heaps := h.heaps.put linked twin
  numbers := h.numbers
  met := h.met

mutual

theorem load {link : Link} {one other : Heap.Loading} (h : LoadingTwin kept link one other)
    (v : Value) :
    ∃ later, link ≤ later ∧ LoadingTwin kept later (one.load v).2 (other.load v).2 ∧
      Twin later (one.load v).1 (other.load v).1 := by
  cases v with
  | null | bool | int | float | str => exact ⟨link, le_refl link, h, .plain _⟩
  | list items =>
      obtain ⟨number, h⟩ := h.next
      simp only [Heap.Loading.load, number]
      have known := h.address? other.next.1
      generalize one.next.2.address? other.next.1 = address,
        other.next.2.address? other.next.1 = address' at known ⊢
      cases known with
      | some linked => exact ⟨link, le_refl link, h.pass _, .shared linked⟩
      | none =>
          obtain ⟨mid, grown, h, linked⟩ := h.meet other.next.1 (.list .nil)
          obtain ⟨later, grown', h, twins⟩ := loadItems h items
          have linked := grown' _ _ linked
          exact ⟨later, grown.trans grown', h.fill linked (.list twins), .shared linked⟩
  | object fields =>
      obtain ⟨number, h⟩ := h.next
      simp only [Heap.Loading.load, number]
      have known := h.address? other.next.1
      generalize one.next.2.address? other.next.1 = address,
        other.next.2.address? other.next.1 = address' at known ⊢
      cases known with
      | some linked => exact ⟨link, le_refl link, h.pass _, .shared linked⟩
      | none =>
          obtain ⟨mid, grown, h, linked⟩ := h.meet other.next.1 (.object .nil)
          obtain ⟨later, grown', h, twins⟩ := loadFields h fields
          have linked := grown' _ _ linked
          exact ⟨later, grown.trans grown', h.fill linked (.object twins), .shared linked⟩
termination_by sizeOf v

theorem loadItems {link : Link} {one other : Heap.Loading} (h : LoadingTwin kept link one other)
    (vs : List Value) :
    ∃ later, link ≤ later ∧ LoadingTwin kept later (one.loadItems vs).2 (other.loadItems vs).2 ∧
      List.Forall₂ (Twin later) (one.loadItems vs).1 (other.loadItems vs).1 := by
  cases vs with
  | nil => exact ⟨link, le_refl link, h, .nil⟩
  | cons v vs =>
      obtain ⟨mid, grown, h, twin⟩ := load h v
      obtain ⟨later, grown', h, twins⟩ := loadItems h vs
      exact ⟨later, grown.trans grown', h, .cons (twin.mono grown') twins⟩
termination_by sizeOf vs

theorem loadFields {link : Link} {one other : Heap.Loading} (h : LoadingTwin kept link one other)
    (fields : List (String × Value)) :
    ∃ later, link ≤ later ∧
      LoadingTwin kept later (one.loadFields fields).2 (other.loadFields fields).2 ∧
      FieldTwins later (one.loadFields fields).1 (other.loadFields fields).1 := by
  cases fields with
  | nil => exact ⟨link, le_refl link, h, .nil⟩
  | cons field rest =>
      obtain ⟨name, v⟩ := field
      obtain ⟨mid, grown, h, twin⟩ := load h v
      obtain ⟨later, grown', h, twins⟩ := loadFields h rest
      exact ⟨later, grown.trans grown', h, .cons ⟨rfl, twin.mono grown'⟩ twins⟩
termination_by sizeOf fields

end

theorem loadRecordFields (identities : Entries (List Nat)) (h : LoadingTwin kept link one other)
    (fields : List (String × Value)) :
    Paired kept FieldTwins link
      ((Heap.Loading.loadRecordFields identities one fields).1,
        (Heap.Loading.loadRecordFields identities one fields).2.heap)
      ((Heap.Loading.loadRecordFields identities other fields).1,
        (Heap.Loading.loadRecordFields identities other fields).2.heap) := by
  induction fields generalizing link one other with
  | nil => exact ⟨link, le_refl link, h.heaps, .nil⟩
  | cons field rest ih =>
      obtain ⟨name, v⟩ := field
      let numbers := (Entries.get? identities name).getD []
      have numbered : LoadingTwin kept link { one with numbers } { other with numbers } :=
        ⟨h.heaps, rfl, h.met⟩
      obtain ⟨mid, grown, h, twin⟩ := numbered.load v
      obtain ⟨later, grown', heaps, twins⟩ := ih h
      exact ⟨later, grown.trans grown', heaps, .cons ⟨rfl, twin.mono grown'⟩ twins⟩

end LoadingTwin

namespace Mirrors

theorem loadRecordFields (m : Mirrors kept link heap heap') (record : Record) :
    Paired kept FieldTwins link (heap.loadRecordFields record) (heap'.loadRecordFields record) := by
  simp only [Heap.loadRecordFields]
  split
  · exact m.loadFields record.fields
  · have started : LoadingTwin kept link { heap } { heap := heap' } := ⟨m, rfl, .nil⟩
    exact started.loadRecordFields record.identities record.fields

theorem loadRecord (m : Mirrors kept link heap heap') (record : Record) :
    Paired kept Twin link (heap.loadRecord record) (heap'.loadRecord record) := by
  obtain ⟨mid, grown, m, twins⟩ := m.loadRecordFields record
  obtain ⟨later, grown', m, linked⟩ := m.alloc (.object twins)
  exact ⟨later, grown.trans grown', m, .shared linked⟩

theorem loadRecords (m : Mirrors kept link heap heap') (records : List Record) :
    Paired kept (fun link => List.Forall₂ (Twin link)) link (heap.loadRecords records)
      (heap'.loadRecords records) := by
  induction records generalizing link heap heap' with
  | nil => exact ⟨link, le_refl link, m, .nil⟩
  | cons record rest ih =>
      obtain ⟨mid, grown, m, twin⟩ := m.loadRecord record
      obtain ⟨later, grown', m, twins⟩ := ih m
      exact ⟨later, grown.trans grown', m, .cons (twin.mono grown') twins⟩

end Mirrors

end GuardedStore.Expression
