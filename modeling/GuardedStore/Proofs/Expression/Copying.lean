import GuardedStore.Proofs.Expression.Addresses
import GuardedStore.Proofs.Expression.Readback

/-! # Copies of what stands in a heap

A record in a heap is written as values with the numbers of its lists and objects, and loaded again from
them. Whatever lists and objects stand for each other then, those that were one are one again and those that
held themselves do so again. The induction follows the reading of a slot: a list or object is open while its
parts are loaded, and only those around it are.
-/

namespace GuardedStore.Expression

/-- A slot with a plain value or with one of some addresses. -/
def Slot.Among (part : Nat → Prop) : Slot → Prop
  | .plain _ => True
  | .shared address => part address

/-- Something stands at each address of a part, and it stays in the part. -/
def Heap.Closed (heap : Heap) (part : Nat → Prop) : Prop :=
  ∀ address, part address → ∃ node, heap.node? address = some node ∧ ∀ slot ∈ node.slots, slot.Among part

variable {heap heap' : Heap} {part : Nat → Prop} {link : Link}

theorem Twin.among {slot slot' : Slot} (twin : Twin link slot slot') :
    slot.Among fun address => ∃ b, link address b := by
  cases twin with
  | plain v => trivial
  | shared linked => exact ⟨_, linked⟩

theorem among_of_forall₂ {slots slots' : List Slot} (twins : List.Forall₂ (Twin link) slots slots') :
    ∀ slot ∈ slots, slot.Among fun address => ∃ b, link address b := by
  induction twins with
  | nil => exact List.forall_mem_nil _
  | cons twin _ ih => exact List.forall_mem_cons.mpr ⟨twin.among, ih⟩

theorem FieldTwins.among {fields fields' : Entries Slot} (twins : FieldTwins link fields fields') :
    ∀ entry ∈ fields, entry.2.Among fun address => ∃ b, link address b := by
  induction twins with
  | nil => exact List.forall_mem_nil _
  | cons same _ ih => exact List.forall_mem_cons.mpr ⟨same.2.among, ih⟩

theorem Mirrors.closed {kept : Nat → Option Node} (m : Mirrors kept link heap heap') :
    heap.Closed fun address => ∃ b, link address b := by
  intro address linked
  obtain ⟨b, linked⟩ := linked
  obtain ⟨node, node', found, -, twins⟩ := m.twins linked
  refine ⟨node, found, ?_⟩
  cases twins with
  | list twins => exact among_of_forall₂ twins
  | object twins =>
      intro slot member
      obtain ⟨entry, among, rfl⟩ := List.mem_map.mp member
      exact twins.among entry among

namespace Heap.Closed

theorem inside (closed : heap.Closed part) {address : Nat} (h : part address) :
    address < heap.nodes.size :=
  let ⟨_, found, _⟩ := closed address h
  Heap.inside_of_node? found

theorem addressesTo_among (closed : heap.Closed part) {depth : Nat} {around : List Nat}
    (outer : ∀ a ∈ around, part a) {slot : Slot} (among : slot.Among part) :
    ∀ a ∈ heap.addressesTo depth around slot, part a := by
  induction depth generalizing around slot with
  | zero =>
      cases slot <;> exact List.forall_mem_nil _
  | succ depth ih =>
      cases slot with
      | plain v => exact List.forall_mem_nil _
      | shared address =>
          have here : part address := among
          have outer' : ∀ a ∈ address :: around, part a := List.forall_mem_cons.mpr ⟨here, outer⟩
          obtain ⟨node, found, parts⟩ := closed address here
          rw [addressesTo]
          split
          · exact List.forall_mem_singleton.mpr here
          · rw [found]
            cases node with
            | list items =>
                refine List.forall_mem_cons.mpr ⟨here, ?_⟩
                intro a member
                obtain ⟨item, inside, member⟩ := List.mem_flatMap.mp member
                exact ih outer' (parts item inside) a member
            | object fields =>
                refine List.forall_mem_cons.mpr ⟨here, ?_⟩
                intro a member
                obtain ⟨field, inside, member⟩ := List.mem_flatMap.mp member
                exact ih outer' (parts field.2 (List.mem_map_of_mem inside)) a member

theorem addresses_among (closed : heap.Closed part) {slot : Slot} (among : slot.Among part) :
    ∀ a ∈ heap.addresses slot, part a :=
  closed.addressesTo_among (List.forall_mem_nil _) among

end Heap.Closed

theorem containersOfItems_map {α : Type} (read : α → Value) (addresses : α → List Nat) (items : List α)
    (same : ∀ item ∈ items, (read item).containers = (addresses item).length) :
    Value.containersOfItems (items.map read) = (items.flatMap addresses).length := by
  induction items with
  | nil => rfl
  | cons item rest ih =>
      obtain ⟨first, others⟩ := List.forall_mem_cons.mp same
      rw [List.map_cons, Value.containersOfItems, first, ih others, List.flatMap_cons, List.length_append]

theorem containersOfFields_map (read : Slot → Value) (addresses : Slot → List Nat) (fields : Entries Slot)
    (same : ∀ field ∈ fields, (read field.2).containers = (addresses field.2).length) :
    Value.containersOfFields (fields.map fun field => (field.1, read field.2)) =
      (fields.flatMap fun field => addresses field.2).length := by
  induction fields with
  | nil => rfl
  | cons field rest ih =>
      obtain ⟨first, others⟩ := List.forall_mem_cons.mp same
      rw [List.map_cons, Value.containersOfFields, first, ih others, List.flatMap_cons, List.length_append]

theorem Heap.Closed.containers_readTo (closed : heap.Closed part) {depth : Nat} {around : List Nat}
    {slot : Slot} (among : slot.Among part) :
    (heap.readTo depth around slot).containers = (heap.addressesTo depth around slot).length := by
  induction depth generalizing around slot with
  | zero =>
      cases slot with
      | plain v => cases v <;> rfl
      | shared address => rfl
  | succ depth ih =>
      cases slot with
      | plain v => cases v <;> rfl
      | shared address =>
          obtain ⟨node, found, parts⟩ := closed address among
          rw [readTo, addressesTo]
          simp only [found]
          by_cases again : around.contains address = true
          · cases node <;> simp only [again, if_true] <;> rfl
          · simp only [again, Bool.false_eq_true, if_false]
            cases node with
            | list items =>
                simp only [Option.map_some, Option.getD_some, Value.containers, List.length_cons]
                exact congrArg (· + 1) (containersOfItems_map (heap.readTo depth (address :: around)) _ items
                  fun item inside => ih (parts item inside))
            | object fields =>
                simp only [Option.map_some, Option.getD_some, Value.containers, List.length_cons]
                exact congrArg (· + 1) (containersOfFields_map (heap.readTo depth (address :: around)) _ fields
                  fun field inside => ih (parts field.2 (List.mem_map_of_mem inside)))

/-- The numbers start with those of some addresses. Addresses without a number have none to come. -/
def Feeds (label : Nat → Option Nat) (numbers addresses : List Nat) : Prop :=
  ∀ i a : Nat, addresses[i]? = some a → numbers[i]? = label a

namespace Feeds

variable {label : Nat → Option Nat} {numbers first rest : List Nat} {a : Nat}

theorem head (h : Feeds label numbers (a :: rest)) : numbers.head? = label a := by
  rw [List.head?_eq_getElem?]
  exact h 0 a rfl

theorem left (h : Feeds label numbers (first ++ rest)) : Feeds label numbers first := by
  intro i a found
  apply h i a
  rw [List.getElem?_append_left (List.getElem?_eq_some_iff.mp found).1, found]

theorem drop (h : Feeds label numbers (first ++ rest)) : Feeds label (numbers.drop first.length) rest := by
  intro i a found
  rw [List.getElem?_drop]
  apply h
  rw [List.getElem?_append_right (Nat.le_add_right _ _), Nat.add_sub_cancel_left, found]

end Feeds

/-- An address without a number comes only once, and nothing is linked to it yet. -/
def Single (label : Nat → Option Nat) (link : Link) (addresses : List Nat) : Prop :=
  ∀ a ∈ addresses, label a = none → addresses.count a = 1 ∧ ∀ b, ¬ link a b

namespace Single

variable {label : Nat → Option Nat} {link later : Link} {first rest : List Nat}

theorem left (h : Single label link (first ++ rest)) : Single label link first := by
  intro a member unnumbered
  obtain ⟨once, unlinked⟩ := h a (List.mem_append_left rest member) unnumbered
  have here := List.count_pos_iff.mpr member
  rw [List.count_append] at once
  exact ⟨by omega, unlinked⟩

theorem right (h : Single label link (first ++ rest))
    (only : ∀ {a b}, later a b → link a b ∨ a ∈ first) : Single label later rest := by
  intro a member unnumbered
  obtain ⟨once, unlinked⟩ := h a (List.mem_append_right first member) unnumbered
  have here := List.count_pos_iff.mpr member
  rw [List.count_append] at once
  refine ⟨by omega, ?_⟩
  intro b linked
  rcases only linked with before | among
  · exact unlinked b before
  · have there := List.count_pos_iff.mpr among
    omega

end Single

open Heap (Loading)

/-- What a loading has met stands for what is linked to it. The lists and objects at the addresses `around`
are open: their parts are not all there yet. -/
structure Copies (source : Heap) (label : Nat → Option Nat) (around : List Nat) (link : Link)
    (loading : Loading) : Prop where
  twins : ∀ {a b}, link a b → a ∉ around → ∃ node node', source.node? a = some node ∧
    loading.heap.node? b = some node' ∧ NodeTwin link node node'
  inside : ∀ {a b}, link a b → b < loading.heap.nodes.size
  eq_right : ∀ {a b b'}, link a b → link a b' → b = b'
  eq_left : ∀ {a a' b}, link a b → link a' b → a = a'
  met : ∀ {a n}, label a = some n → ∀ b, loading.address? (some n) = some b ↔ link a b

/-- Different addresses have different numbers. -/
def LabelsApart (label : Nat → Option Nat) : Prop :=
  ∀ {a a' n}, label a = some n → label a' = some n → a = a'

variable {source : Heap} {label : Nat → Option Nat} {around : List Nat} {loading : Loading}

namespace Copies

theorem renumbered (h : Copies source label around link loading) (numbers : List Nat) :
    Copies source label around link { loading with numbers } where
  twins := h.twins
  inside := h.inside
  eq_right := h.eq_right
  eq_left := h.eq_left
  met := h.met

theorem start (source heap : Heap) (label : Nat → Option Nat) :
    Copies source label [] ⊥ { heap } where
  twins := False.elim
  inside := False.elim
  eq_right := False.elim
  eq_left := False.elim
  met := by
    intro a n _ b
    simp only [Loading.address?, Option.bind_some, List.find?_nil, Option.map_none]
    exact iff_of_false (Option.some_ne_none b).symm id

theorem mirrors (h : Copies source label [] link loading) :
    Mirrors (fun _ => none) link source loading.heap where
  twins linked := h.twins linked (List.not_mem_nil)
  eq_right := h.eq_right
  eq_left := h.eq_left
  keeps := nofun

theorem address?_of_linked (h : Copies source label around link loading) {a b n : Nat}
    (numbered : label a = some n) (linked : link a b) : loading.address? (some n) = some b :=
  (h.met numbered b).mpr linked

theorem address?_of_unlinked (h : Copies source label around link loading) {a : Nat}
    (unlinked : ∀ b, ¬ link a b) : loading.address? (label a) = none := by
  cases numbered : label a with
  | none => rfl
  | some n =>
      cases known : loading.address? (some n) with
      | none => rfl
      | some b => exact absurd ((h.met numbered b).mp known) (unlinked b)

theorem opened (h : Copies source label around link loading) (apart : LabelsApart label) {a : Nat}
    (unlinked : ∀ b, ¬ link a b) (node : Node) :
    ∃ later, link ≤ later ∧ Copies source label (a :: around) later (loading.meet (label a) node).2 ∧
      later a (loading.meet (label a) node).1 ∧ ∀ {c d}, later c d → link c d ∨ c = a := by
  let later : Link := fun c d => link c d ∨ c = a ∧ d = loading.heap.nodes.size
  have grown : link ≤ later := fun _ _ linked => .inl linked
  refine ⟨later, grown, ⟨?_, ?_, ?_, ?_, ?_⟩, .inr ⟨rfl, rfl⟩, fun linked => linked.imp_right And.left⟩
  · rintro c d (linked | ⟨rfl, -⟩) closed
    · obtain ⟨one, other, found, found', same⟩ :=
        h.twins linked fun outer => closed (List.mem_cons_of_mem a outer)
      refine ⟨one, other, found, ?_, same.mono grown⟩
      exact (Heap.Extends.alloc loading.heap node).node? found'
    · exact absurd List.mem_cons_self closed
  · intro c d linked
    simp only [Loading.meet, Heap.size_alloc]
    rcases linked with linked | ⟨-, rfl⟩
    · exact Nat.lt_succ_of_lt (h.inside linked)
    · exact Nat.lt_succ_self _
  · rintro c d d' (linked | ⟨rfl, rfl⟩) (linked' | ⟨isNew, rfl⟩)
    · exact h.eq_right linked linked'
    · exact absurd (isNew ▸ linked) (unlinked d)
    · exact absurd linked' (unlinked d')
    · rfl
  · rintro c c' d (linked | ⟨rfl, rfl⟩) (linked' | ⟨rfl, isNew⟩)
    · exact h.eq_left linked linked'
    · exact absurd isNew (h.inside linked).ne
    · exact absurd rfl (h.inside linked').ne
    · rfl
  · intro c n numbered d
    by_cases same : label a = some n
    · cases apart numbered same
      simp only [Loading.meet, Loading.address?, same, Option.toList_some, List.map_cons, List.map_nil,
        List.cons_append, List.nil_append, Option.bind_some, List.find?_cons, decide_true, Option.map_some,
        Option.some.injEq]
      constructor
      · rintro rfl
        exact .inr ⟨rfl, rfl⟩
      · rintro (linked | ⟨-, isNew⟩)
        · exact absurd linked (unlinked d)
        · exact isNew.symm
    · have other : c ≠ a := by
        rintro rfl
        exact same numbered
      have before : (loading.meet (label a) node).2.address? (some n) = loading.address? (some n) := by
        simp only [Loading.meet, Loading.address?, Option.bind_some]
        cases number : label a with
        | none => rfl
        | some m =>
            have apart : m ≠ n := by
              rintro rfl
              exact same number
            simp [apart]
      rw [before, h.met numbered d]
      constructor
      · exact .inl
      · rintro (linked | ⟨isNew, -⟩)
        · exact linked
        · exact absurd isNew other

theorem filled {a b : Nat} (h : Copies source label (a :: around) link loading) (linked : link a b)
    {node node' : Node} (found : source.node? a = some node) (twin : NodeTwin link node node') :
    Copies source label around link (loading.fill b node') where
  twins := by
    intro c d linked' closed
    by_cases same : c = a
    · subst same
      cases h.eq_right linked linked'
      refine ⟨node, node', found, ?_, twin⟩
      simp only [Loading.fill, Heap.node?_put, h.inside linked, and_self, if_true]
    · have stillClosed : c ∉ a :: around := fun outer => closed ((List.mem_cons.mp outer).resolve_left same)
      obtain ⟨one, other, found, found', twins⟩ := h.twins linked' stillClosed
      have apart : b ≠ d := by
        rintro rfl
        exact same (h.eq_left linked' linked)
      refine ⟨one, other, found, ?_, twins⟩
      simp only [Loading.fill, Heap.node?_put, apart, false_and, if_false, found']
  inside linked' := by
    simpa [Loading.fill, Heap.put] using h.inside linked'
  eq_right := h.eq_right
  eq_left := h.eq_left
  met := h.met

end Copies

/-- What a loading needs to go on with values that have lists and objects at some addresses. -/
structure Ready (source : Heap) (label : Nat → Option Nat) (around : List Nat) (link : Link)
    (loading : Loading) (addresses : List Nat) : Prop where
  copies : Copies source label around link loading
  outer : ∀ a ∈ around, ∃ b, link a b
  feeds : Feeds label loading.numbers addresses
  single : Single label link addresses

/-- What a loading leaves that goes on with such values: these addresses became linked, and their numbers
are used up. -/
def Loads (source : Heap) (label : Nat → Option Nat) (around : List Nat) (link : Link)
    (loading : Loading) (addresses : List Nat) (Same : Link → Prop) (after : Loading) : Prop :=
  ∃ later, link ≤ later ∧ Copies source label around later after ∧ Same later ∧
    (∀ {a b}, later a b → link a b ∨ a ∈ addresses) ∧
    after.numbers = loading.numbers.drop addresses.length

variable {first rest addresses : List Nat} {mid after : Loading} {Same Same' : Link → Prop}

theorem Loads.imp (h : Loads source label around link loading addresses Same after)
    (weaker : ∀ later, Same later → Same' later) :
    Loads source label around link loading addresses Same' after := by
  obtain ⟨later, grown, copies, same, only, numbers⟩ := h
  exact ⟨later, grown, copies, weaker later same, only, numbers⟩

/-- Nothing is done for values without lists and objects. -/
theorem Ready.stay (h : Ready source label around link loading []) (same : Same link) :
    Loads source label around link loading [] Same loading :=
  ⟨link, le_refl link, h.copies, same, .inl, rfl⟩

theorem Ready.andThen (h : Ready source label around link loading (first ++ rest))
    (begins : Ready source label around link loading first →
      Loads source label around link loading first Same mid)
    (goesOn : ∀ later, Ready source label around later mid rest →
      Loads source label around later mid rest Same' after)
    (mono : ∀ {link later : Link}, link ≤ later → Same link → Same later) :
    Loads source label around link loading (first ++ rest) (fun link => Same link ∧ Same' link) after := by
  obtain ⟨later, grown, copies, same, only, numbers⟩ :=
    begins ⟨h.copies, h.outer, h.feeds.left, h.single.left⟩
  have outer : ∀ a ∈ around, ∃ b, later a b := by
    intro a member
    obtain ⟨b, linked⟩ := h.outer a member
    exact ⟨b, grown _ _ linked⟩
  obtain ⟨last, grown', copies, same', only', numbers'⟩ :=
    goesOn later ⟨copies, outer, numbers ▸ h.feeds.drop, h.single.right only⟩
  refine ⟨last, grown.trans grown', copies, ⟨mono grown' same, same'⟩, ?_, ?_⟩
  · intro a b linked
    rw [List.mem_append, ← or_assoc]
    exact (only' linked).imp_left only
  · rw [numbers', numbers, List.drop_drop, List.length_append]

theorem Ready.opened {a : Nat} (h : Ready source label around link loading (a :: rest))
    (apart : LabelsApart label) (unlinked : ∀ b, ¬ link a b) (node : Node) :
    ∃ later, link ≤ later ∧
      Ready source label (a :: around) later (loading.next.2.meet (label a) node).2 rest ∧
      later a (loading.next.2.meet (label a) node).1 ∧ ∀ {c d}, later c d → link c d ∨ c ∈ [a] := by
  obtain ⟨later, grown, copies, linked, only⟩ :=
    (h.copies.renumbered (loading.numbers.drop 1)).opened apart unlinked node
  have only : ∀ {c d}, later c d → link c d ∨ c ∈ [a] := fun linked =>
    (only linked).imp_right List.mem_singleton.mpr
  have parts : Feeds label (loading.numbers.drop [a].length) rest := h.feeds.drop
  have single : Single label link ([a] ++ rest) := h.single
  refine ⟨later, grown, ⟨copies, ?_, parts, single.right only⟩, linked, only⟩
  intro c member
  rcases List.mem_cons.mp member with rfl | outer
  · exact ⟨_, linked⟩
  · obtain ⟨b, linked⟩ := h.outer c outer
    exact ⟨b, grown _ _ linked⟩

theorem Ready.next_eq {a : Nat} (h : Ready source label around link loading (a :: rest)) :
    loading.next.1 = label a :=
  h.feeds.head

theorem Ready.notMet {a : Nat} (h : Ready source label around link loading (a :: rest))
    (unlinked : ∀ b, ¬ link a b) : loading.next.2.address? (label a) = none :=
  (h.copies.renumbered (loading.numbers.drop 1)).address?_of_unlinked unlinked

theorem Loads.closed {a b : Nat} {later : Link} {opened : Loading}
    (h : Loads source label (a :: around) later opened rest Same after) (grown : link ≤ later)
    (only : ∀ {c d}, later c d → link c d ∨ c ∈ [a])
    (numbers : opened.numbers = loading.numbers.drop 1) (linked : later a b) {node node' : Node}
    (found : source.node? a = some node) (twin : ∀ later, Same later → NodeTwin later node node') :
    Loads source label around link loading (a :: rest) (fun link => Twin link (.shared a) (.shared b))
      (after.fill b node') := by
  obtain ⟨last, grown', copies, same, only', numbers'⟩ := h
  have linked := grown' _ _ linked
  refine ⟨last, grown.trans grown', copies.filled linked found (twin last same), .shared linked, ?_, ?_⟩
  · intro c d linked
    rw [← List.singleton_append, List.mem_append, ← or_assoc]
    exact (only' linked).imp_left only
  · rw [← List.singleton_append, List.length_append, ← List.drop_drop]
    exact numbers'.trans (congrArg (List.drop rest.length) numbers)

theorem Ready.again {a b : Nat} (h : Ready source label around link loading (a :: rest))
    (linked : link a b) :
    loading.next.2.address? loading.next.1 = some b ∧
      Loads source label around link loading (a :: rest)
        (fun link => Twin link (.shared a) (.shared b)) (loading.next.2.pass rest.length) := by
  obtain ⟨n, numbered⟩ : ∃ n, label a = some n := by
    cases numbered : label a with
    | some n => exact ⟨n, rfl⟩
    | none => exact absurd linked ((h.single a List.mem_cons_self numbered).2 b)
  have known : loading.address? (some n) = some b := h.copies.address?_of_linked numbered linked
  have next : loading.next.1 = some n := h.feeds.head.trans numbered
  refine ⟨next ▸ known, link, le_refl link, h.copies.renumbered _, .shared linked, .inl, ?_⟩
  simp only [Loading.pass, Loading.next, List.drop_drop, List.length_cons]
  rw [Nat.add_comm]

/-- From wherever a loading stands, it loads the value of a slot as a twin of the slot. -/
def Copyable (source : Heap) (label : Nat → Option Nat) (depth : Nat) (around : List Nat)
    (slot : Slot) : Prop :=
  ∀ {link : Link} {loading : Loading},
    Ready source label around link loading (source.addressesTo depth around slot) →
      Loads source label around link loading (source.addressesTo depth around slot)
        (fun link => Twin link slot (loading.load (source.readTo depth around slot)).1)
        (loading.load (source.readTo depth around slot)).2

variable {depth : Nat}

theorem loadItems_copies {items : List Slot}
    (each : ∀ slot ∈ items, Copyable source label depth around slot) {link : Link} {loading : Loading}
    (ready : Ready source label around link loading (items.flatMap (source.addressesTo depth around))) :
    Loads source label around link loading (items.flatMap (source.addressesTo depth around))
      (fun link => List.Forall₂ (Twin link) items
        (loading.loadItems (items.map (source.readTo depth around))).1)
      (loading.loadItems (items.map (source.readTo depth around))).2 := by
  induction items generalizing link loading with
  | nil => exact ready.stay .nil
  | cons slot rest ih =>
      obtain ⟨first, others⟩ := List.forall_mem_cons.mp each
      have both := ready.andThen first (fun later ready => ih others ready) fun grown twin => twin.mono grown
      exact both.imp fun later same => .cons same.1 same.2

theorem loadFields_copies {fields : Entries Slot}
    (each : ∀ field ∈ fields, Copyable source label depth around field.2) {link : Link}
    {loading : Loading}
    (ready : Ready source label around link loading
      (fields.flatMap fun field => source.addressesTo depth around field.2)) :
    Loads source label around link loading
      (fields.flatMap fun field => source.addressesTo depth around field.2)
      (fun link => FieldTwins link fields
        (loading.loadFields (fields.map fun field => (field.1, source.readTo depth around field.2))).1)
      (loading.loadFields (fields.map fun field => (field.1, source.readTo depth around field.2))).2 := by
  induction fields generalizing link loading with
  | nil => exact ready.stay .nil
  | cons field rest ih =>
      obtain ⟨first, others⟩ := List.forall_mem_cons.mp each
      have both := ready.andThen first (fun later ready => ih others ready) fun grown twin => twin.mono grown
      exact both.imp fun later same => .cons ⟨rfl, same.1⟩ same.2

theorem load_met {v : Value} (container : v.isContainer = true) {b : Nat}
    (known : loading.next.2.address? loading.next.1 = some b) :
    loading.load v = (.shared b, loading.next.2.pass (v.containers - 1)) := by
  cases v with
  | list items | object fields => simp only [Loading.load, known, Value.containers, Nat.add_sub_cancel]
  | null | bool | int | float | str => cases container

theorem load_copies_of_linked {part : Nat → Prop} (closed : source.Closed part) {a b : Nat} (among : part a)
    {link : Link} {loading : Loading} (linked : link a b)
    (ready : Ready source label around link loading (source.addressesTo (depth + 1) around (.shared a))) :
    Loads source label around link loading (source.addressesTo (depth + 1) around (.shared a))
      (fun link => Twin link (.shared a) (loading.load (source.readTo (depth + 1) around (.shared a))).1)
      (loading.load (source.readTo (depth + 1) around (.shared a))).2 := by
  obtain ⟨node, found, -⟩ := closed a among
  have containers : (source.readTo (depth + 1) around (.shared a)).containers = _ :=
    closed.containers_readTo among
  have container : (source.readTo (depth + 1) around (.shared a)).isContainer = true := by
    rw [Heap.readTo, found]
    cases node <;> rfl
  obtain ⟨rest, start⟩ : ∃ rest, source.addressesTo (depth + 1) around (.shared a) = a :: rest := by
    rw [Heap.addressesTo, found]
    split
    · exact ⟨[], rfl⟩
    · cases node <;> exact ⟨_, rfl⟩
  rw [start] at ready containers ⊢
  obtain ⟨known, loads⟩ := ready.again linked
  rw [load_met container known, containers]
  exact loads

/-- The value of a slot is loaded as a twin of the slot, if nothing on the way is missing and as many
addresses may be followed as there are. -/
theorem load_copies {part : Nat → Prop} (closed : source.Closed part) (apart : LabelsApart label)
    {around : List Nat} (unique : around.Nodup) (outer : ∀ a ∈ around, part a)
    (enough : source.nodes.size < depth + around.length) {slot : Slot} (among : slot.Among part) :
    Copyable source label depth around slot := by
  induction depth generalizing around slot with
  | zero =>
      have few := Reading.length_le_of_inside unique fun a member => closed.inside (outer a member)
      omega
  | succ depth ih =>
      intro link loading ready
      cases slot with
      | plain v => cases v <;> exact ready.stay (.plain _)
      | shared a =>
          obtain ⟨node, found, parts⟩ := closed a among
          by_cases linked : ∃ b, link a b
          · obtain ⟨b, linked⟩ := linked
            exact load_copies_of_linked closed among linked ready
          · have unlinked : ∀ b, ¬ link a b := not_exists.mp linked
            have new : a ∉ around := fun member => linked (ready.outer a member)
            have unique' : (a :: around).Nodup := List.nodup_cons.mpr ⟨new, unique⟩
            have outer' : ∀ b ∈ a :: around, part b := List.forall_mem_cons.mpr ⟨among, outer⟩
            have enough' : source.nodes.size < depth + (a :: around).length := by
              rw [List.length_cons]
              omega
            cases node with
            | list items =>
                have value : source.readTo (depth + 1) around (.shared a) =
                    .list (items.map (source.readTo depth (a :: around))) := by
                  simp [Heap.readTo, found, new]
                have addresses : source.addressesTo (depth + 1) around (.shared a) =
                    a :: items.flatMap (source.addressesTo depth (a :: around)) := by
                  simp [Heap.addressesTo, found, new]
                rw [addresses] at ready ⊢
                obtain ⟨later, grown, inner, here, only⟩ := ready.opened apart unlinked (.list [])
                have loads := loadItems_copies
                  (fun item member => ih unique' outer' enough' (parts item member)) inner
                rw [value, Loading.load]
                simp only [ready.next_eq, ready.notMet unlinked]
                exact loads.closed grown only rfl here found fun later twins => .list twins
            | object fields =>
                have value : source.readTo (depth + 1) around (.shared a) =
                    .object (fields.map fun field => (field.1, source.readTo depth (a :: around) field.2)) := by
                  simp [Heap.readTo, found, new]
                have addresses : source.addressesTo (depth + 1) around (.shared a) =
                    a :: fields.flatMap fun field => source.addressesTo depth (a :: around) field.2 := by
                  simp [Heap.addressesTo, found, new]
                rw [addresses] at ready ⊢
                obtain ⟨later, grown, inner, here, only⟩ := ready.opened apart unlinked (.object [])
                have loads := loadFields_copies (fun field member =>
                  ih unique' outer' enough' (parts field.2 (List.mem_map_of_mem member))) inner
                rw [value, Loading.load]
                simp only [ready.next_eq, ready.notMet unlinked]
                exact loads.closed grown only rfl here found fun later twins => .object twins

variable {part : Nat → Prop}

theorem load_read_copies (closed : source.Closed part) (apart : LabelsApart label) {slot : Slot}
    (among : slot.Among part) {link : Link} {loading : Loading}
    (copies : Copies source label [] link loading)
    (feeds : Feeds label loading.numbers (source.addresses slot))
    (single : Single label link (source.addresses slot)) :
    Loads source label [] link loading (source.addresses slot)
      (fun link => Twin link slot (loading.load (source.read slot)).1) (loading.load (source.read slot)).2 :=
  load_copies closed apart .nil (List.forall_mem_nil _) (Nat.lt_succ_self _) among
    ⟨copies, List.forall_mem_nil _, feeds, single⟩

/-- The fields of a record are loaded as twins of the slots that they were read of. -/
theorem loadRecordFields_copies (closed : source.Closed part) (apart : LabelsApart label)
    {identities : Entries (List Nat)} {slots : Entries Slot} (among : ∀ entry ∈ slots, entry.2.Among part)
    (feeds : ∀ entry ∈ slots,
      Feeds label ((Entries.get? identities entry.1).getD []) (source.addresses entry.2))
    {link : Link} {loading : Loading} (copies : Copies source label [] link loading)
    (single : Single label link (slots.flatMap fun entry => source.addresses entry.2)) :
    ∃ later, link ≤ later ∧
      Copies source label [] later (Loading.loadRecordFields identities loading
        (slots.map fun entry => (entry.1, source.read entry.2))).2 ∧
      FieldTwins later slots (Loading.loadRecordFields identities loading
        (slots.map fun entry => (entry.1, source.read entry.2))).1 := by
  induction slots generalizing link loading with
  | nil => exact ⟨link, le_refl link, copies, .nil⟩
  | cons entry rest ih =>
      obtain ⟨here, among⟩ := List.forall_mem_cons.mp among
      obtain ⟨numbers, feeds⟩ := List.forall_mem_cons.mp feeds
      rw [List.flatMap_cons] at single
      obtain ⟨mid, grown, copies, twin, only, -⟩ :=
        load_read_copies closed apart here (copies.renumbered _) numbers single.left
      obtain ⟨later, grown', copies, twins⟩ := ih among feeds copies (single.right only)
      exact ⟨later, grown.trans grown', copies, .cons ⟨rfl, twin.mono grown'⟩ twins⟩

end GuardedStore.Expression
