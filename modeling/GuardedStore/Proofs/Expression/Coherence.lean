import GuardedStore.Proofs.Expression.Copying

/-! # Coherent records

The numbers of a record tell which of its lists and objects are one. They are coherent if there could be
lists and objects in a heap that have them. Whatever is written as a record is coherent, and it stays so when
records are laid over each other or lose fields. A coherent record is loaded as it was written: each field is
read back with its value, however its lists and objects share others or hold themselves.
-/

namespace GuardedStore

namespace Entries

variable {α β : Type}

theorem map_set (f : α → β) (entries : Entries α) (name : String) (value : α) :
    ((set entries name value).map fun entry => (entry.1, f entry.2)) =
      set (entries.map fun entry => (entry.1, f entry.2)) name (f value) := by
  induction entries with
  | nil => rfl
  | cons entry rest ih =>
      simp only [set, List.map_cons]
      split
      · rfl
      · rw [List.map_cons, ih]

theorem map_overlay (f : α → β) (entries others : Entries α) :
    ((overlay entries others).map fun entry => (entry.1, f entry.2)) =
      overlay (entries.map fun entry => (entry.1, f entry.2)) (others.map fun entry => (entry.1, f entry.2)) := by
  induction others generalizing entries with
  | nil => rfl
  | cons entry rest ih => rw [overlay_cons, ih, map_set, List.map_cons, overlay_cons]

theorem has_iff {entries : Entries α} {name : String} :
    has entries name = true ↔ name ∈ names entries := by
  simp [has, names]

theorem mem_names_filter (keep : String → Bool) {entries : Entries α} {name : String} :
    name ∈ names (entries.filter fun entry => keep entry.1) ↔ name ∈ names entries ∧ keep name := by
  simp [names]

theorem mem_iff_get? {entries : Entries α} (unique : (names entries).Nodup) {entry : String × α} :
    entry ∈ entries ↔ get? entries entry.1 = some entry.2 :=
  ⟨get?_of_mem unique, mem_of_get?⟩

/-- What is laid over entries replaces those of its names. -/
theorem mem_overlay {entries others : Entries α} (unique : (names entries).Nodup)
    (unique' : (names others).Nodup) {entry : String × α} (h : entry ∈ overlay entries others) :
    entry ∈ others ∨ entry ∈ entries ∧ entry.1 ∉ names others := by
  rw [mem_iff_get? (nodup_overlay unique others), get?_overlay unique', Option.or_eq_some_iff] at h
  rcases h with found | ⟨missing, found⟩
  · exact .inl (mem_of_get? found)
  · exact .inr ⟨mem_of_get? found, get?_eq_none_iff.mp missing⟩

end Entries

namespace Record

theorem lt_foldl_bound {n : Nat} {numbers : List Nat} {start : Nat} (h : n < start ∨ n ∈ numbers) :
    n < numbers.foldl (fun bound n => max bound (n + 1)) start := by
  induction numbers generalizing start with
  | nil => simpa using h
  | cons m rest ih =>
      apply ih
      rw [List.mem_cons] at h
      rcases h with below | rfl | later
      · exact .inl (below.trans_le (le_max_left _ _))
      · exact .inl (le_max_right start (n + 1))
      · exact .inr later

theorem lt_bound {record : Record} {name : String} {numbers : List Nat}
    (found : Entries.get? record.identities name = some numbers) {n : Nat} (member : n ∈ numbers) :
    n < record.bound :=
  lt_foldl_bound (.inr (List.mem_flatMap.mpr ⟨_, Entries.mem_of_get? found, member⟩))

end Record

namespace Expression

def Slot.renamed (f : Nat → Nat) : Slot → Slot
  | .plain v => .plain v
  | .shared address => .shared (f address)

def Node.renamed (f : Nat → Nat) : Node → Node
  | .list items => .list (items.map (Slot.renamed f))
  | .object fields => .object (fields.map fun field => (field.1, field.2.renamed f))

@[simp]
theorem Slot.renamed_id : Slot.renamed id = id := by
  funext slot
  cases slot <;> rfl

@[simp]
theorem Node.renamed_id (node : Node) : node.renamed id = node := by
  cases node <;> simp [Node.renamed]

/-- A part of a heap stands in another heap, at addresses that a function gives. -/
structure Moves (heap : Heap) (part : Nat → Prop) (f : Nat → Nat) (later : Heap) : Prop where
  closed : heap.Closed part
  injective : Function.Injective f
  found : ∀ {a}, part a → later.node? (f a) = (heap.node? a).map (Node.renamed f)

namespace Moves

variable {heap later : Heap} {part : Nat → Prop} {f : Nat → Nat}

theorem twin {slot : Slot} (among : slot.Among part) :
    Twin (fun a b => part a ∧ b = f a) slot (slot.renamed f) := by
  cases slot with
  | plain v => exact .plain v
  | shared address => exact .shared ⟨among, rfl⟩

theorem mirrors (h : Moves heap part f later) :
    Mirrors (fun _ => none) (fun a b => part a ∧ b = f a) heap later where
  twins := by
    rintro a b ⟨inside, rfl⟩
    obtain ⟨node, found, among⟩ := h.closed a inside
    refine ⟨node, node.renamed f, found, by rw [h.found inside, found]; rfl, ?_⟩
    cases node with
    | list items =>
        refine .list (List.forall₂_map_right_iff.mpr (List.forall₂_same.mpr ?_))
        exact fun item member => twin (among item member)
    | object fields =>
        refine .object (List.forall₂_map_right_iff.mpr (List.forall₂_same.mpr ?_))
        exact fun field member => ⟨rfl, twin (among field.2 (List.mem_map_of_mem member))⟩
  eq_right := by
    rintro a b b' ⟨-, rfl⟩ ⟨-, rfl⟩
    rfl
  eq_left := by
    rintro a a' b ⟨-, rfl⟩ ⟨-, same⟩
    exact h.injective same
  keeps := nofun

theorem read_eq (h : Moves heap part f later) {slot : Slot} (among : slot.Among part) :
    later.read (slot.renamed f) = heap.read slot :=
  (h.mirrors.read_eq (twin among)).symm

theorem addresses_eq (h : Moves heap part f later) {slot : Slot} (among : slot.Among part) :
    later.addresses (slot.renamed f) = (heap.addresses slot).map f := by
  have linked := h.mirrors.addresses_linked (twin among)
  generalize heap.addresses slot = one, later.addresses (slot.renamed f) = other at linked ⊢
  induction linked with
  | nil => rfl
  | cons first _ ih => rw [List.map_cons, ih, first.2]

theorem among_renamed {slot : Slot} (among : slot.Among part) :
    (slot.renamed f).Among fun b => ∃ a, part a ∧ b = f a := by
  cases slot with
  | plain v => trivial
  | shared address => exact ⟨address, among, rfl⟩

theorem closed_image (h : Moves heap part f later) : later.Closed fun b => ∃ a, part a ∧ b = f a := by
  rintro b ⟨a, inside, rfl⟩
  obtain ⟨node, found, among⟩ := h.closed a inside
  refine ⟨node.renamed f, by rw [h.found inside, found]; rfl, ?_⟩
  intro slot member
  have renamed : ∃ one ∈ node.slots, slot = one.renamed f := by
    cases node with
    | list items =>
        obtain ⟨one, here, rfl⟩ := List.mem_map.mp member
        exact ⟨one, here, rfl⟩
    | object fields =>
        simp only [Node.renamed, Node.slots, List.map_map, List.mem_map] at member
        obtain ⟨field, here, rfl⟩ := member
        exact ⟨field.2, List.mem_map_of_mem here, rfl⟩
  obtain ⟨one, here, rfl⟩ := renamed
  exact among_renamed (among one here)

end Moves

theorem Heap.Closed.stays {heap later : Heap} {part : Nat → Prop} (closed : heap.Closed part)
    (same : ∀ a, part a → later.node? a = heap.node? a) : Moves heap part id later where
  closed := closed
  injective := Function.injective_id
  found {a} inside := by
    rw [id, same a inside]
    cases heap.node? a <;> simp

theorem Heap.Closed.moves_extends {heap later : Heap} {part : Nat → Prop} (closed : heap.Closed part)
    (grown : Heap.Extends heap later) : Moves heap part id later :=
  closed.stays fun a inside => grown.2 a (closed.inside inside)

/-- Two heaps side by side. The addresses of the second one are raised by the size of the first one. -/
def Heap.beside (heap other : Heap) : Heap :=
  ⟨heap.nodes ++ other.nodes.map (Node.renamed (· + heap.nodes.size))⟩

theorem Heap.extends_beside (heap other : Heap) : Heap.Extends heap (heap.beside other) := by
  refine ⟨by simp [beside], fun address inside => ?_⟩
  simp [beside, node?, Array.getElem?_append_left inside]

theorem Heap.Closed.moves_beside {heap other : Heap} {part : Nat → Prop} (closed : other.Closed part) :
    Moves other part (· + heap.nodes.size) (heap.beside other) where
  closed := closed
  injective := add_left_injective _
  found := by
    intro a inside
    simp [beside, node?, Array.getElem?_append_right]

section

variable {heap later : Heap} {part : Nat → Prop} {slot : Slot} {fields : Entries Slot}

theorem Heap.Closed.among_fields (closed : heap.Closed part) (among : slot.Among part)
    (found : heap.fields? slot = some fields) : ∀ entry ∈ fields, entry.2.Among part := by
  intro entry member
  obtain ⟨address, rfl, stands⟩ := Heap.fields?_eq_some_iff.mp found
  obtain ⟨node, there, inner⟩ := closed address among
  cases stands.symm.trans there
  exact inner entry.2 (List.mem_map_of_mem member)

theorem Heap.Closed.mono (closed : heap.Closed part) (grown : Heap.Extends heap later) : later.Closed part := by
  intro a inside
  obtain ⟨node, found, among⟩ := closed a inside
  exact ⟨node, grown.node? found, among⟩

namespace Moves

theorem fields?_eq (stays : Moves heap part id later) (among : slot.Among part) :
    later.fields? slot = heap.fields? slot := by
  cases slot with
  | plain v => rfl
  | shared address =>
      obtain ⟨node, stands, -⟩ := stays.closed address among
      have same : later.node? address = heap.node? address := by
        simpa [stands] using stays.found among
      rw [Heap.fields?, Heap.fields?, same]

theorem record_eq (stays : Moves heap part id later) (among : ∀ entry ∈ fields, entry.2.Among part) :
    later.record fields = heap.record fields := by
  have read : ∀ entry ∈ fields, (entry.1, later.read entry.2) = (entry.1, heap.read entry.2) := by
    intro entry member
    have same := stays.read_eq (among entry member)
    rw [Slot.renamed_id, id] at same
    rw [same]
  have addresses : ∀ entry ∈ fields, (entry.1, later.addresses entry.2) = (entry.1, heap.addresses entry.2) := by
    intro entry member
    have same := stays.addresses_eq (among entry member)
    rw [Slot.renamed_id, id, List.map_id] at same
    rw [same]
  simp only [Heap.record, List.map_congr_left read, List.map_congr_left addresses]

theorem readRecord_eq (stays : Moves heap part id later) (among : slot.Among part) :
    later.readRecord slot = heap.readRecord slot := by
  rw [Heap.readRecord, Heap.readRecord, stays.fields?_eq among]
  cases found : heap.fields? slot with
  | none => rfl
  | some fields => exact stays.record_eq (stays.closed.among_fields among found)

end Moves

end

variable {heap later : Heap} {label label' : Nat → Option Nat} {slots slots' : Entries Slot}
  {record other : Record} {f g : Nat → Nat}

theorem Slot.Among.imp {part part' : Nat → Prop} {slot : Slot} (h : slot.Among part)
    (more : ∀ a, part a → part' a) : slot.Among part' := by
  cases slot with
  | plain v => trivial
  | shared address => exact more address h

theorem Heap.Closed.or {part part' : Nat → Prop} (closed : heap.Closed part)
    (closed' : heap.Closed part') : heap.Closed fun a => part a ∨ part' a := by
  intro a inside
  rcases inside with one | other
  · obtain ⟨node, found, among⟩ := closed a one
    exact ⟨node, found, fun slot member => (among slot member).imp fun _ => .inl⟩
  · obtain ⟨node, found, among⟩ := closed' a other
    exact ⟨node, found, fun slot member => (among slot member).imp fun _ => .inr⟩

theorem Feeds.map {numbers addresses : List Nat} (h : Feeds label numbers addresses)
    (labels : ∀ a ∈ addresses, label' (f a) = (label a).map g) :
    Feeds label' (numbers.map g) (addresses.map f) := by
  intro i b found
  rw [List.getElem?_map, Option.map_eq_some_iff] at found
  obtain ⟨a, found, rfl⟩ := found
  rw [List.getElem?_map, h i a found, labels a (List.mem_of_getElem? found)]

/-- A record holds what is read of some slots, under numbers that some addresses have. A list or object
without a number stands in one place only. -/
structure Depicts (heap : Heap) (label : Nat → Option Nat) (slots : Entries Slot) (record : Record) :
    Prop where
  unique : (Entries.names slots).Nodup
  fields : record.fields = slots.map fun entry => (entry.1, heap.read entry.2)
  numbered : ∀ name ∈ Entries.names record.identities, name ∈ Entries.names slots
  closed : ∃ part, heap.Closed part ∧ ∀ entry ∈ slots, entry.2.Among part
  apart : LabelsApart label
  feeds : ∀ entry ∈ slots,
    Feeds label ((Entries.get? record.identities entry.1).getD []) (heap.addresses entry.2)
  sole : ∀ entry ∈ slots, ∀ a ∈ heap.addresses entry.2, label a = none →
    (heap.addresses entry.2).count a = 1 ∧
      ∀ other ∈ slots, a ∈ heap.addresses other.2 → other = entry

namespace Depicts

theorem names_eq (h : Depicts heap label slots record) :
    Entries.names record.fields = Entries.names slots := by
  rw [h.fields, Entries.names_map]

theorem addresses_inside (h : Depicts heap label slots record) {entry : String × Slot}
    (member : entry ∈ slots) {a : Nat} (among : a ∈ heap.addresses entry.2) : a < heap.nodes.size := by
  obtain ⟨part, closed, inside⟩ := h.closed
  exact closed.inside (closed.addresses_among (inside entry member) a among)

theorem label_lt (h : Depicts heap label slots record) {entry : String × Slot} (member : entry ∈ slots)
    {a n : Nat} (among : a ∈ heap.addresses entry.2) (numbered : label a = some n) : n < record.bound := by
  obtain ⟨i, place⟩ := List.mem_iff_getElem?.mp among
  have found := (h.feeds entry member i a place).trans numbered
  cases numbers : Entries.get? record.identities entry.1 with
  | none =>
      rw [numbers] at found
      cases found
  | some ns =>
      rw [numbers] at found
      exact Record.lt_bound numbers (List.mem_of_getElem? found)

/-- The record is depicted wherever the lists and objects are moved and whatever numbers they are given. -/
theorem moved (h : Depicts heap label slots record)
    (moves : ∀ {part}, heap.Closed part → Moves heap part f later) (apart : LabelsApart label')
    (labels : ∀ entry ∈ slots, ∀ a ∈ heap.addresses entry.2, label' (f a) = (label a).map g) :
    Depicts later label' (slots.map fun entry => (entry.1, entry.2.renamed f))
      ⟨record.fields, record.identities.map fun entry => (entry.1, entry.2.map g)⟩ := by
  obtain ⟨part, closed, among⟩ := h.closed
  have moves := moves closed
  constructor
  · rw [Entries.names_map]
    exact h.unique
  · rw [h.fields, List.map_map]
    exact List.map_congr_left fun entry member => Prod.ext rfl (moves.read_eq (among entry member)).symm
  · rw [Entries.names_map, Entries.names_map]
    exact h.numbered
  · refine ⟨_, moves.closed_image, ?_⟩
    intro entry member
    obtain ⟨one, here, rfl⟩ := List.mem_map.mp member
    exact Moves.among_renamed (among one here)
  · exact apart
  · intro entry member
    obtain ⟨one, here, rfl⟩ := List.mem_map.mp member
    have feeds := (h.feeds one here).map (labels one here)
    rw [moves.addresses_eq (among one here), Entries.get?_map]
    cases found : Entries.get? record.identities one.1 <;> simpa [found] using feeds
  · intro entry member b linked unnumbered
    obtain ⟨one, here, rfl⟩ := List.mem_map.mp member
    rw [moves.addresses_eq (among one here)] at linked ⊢
    obtain ⟨a, place, rfl⟩ := List.mem_map.mp linked
    rw [labels one here a place, Option.map_eq_none_iff] at unnumbered
    obtain ⟨once, only⟩ := h.sole one here a place unnumbered
    rw [List.count_map_of_injective _ _ moves.injective]
    refine ⟨once, ?_⟩
    intro entry' member' linked'
    obtain ⟨other, there, rfl⟩ := List.mem_map.mp member'
    rw [moves.addresses_eq (among other there), List.mem_map_of_injective moves.injective] at linked'
    rw [only other there linked']

theorem overlay (h : Depicts heap label slots record) (h' : Depicts heap label slots' other)
    (disjoint : ∀ entry ∈ slots, ∀ entry' ∈ slots', ∀ a ∈ heap.addresses entry.2,
      a ∉ heap.addresses entry'.2) :
    Depicts heap label (Entries.overlay slots slots')
      ⟨Entries.overlay record.fields other.fields,
        (record.identities.filter fun entry => !Entries.has other.fields entry.1) ++ other.identities⟩ := by
  constructor
  · exact Entries.nodup_overlay h.unique slots'
  · rw [Entries.map_overlay, ← h.fields, ← h'.fields]
  · intro name member
    rw [Entries.mem_names_overlay]
    rw [Entries.names, List.map_append, List.mem_append] at member
    rcases member with kept | taken
    · exact .inl (h.numbered name ((List.filter_sublist.map _).subset kept))
    · exact .inr (h'.numbered name taken)
  · obtain ⟨part, closed, among⟩ := h.closed
    obtain ⟨part', closed', among'⟩ := h'.closed
    refine ⟨_, closed.or closed', ?_⟩
    intro entry member
    rcases Entries.mem_overlay h.unique h'.unique member with taken | ⟨kept, -⟩
    · exact (among' entry taken).imp fun _ => .inr
    · exact (among entry kept).imp fun _ => .inl
  · exact h.apart
  · intro entry member
    rw [Entries.get?_append, Entries.get?_filter (fun name => !Entries.has other.fields name)]
    rcases Entries.mem_overlay h.unique h'.unique member with taken | ⟨kept, new⟩
    · have has : Entries.has other.fields entry.1 = true := by
        rw [Entries.has_iff, h'.names_eq]
        exact Entries.mem_names_iff.mpr ⟨_, taken⟩
      simpa [has] using h'.feeds entry taken
    · have has : Entries.has other.fields entry.1 = false := by
        rw [Bool.eq_false_iff, ne_eq, Entries.has_iff, h'.names_eq]
        exact new
      have none : Entries.get? other.identities entry.1 = none :=
        Entries.get?_eq_none_iff.mpr fun numbered => new (h'.numbered _ numbered)
      simpa [has, none] using h.feeds entry kept
  · intro entry member a linked unnumbered
    rcases Entries.mem_overlay h.unique h'.unique member with taken | ⟨kept, -⟩
    · obtain ⟨once, only⟩ := h'.sole entry taken a linked unnumbered
      refine ⟨once, ?_⟩
      intro one member' linked'
      rcases Entries.mem_overlay h.unique h'.unique member' with taken' | ⟨kept', -⟩
      · exact only one taken' linked'
      · exact absurd linked (disjoint one kept' entry taken a linked')
    · obtain ⟨once, only⟩ := h.sole entry kept a linked unnumbered
      refine ⟨once, ?_⟩
      intro one member' linked'
      rcases Entries.mem_overlay h.unique h'.unique member' with taken' | ⟨kept', -⟩
      · exact absurd linked' (disjoint entry kept one taken' a linked)
      · exact only one kept' linked'

theorem fewer (h : Depicts heap label slots record) (unique : (Entries.names slots').Nodup)
    (among : ∀ entry ∈ slots', entry ∈ slots)
    (fields : other.fields = slots'.map fun entry => (entry.1, heap.read entry.2))
    (numbered : ∀ name ∈ Entries.names other.identities, name ∈ Entries.names slots')
    (numbers : ∀ entry ∈ slots',
      Entries.get? other.identities entry.1 = Entries.get? record.identities entry.1) :
    Depicts heap label slots' other where
  unique := unique
  fields := fields
  numbered := numbered
  closed := by
    obtain ⟨part, closed, inside⟩ := h.closed
    exact ⟨part, closed, fun entry member => inside entry (among entry member)⟩
  apart := h.apart
  feeds entry member := numbers entry member ▸ h.feeds entry (among entry member)
  sole entry member a linked unnumbered := by
    obtain ⟨once, only⟩ := h.sole entry (among entry member) a linked unnumbered
    exact ⟨once, fun one member' => only one (among one member')⟩

end Depicts

/-- There could be lists and objects with the numbers of the record. -/
def Coherent (record : Record) : Prop :=
  ∃ heap label slots, Depicts heap label slots record

theorem sole_of_nodup (unique : (slots.flatMap fun entry => heap.addresses entry.2).Nodup)
    {entry : String × Slot} (member : entry ∈ slots) {a : Nat} (linked : a ∈ heap.addresses entry.2) :
    (heap.addresses entry.2).count a = 1 ∧
      ∀ other ∈ slots, a ∈ heap.addresses other.2 → other = entry := by
  obtain ⟨each, disjoint⟩ := List.nodup_flatMap.mp unique
  have : Std.Symm (Function.onFun List.Disjoint fun entry : String × Slot => heap.addresses entry.2) :=
    ⟨fun _ _ apart => apart.symm⟩
  refine ⟨List.count_eq_one_of_mem (each entry member) linked, ?_⟩
  intro other member' linked'
  by_contra different
  exact disjoint.forall member' member different linked' linked

theorem coherent_record {part : Nat → Prop} (closed : heap.Closed part)
    (among : ∀ entry ∈ slots, entry.2.Among part) (unique : (Entries.names slots).Nodup) :
    Coherent (heap.record slots) := by
  have addresses : ∀ entry ∈ slots,
      Entries.get? (slots.map fun entry => (entry.1, heap.addresses entry.2)) entry.1 =
        some (heap.addresses entry.2) := by
    intro entry member
    rw [Entries.get?_map, Entries.get?_of_mem unique member, Option.map_some]
  by_cases once : (slots.flatMap fun entry => heap.addresses entry.2).Nodup
  · refine ⟨heap, fun _ => none, slots, unique, rfl, ?_, ⟨part, closed, among⟩, ?_, ?_, ?_⟩
    · simp [Heap.record, List.flatMap_map, once, Entries.names]
    · rintro a a' n ⟨⟩
    · intro entry member i a _
      simp [Heap.record, List.flatMap_map, once]
    · intro entry member a linked _
      exact sole_of_nodup once member linked
  · refine ⟨heap, some, slots, unique, rfl, ?_, ⟨part, closed, among⟩, ?_, ?_, ?_⟩
    · simp [Heap.record, List.flatMap_map, once, Entries.names]
    · rintro a a' n ⟨⟩ ⟨⟩
      rfl
    · intro entry member i a found
      simpa [Heap.record, List.flatMap_map, once, addresses entry member] using found
    · intro entry member a linked unnumbered
      cases unnumbered

/-- A record without numbers is coherent. -/
theorem coherent_plain {fields : Fields} (unique : (Entries.names fields).Nodup) :
    Coherent (.plain fields) := by
  obtain ⟨link, -, m, twins⟩ := Mirrors.empty.loadFields fields
  have grown := Heap.Extends.refl (Heap.empty.loadFields fields).2
  have names := Heap.loadFields_names .empty fields
  have read := (Heap.loadFields_allReadBack grown).entries names
  have record := Heap.record_of_loadFields grown (List.Sublist.refl _)
  have coherent := coherent_record m.closed twins.among (by rwa [Entries.names, names])
  rw [record] at coherent
  exact read ▸ coherent

/-- Numbers for two heaps side by side: those of the first one below a bound, and those of the second one
raised by it. -/
def besideLabel (size bound : Nat) (label label' : Nat → Option Nat) (a : Nat) : Option Nat :=
  if a < size then (label a).filter (· < bound) else (label' (a - size)).map (· + bound)

theorem labelsApart_beside (apart : LabelsApart label) (apart' : LabelsApart label') (size bound : Nat) :
    LabelsApart (besideLabel size bound label label') := by
  intro a a' n numbered numbered'
  simp only [besideLabel] at numbered numbered'
  split at numbered <;> split at numbered' <;>
    simp only [Option.filter_eq_some_iff, Option.map_eq_some_iff, decide_eq_true_eq] at numbered numbered'
  · exact apart numbered.1 numbered'.1
  · omega
  · omega
  · obtain ⟨m, numbered, rfl⟩ := numbered
    obtain ⟨m', numbered', same⟩ := numbered'
    cases Nat.add_right_cancel same
    have := apart' numbered numbered'
    omega

namespace Coherent

theorem distinct (h : Coherent record) : (Entries.names record.fields).Nodup := by
  obtain ⟨heap, label, slots, h⟩ := h
  rw [h.names_eq]
  exact h.unique

theorem overlay (h : Coherent record) (h' : Coherent other) : Coherent (record.overlay other) := by
  obtain ⟨heap, label, slots, h⟩ := h
  obtain ⟨heap', label', slots', h'⟩ := h'
  have apart : LabelsApart (besideLabel heap.nodes.size record.bound label label') :=
    labelsApart_beside h.apart h'.apart _ _
  have stays {part : Nat → Prop} (closed : heap.Closed part) : Moves heap part id (heap.beside heap') :=
    closed.moves_extends (heap.extends_beside heap')
  have raised {part : Nat → Prop} (closed : heap'.Closed part) :
      Moves heap' part (· + heap.nodes.size) (heap.beside heap') := closed.moves_beside
  have kept := h.moved (g := id) stays apart (by
    intro entry member a linked
    have inside := h.addresses_inside member linked
    cases numbered : label a with
    | none => simp [besideLabel, inside, numbered]
    | some n => simp [besideLabel, inside, numbered, h.label_lt member linked numbered])
  have taken := h'.moved (g := (· + record.bound)) raised apart (by
    intro entry member a linked
    simp [besideLabel])
  simp only [Slot.renamed_id, id_eq, Prod.mk.eta, List.map_id_fun', List.map_id] at kept
  refine ⟨_, _, _, kept.overlay taken ?_⟩
  intro entry member entry' member' a linked linked'
  obtain ⟨part, closed, among⟩ := h.closed
  obtain ⟨part', closed', among'⟩ := h'.closed
  obtain ⟨one, here, rfl⟩ := List.mem_map.mp member'
  have same := (stays closed).addresses_eq (among entry member)
  rw [Slot.renamed_id, id, List.map_id] at same
  rw [same] at linked
  rw [(raised closed').addresses_eq (among' one here)] at linked'
  obtain ⟨b, -, rfl⟩ := List.mem_map.mp linked'
  have inside := h.addresses_inside member linked
  omega

theorem set (h : Coherent record) (name : String) (v : Value) : Coherent (record.set name v) := by
  have single : Coherent (.plain [(name, v)]) := coherent_plain (List.nodup_singleton name)
  have same : record.set name v = record.overlay (.plain [(name, v)]) := by
    simp [Record.set, Record.overlay, Record.plain, Record.raised, Entries.overlay, Entries.erase,
      Entries.has, eq_comm]
  exact same ▸ h.overlay single

theorem without (h : Coherent record) (names : List String) : Coherent (record.without names) := by
  obtain ⟨heap, label, slots, h⟩ := h
  refine ⟨heap, label, slots.filter fun entry => !names.contains entry.1, ?_⟩
  apply h.fewer (Entries.nodup_filter h.unique _)
  · exact fun entry member => (List.mem_filter.mp member).1
  · simp [Record.without, h.fields, List.filter_map, Function.comp_def]
  · intro name member
    rw [Entries.mem_names_filter (fun name => !names.contains name)]
    obtain ⟨numbered, kept⟩ := (Entries.mem_names_filter (fun name => !names.contains name)).mp member
    exact ⟨h.numbered name numbered, kept⟩
  · intro entry member
    have shown := (List.mem_filter.mp member).2
    simp only [Record.without]
    rw [Entries.get?_filter (fun name => !names.contains name), if_pos shown]

theorem only (h : Coherent record) (names : List String) : Coherent (record.only names) := by
  obtain ⟨heap, label, slots, h⟩ := h
  let picked : Entries Slot :=
    Entries.ofPairs (names.filterMap fun name => (Entries.get? slots name).map (name, ·))
  have none : (Entries.names ([] : Entries Slot)).Nodup := List.nodup_nil
  have unique : (Entries.names picked).Nodup := Entries.nodup_overlay none _
  have found (name : String) :
      Entries.get? picked name = if name ∈ names then Entries.get? slots name else .none := by
    simp only [picked, Entries.ofPairs, Entries.get?_overlay_picked, Entries.get?_nil, Option.or_none]
  have among : ∀ entry ∈ picked, entry.1 ∈ names ∧ entry ∈ slots := by
    intro entry member
    have shown := Entries.get?_of_mem unique member
    rw [found] at shown
    split at shown
    · exact ⟨‹_›, Entries.mem_of_get? shown⟩
    · cases shown
  refine ⟨heap, label, picked, h.fewer unique (fun entry member => (among entry member).2) ?_ ?_ ?_⟩
  · simp only [Record.only, h.fields, picked, Entries.ofPairs]
    rw [Entries.map_overlay]
    simp only [List.map_nil, List.map_filterMap, Entries.get?_map, Option.map_map, Function.comp_def]
  · intro name member
    obtain ⟨numbered, shown⟩ := (Entries.mem_names_filter (fun name => names.contains name)).mp member
    have missing : Entries.get? slots name ≠ .none := by
      rw [ne_eq, Entries.get?_eq_none_iff, not_not]
      exact h.numbered name numbered
    by_contra new
    rw [← Entries.get?_eq_none_iff, found, if_pos (List.contains_iff_mem.mp shown)] at new
    exact missing new
  · intro entry member
    have shown : names.contains entry.1 = true := List.contains_iff_mem.mpr (among entry member).1
    simp only [Record.only]
    rw [Entries.get?_filter (fun name => names.contains name), if_pos shown]

end Coherent

/-- Wherever the record is loaded and whatever is added behind it, a field is read back with a value. -/
def Recalls (record : Record) (name : String) (v : Value) : Prop :=
  ∀ heap later : Heap, Heap.Extends (heap.loadRecordFields record).2 later →
    ∃ slot, Entries.get? (heap.loadRecordFields record).1 name = some slot ∧ later.read slot = v

theorem recalls_plain {fields : Fields} {name : String} {v : Value}
    (found : Entries.get? fields name = some v) : Recalls (.plain fields) name v := by
  intro heap later grown
  have loaded : heap.loadRecordFields (.plain fields) = heap.loadFields fields := rfl
  rw [loaded] at grown ⊢
  have read := (Heap.loadFields_allReadBack grown).entries (Heap.loadFields_names heap fields)
  rw [← read, Entries.get?_map] at found
  exact Option.map_eq_some_iff.mp found

theorem count_flatMap_of_sole {α : Type} {places : List α} (unique : places.Nodup) (g : α → List Nat)
    {place : α} (member : place ∈ places) {a : Nat} (once : (g place).count a = 1)
    (only : ∀ other ∈ places, a ∈ g other → other = place) : (places.flatMap g).count a = 1 := by
  induction places with
  | nil => cases member
  | cons first rest ih =>
      obtain ⟨new, unique⟩ := List.nodup_cons.mp unique
      obtain ⟨_, others⟩ := List.forall_mem_cons.mp only
      rw [List.flatMap_cons, List.count_append]
      rcases List.mem_cons.mp member with rfl | later
      · have none : a ∉ rest.flatMap g := by
          intro linked
          obtain ⟨other, there, linked⟩ := List.mem_flatMap.mp linked
          exact new (others other there linked ▸ there)
        rw [once, List.count_eq_zero.mpr none]
      · have none : a ∉ g first := by
          intro linked
          exact new (only first List.mem_cons_self linked ▸ later)
        rw [List.count_eq_zero.mpr none, ih unique later others]

theorem Depicts.single (h : Depicts heap label slots record) :
    Single label ⊥ (slots.flatMap fun entry => heap.addresses entry.2) := by
  intro a linked unnumbered
  obtain ⟨entry, member, linked⟩ := List.mem_flatMap.mp linked
  obtain ⟨once, only⟩ := h.sole entry member a linked unnumbered
  exact ⟨count_flatMap_of_sole h.unique.of_map _ member once only, fun _ => id⟩

theorem Mirrors.extends_right {kept : Nat → Option Node} {link : Link} {heap' : Heap}
    (m : Mirrors kept link heap heap') (grown : Heap.Extends heap' later) : Mirrors kept link heap later where
  twins linked := by
    obtain ⟨node, node', found, found', twin⟩ := m.twins linked
    exact ⟨node, node', found, grown.node? found', twin⟩
  eq_right := m.eq_right
  eq_left := m.eq_left
  keeps := m.keeps

theorem Coherent.recalls (coherent : Coherent record) {name : String} {v : Value}
    (found : Entries.get? record.fields name = some v) : Recalls record name v := by
  obtain ⟨source, label, slots, h⟩ := coherent
  by_cases plain : record.identities = []
  · have same : record = .plain record.fields := congrArg (Record.mk record.fields) plain
    exact same ▸ recalls_plain found
  · intro heap later grown
    obtain ⟨part, closed, among⟩ := h.closed
    obtain ⟨link, -, copies, twins⟩ := loadRecordFields_copies closed h.apart among h.feeds
      (Copies.start source heap label) h.single
    rw [← h.fields] at copies twins
    have loaded : heap.loadRecordFields record =
        ((Heap.Loading.loadRecordFields record.identities { heap } record.fields).1,
          (Heap.Loading.loadRecordFields record.identities { heap } record.fields).2.heap) := by
      simp [Heap.loadRecordFields, plain]
    rw [loaded] at grown ⊢
    rw [h.fields, Entries.get?_map, Option.map_eq_some_iff] at found
    obtain ⟨slot, there, rfl⟩ := found
    have twin := twins.get? name
    rw [there] at twin
    generalize Entries.get? (Heap.Loading.loadRecordFields record.identities { heap } record.fields).1 name =
      found at twin
    cases twin with
    | some twin => exact ⟨_, rfl, ((copies.mirrors.extends_right grown).read_eq twin).symm⟩

end Expression

end GuardedStore
