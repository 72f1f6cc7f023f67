import GuardedStore.Proofs.Expression.Loading
import GuardedStore.Proofs.Value.Likeness

/-! # Records that are read back

A record without numbers is loaded into lists and objects of its own, so that whatever is added to the
heap, the record is read back as it was.
-/

namespace GuardedStore.Expression.Heap

open Record (AlikeBut)

@[simp] theorem size_alloc (heap : Heap) (node : Node) :
    (heap.alloc node).2.nodes.size = heap.nodes.size + 1 := by
  simp [alloc]

theorem Extends.size_le {heap heap' : Heap} (h : Extends heap heap') :
    heap.nodes.size ≤ heap'.nodes.size := h.1

mutual

theorem size_load (heap : Heap) (v : Value) :
    (heap.load v).2.nodes.size = heap.nodes.size + v.containers := by
  cases v with
  | null | bool | int | float | str => rfl
  | list items =>
      simp only [load, size_alloc, size_loadItems heap items, Value.containers]
      omega
  | object fields =>
      simp only [load, size_alloc, size_loadFields heap fields, Value.containers]
      omega
termination_by sizeOf v

theorem size_loadItems (heap : Heap) (vs : List Value) :
    (heap.loadItems vs).2.nodes.size = heap.nodes.size + Value.containersOfItems vs := by
  cases vs with
  | nil => rfl
  | cons v vs =>
      simp only [loadItems, size_loadItems _ vs, size_load heap v, Value.containersOfItems]
      omega
termination_by sizeOf vs

theorem size_loadFields (heap : Heap) (fields : Fields) :
    (heap.loadFields fields).2.nodes.size = heap.nodes.size + Value.containersOfFields fields := by
  cases fields with
  | nil => rfl
  | cons field rest =>
      obtain ⟨name, v⟩ := field
      simp only [loadFields, size_loadFields _ rest, size_load heap v, Value.containersOfFields]
      omega
termination_by sizeOf fields

end

/-- A slot is read as a value, followed through at most `depth` addresses inside those `around`. The
addresses on the way differ and lie between two bounds. -/
structure ReadsBack (heap : Heap) (depth : Nat) (around : List Nat) (low high : Nat) (slot : Slot)
    (v : Value) : Prop where
  value : heap.readTo depth around slot = v
  differ : (heap.addressesTo depth around slot).Nodup
  within : ∀ a ∈ heap.addressesTo depth around slot, low ≤ a ∧ a < high

/-- Slots are read as values, one behind the other. -/
structure AllReadBack (heap : Heap) (depth : Nat) (around : List Nat) (low high : Nat)
    (slots : List Slot) (vs : List Value) : Prop where
  values : slots.map (heap.readTo depth around) = vs
  differ : (slots.flatMap (heap.addressesTo depth around)).Nodup
  within : ∀ a ∈ slots.flatMap (heap.addressesTo depth around), low ≤ a ∧ a < high

variable {heap later : Heap} {depth low mid high : Nat} {around : List Nat}

theorem AllReadBack.cons {slot : Slot} {slots : List Slot} {v : Value} {vs : List Value}
    (first : ReadsBack heap depth around low mid slot v)
    (rest : AllReadBack heap depth around mid high slots vs) (ordered : low ≤ mid) (ordered' : mid ≤ high) :
    AllReadBack heap depth around low high (slot :: slots) (v :: vs) where
  values := by rw [List.map_cons, first.value, rest.values]
  differ := by
    rw [List.flatMap_cons]
    refine List.nodup_append.mpr ⟨first.differ, rest.differ, ?_⟩
    rintro a here b there rfl
    have := first.within a here
    have := rest.within a there
    omega
  within a member := by
    rw [List.flatMap_cons] at member
    rcases List.mem_append.mp member with here | there
    · have := first.within a here
      omega
    · have := rest.within a there
      omega

/-- Slots that are read as the values of fields are read as the fields, where the names are the same. -/
theorem AllReadBack.entries {slots : Entries Slot} {fields : Fields}
    (parts : AllReadBack heap depth around low high (slots.map Prod.snd) (fields.map Prod.snd))
    (names : slots.map Prod.fst = fields.map Prod.fst) :
    (slots.map fun (name, slot) => (name, heap.readTo depth around slot)) = fields := by
  have values := parts.values
  clear parts
  induction slots generalizing fields with
  | nil =>
      cases fields with
      | nil => rfl
      | cons => cases names
  | cons slot rest ih =>
      cases fields with
      | nil => cases names
      | cons field others =>
          simp only [List.map_cons, List.cons.injEq] at names values ⊢
          exact ⟨Prod.ext names.1 values.1, ih names.2 values.2⟩

/-- What stands at an address is read back with its parts, which stand before it. -/
theorem AllReadBack.list {address : Nat} {slots : List Slot} {items : List Value}
    (parts : AllReadBack heap depth (address :: around) low address slots items)
    (found : heap.node? address = some (.list slots)) (new : address ∉ around) (ordered : low ≤ address) :
    ReadsBack heap (depth + 1) around low (address + 1) (.shared address) (.list items) where
  value := by simp [readTo, new, found, parts.values]
  differ := by
    have differ : address ∉ slots.flatMap (heap.addressesTo depth (address :: around)) :=
      fun member => Nat.lt_irrefl _ (parts.within address member).2
    simpa [addressesTo, new, found] using ⟨by simpa using differ, parts.differ⟩
  within a member := by
    have member : a = address ∨ a ∈ slots.flatMap (heap.addressesTo depth (address :: around)) := by
      simpa [addressesTo, new, found] using member
    rcases member with rfl | inner
    · omega
    · have := parts.within a inner
      omega

theorem AllReadBack.object {address : Nat} {slots : Entries Slot} {fields : Fields}
    (parts : AllReadBack heap depth (address :: around) low address (slots.map Prod.snd)
      (fields.map Prod.snd))
    (names : slots.map Prod.fst = fields.map Prod.fst)
    (found : heap.node? address = some (.object slots)) (new : address ∉ around)
    (ordered : low ≤ address) :
    ReadsBack heap (depth + 1) around low (address + 1) (.shared address) (.object fields) where
  value := by
    simp [readTo, new, found, parts.entries names]
  differ := by
    have differ : address ∉ (slots.map Prod.snd).flatMap (heap.addressesTo depth (address :: around)) :=
      fun member => Nat.lt_irrefl _ (parts.within address member).2
    have unique := parts.differ
    rw [List.flatMap_map] at differ unique
    simpa [addressesTo, new, found] using ⟨by simpa using differ, unique⟩
  within a member := by
    have member : a = address ∨
        a ∈ (slots.map Prod.snd).flatMap (heap.addressesTo depth (address :: around)) := by
      rw [List.flatMap_map]
      simpa [addressesTo, new, found] using member
    rcases member with rfl | inner
    · omega
    · have := parts.within a inner
      omega

theorem loadFields_names (heap : Heap) (fields : Fields) :
    (heap.loadFields fields).1.map Prod.fst = fields.map Prod.fst := by
  induction fields generalizing heap with
  | nil => rfl
  | cons field rest ih =>
      obtain ⟨name, v⟩ := field
      simp only [loadFields, List.map_cons, ih]

theorem Extends.node?_alloc {node : Node} (grown : Extends (heap.alloc node).2 later) :
    later.node? heap.nodes.size = some node :=
  grown.node? Array.getElem?_push_size

theorem place_of_behind {a : Nat} (outside : ∀ b ∈ around, a + 1 ≤ b) :
    a ∉ around ∧ ∀ b ∈ a :: around, a ≤ b := by
  refine ⟨fun member => ?_, List.forall_mem_cons.mpr ⟨le_refl a, fun b member => ?_⟩⟩
  · exact Nat.lt_irrefl a (outside a member)
  · exact Nat.le_of_succ_le (outside b member)

mutual

theorem load_readsBack (heap : Heap) (v : Value) {later : Heap} {depth : Nat} {around : List Nat}
    (grown : Extends (heap.load v).2 later)
    (deep : v.containers ≤ depth) (outside : ∀ a ∈ around, (heap.load v).2.nodes.size ≤ a) :
    ReadsBack later depth around heap.nodes.size (heap.load v).2.nodes.size (heap.load v).1 v := by
  cases v with
  | null | bool | int | float | str =>
      cases depth <;> exact ⟨rfl, .nil, nofun⟩
  | list items =>
      cases depth with
      | zero => cases deep
      | succ depth =>
          simp only [load, Value.containers, size_alloc] at grown deep outside ⊢
          obtain ⟨new, outside⟩ := place_of_behind outside
          have parts := loadItems_readBack heap items ((Extends.alloc _ _).trans grown)
            (Nat.le_of_succ_le_succ deep) outside
          exact parts.list grown.node?_alloc new (loadItems_extends heap items).1
  | object fields =>
      cases depth with
      | zero => cases deep
      | succ depth =>
          simp only [load, Value.containers, size_alloc] at grown deep outside ⊢
          obtain ⟨new, outside⟩ := place_of_behind outside
          have parts := loadFields_readBack heap fields ((Extends.alloc _ _).trans grown)
            (Nat.le_of_succ_le_succ deep) outside
          exact parts.object (loadFields_names heap fields) grown.node?_alloc new (loadFields_extends heap fields).1
termination_by sizeOf v

theorem loadItems_readBack (heap : Heap) (vs : List Value) {later : Heap} {depth : Nat}
    {around : List Nat} (grown : Extends (heap.loadItems vs).2 later)
    (deep : Value.containersOfItems vs ≤ depth)
    (outside : ∀ a ∈ around, (heap.loadItems vs).2.nodes.size ≤ a) :
    AllReadBack later depth around heap.nodes.size (heap.loadItems vs).2.nodes.size
      (heap.loadItems vs).1 vs := by
  cases vs with
  | nil => exact ⟨rfl, .nil, nofun⟩
  | cons v vs =>
      have behind := loadItems_extends (heap.load v).2 vs
      simp only [loadItems, Value.containersOfItems] at grown deep outside ⊢
      exact .cons (load_readsBack heap v (behind.trans grown) (by omega)
        fun a member => behind.1.trans (outside a member))
        (loadItems_readBack _ vs grown (by omega) outside) (load_extends heap v).1 behind.1
termination_by sizeOf vs

theorem loadFields_readBack (heap : Heap) (fields : Fields) {later : Heap} {depth : Nat}
    {around : List Nat} :
    Extends (heap.loadFields fields).2 later → Value.containersOfFields fields ≤ depth →
      (∀ a ∈ around, (heap.loadFields fields).2.nodes.size ≤ a) →
      AllReadBack later depth around heap.nodes.size (heap.loadFields fields).2.nodes.size
        ((heap.loadFields fields).1.map Prod.snd) (fields.map Prod.snd) := by
  cases fields with
  | nil => exact fun _ _ _ => ⟨rfl, .nil, nofun⟩
  | cons field rest =>
      obtain ⟨name, v⟩ := field
      intro grown deep outside
      have behind := loadFields_extends (heap.load v).2 rest
      simp only [loadFields, Value.containersOfFields] at grown deep outside ⊢
      exact .cons (load_readsBack heap v (behind.trans grown) (by omega)
        fun a member => behind.1.trans (outside a member))
        (loadFields_readBack _ rest grown (by omega) outside) (load_extends heap v).1 behind.1
termination_by sizeOf fields

end

/-- The record is read back as it was, wherever it is loaded and whatever is added behind it. -/
def Settled (record : Record) : Prop :=
  ∀ heap later, Extends (Heap.loadRecord heap record).2 later →
    AlikeBut [] (later.readRecord (heap.loadRecord record).1) record

/-- Fields that were loaded without numbers are read back, and so are some of them. -/
theorem loadFields_allReadBack {fields : Fields} (grown : Extends (heap.loadFields fields).2 later) :
    AllReadBack later (later.nodes.size + 1) [] heap.nodes.size (heap.loadFields fields).2.nodes.size
      ((heap.loadFields fields).1.map Prod.snd) (fields.map Prod.snd) := by
  have deep : Value.containersOfFields fields ≤ later.nodes.size + 1 := by
    have := size_loadFields heap fields
    have := grown.size_le
    omega
  exact loadFields_readBack heap fields grown deep (List.forall_mem_nil _)

theorem record_of_loadFields {fields : Fields} (grown : Extends (heap.loadFields fields).2 later)
    {slots : Entries Slot} (some : slots.Sublist (heap.loadFields fields).1) :
    later.record slots = .plain (slots.map fun (name, slot) => (name, later.read slot)) := by
  have differ := (loadFields_allReadBack grown).differ
  have fewer : (slots.map Prod.snd).Sublist ((heap.loadFields fields).1.map Prod.snd) := some.map _
  have unique := differ.sublist (fewer.flatMap (later.addressesTo (later.nodes.size + 1) []))
  rw [List.flatMap_map] at unique
  simp only [record, addresses, List.flatMap_map, unique, if_true, Record.plain]

theorem loadRecord_of_plain (heap : Heap) {record : Record} (plain : record.identities = []) :
    heap.loadRecord record =
      (heap.loadFields record.fields).2.alloc (.object (heap.loadFields record.fields).1) := by
  simp [loadRecord, loadRecordFields, plain]

theorem fields?_alloc (heap : Heap) (fields : Entries Slot) :
    (heap.alloc (.object fields)).2.fields? (heap.alloc (.object fields)).1 = some fields := by
  simp [alloc, Heap.fields?, node?]

/-- A record in which no list or object stands twice is settled. -/
theorem settled_of_plain {record : Record} (plain : record.identities = []) : Settled record := by
  intro heap later grown
  rw [loadRecord_of_plain heap plain] at grown ⊢
  have found := grown.fields? (fields?_alloc _ _)
  have grown : Extends (heap.loadFields record.fields).2 later := (Extends.alloc _ _).trans grown
  have fields := (loadFields_allReadBack grown).entries (loadFields_names heap record.fields)
  rw [readRecord, found, Option.getD_some, record_of_loadFields grown (List.Sublist.refl _)]
  refine ⟨congrArg (fun fields => ((Record.plain fields).without []).fields) fields, fun name _ => ?_⟩
  rw [Record.isCircularAt_of_none rfl, Record.isCircularAt_of_none (by rw [plain]; rfl)]

/-- The slot holds a record which is read back as it is, whatever is added to the heap. -/
structure Keeps (heap : Heap) (slot : Slot) (record : Record) : Prop where
  held : heap.Holds slot record
  read : ∀ later, Extends heap later → AlikeBut [] (later.readRecord slot) record

theorem Keeps.mono {slot : Slot} {record : Record} (h : Keeps heap slot record)
    (grown : Extends heap later) : Keeps later slot record :=
  ⟨h.held.mono grown, fun last grown' => h.read last (grown.trans grown')⟩

theorem Settled.keeps {record : Record} (settled : Settled record) (heap : Heap) :
    Keeps (heap.loadRecord record).2 (heap.loadRecord record).1 record :=
  ⟨loadRecord_holds heap record, settled heap⟩

end GuardedStore.Expression.Heap
