import GuardedStore.Proofs.Expression.Readback
import GuardedStore.Proofs.Request.DeniedFields

/-! # Stores without shared parts

Only an assignment can put one list or object into two places. What is seeded, and what requests write
where no rule assigns, holds nothing twice, so that every stored record is read back as it is.
-/

namespace GuardedStore.Request

open Expression (Heap Slot)
open Expression.Heap (Extends Settled)

/-- Every stored record has a property. -/
def StoredAll (property : Record → Prop) (store : Store) : Prop :=
  ∀ name, ∀ entry ∈ store.entries name, property entry.2

variable {property : Record → Prop} {store : Store} {service : Service} {request : Request}
  {world : World} {answer : Answer} {world' : World} {existing written record : Record} {name id : String}

namespace StoredAll

theorem of_stored (all : StoredAll property store)
    (stored : Entries.get? (store.entries name) id = some record) : property record :=
  all name (id, record) (Entries.mem_of_get? stored)

theorem put (all : StoredAll property store) (h : property record) (name id : String) :
    StoredAll property (store.put name id record) := by
  intro other entry member
  rw [Store.entries_put] at member
  split at member
  · rcases Entries.mem_set member with rfl | before
    · exact h
    · exact all name entry before
  · exact all other entry member

theorem without (all : StoredAll property store) (name id : String) :
    StoredAll property (store.without name id) := by
  intro other entry member
  rw [Store.entries_without] at member
  split at member
  · exact all name entry (Entries.mem_erase.mp member).1
  · exact all other entry member

end StoredAll

theorem mem_overlay_plain {entries : Entries Record} {records : List (String × Fields)}
    {entry : String × Record} (h : entry ∈ Entries.overlay entries (Store.plainRecords records)) :
    entry ∈ entries ∨ ∃ seed ∈ records, entry.2 = .plain seed.2 := by
  induction records generalizing entries with
  | nil => exact .inl h
  | cons first rest ih =>
      rw [Store.plainRecords, List.map_cons, Entries.overlay_cons] at h
      rcases ih h with before | ⟨seed, later, plain⟩
      · rcases Entries.mem_set before with rfl | before
        · exact .inr ⟨first, List.mem_cons_self, rfl⟩
        · exact .inl before
      · exact .inr ⟨seed, List.mem_cons_of_mem _ later, plain⟩

theorem StoredAll.load (all : StoredAll property store) {snapshot : Snapshot}
    (seeded : ∀ collection ∈ snapshot, ∀ seed ∈ collection.2, property (.plain seed.2)) :
    StoredAll property (store.load snapshot) := by
  induction snapshot generalizing store with
  | nil => exact all
  | cons first rest ih =>
      obtain ⟨name, records⟩ := first
      obtain ⟨here, later⟩ := List.forall_mem_cons.mp seeded
      refine ih (fun other entry member => ?_) later
      simp only [Store.entries, Table.get?_set] at member
      split at member
      · rcases mem_overlay_plain member with before | ⟨seed, among, plain⟩
        · exact all name entry before
        · exact plain ▸ here seed among
      · exact all other entry member

/-- What is seeded has a property of all seeds. -/
theorem storedAll_ofSnapshot {snapshot : Snapshot}
    (seeded : ∀ collection ∈ snapshot, ∀ seed ∈ collection.2, property (.plain seed.2)) :
    StoredAll property (.ofSnapshot snapshot) :=
  StoredAll.load (fun name _ member => by rw [Store.entries_empty name] at member; cases member) seeded

/-- The records that a collection hands out are read back as they are from wherever they are loaded. -/
def SettledIn (store : Store) (name : String) : Prop :=
  ∀ id record, store.find name id = .ok record → Settled record

theorem storedAll_of_plain (plain : store.IsPlain) :
    StoredAll (fun record => record.identities = []) store :=
  plain

theorem settledIn_of_plain (plain : store.IsPlain) (name : String) : SettledIn store name :=
  fun _ _ finds => Expression.Heap.settled_of_plain (plain.of_find finds)

/-- What is seeded holds nothing twice. -/
theorem isPlain_ofSnapshot (snapshot : Snapshot) : (Store.ofSnapshot snapshot).IsPlain := by
  have all : StoredAll (fun record => record.identities = []) (.ofSnapshot snapshot) :=
    storedAll_ofSnapshot fun _ _ _ _ => rfl
  exact all

/-- No rule that a request is checked with assigns. -/
def Assignless (service : Service) (request : Request) : Prop :=
  ∀ key, (service.rules.resolve request.action request.collection key).Unassigning

theorem identities_of_passes (assignless : Assignless service request)
    (write : request.action.isWrite = true) {payload : Fields}
    (passes : Passes service request world existing (some payload) written) :
    written.identities = [] := by
  obtain ⟨⟨last, gated⟩, -⟩ := checked_ok_iff.mp passes
  obtain ⟨attempt, newData, heap, denied, loaded, checks, rfl⟩ := gateWrite_ok gated
  have write' : attempt.action.isWrite = true := by rwa [loaded.action]
  have unassigning : ∀ key,
      (service.rules.resolve attempt.action attempt.collection key).Unassigning := by
    rw [loaded.action, loaded.collection]
    exact assignless
  have stripped := Access.enforce_stripped write' loaded.new unassigning checks
  obtain ⟨before, alloc⟩ := loaded.last
  rw [Heap.loadRecord_of_plain before rfl] at alloc
  cases alloc
  have left := stripped.fields? _ (Heap.fields?_alloc _ _)
  -- The object itself was stripped; what it holds stands before it.
  have grown : Extends (before.loadFields payload).2 last := stripped.beside.extends_of_alloc
  rw [Heap.readRecord, left, Option.getD_some]
  exact congrArg Record.identities (Heap.record_of_loadFields grown List.filter_sublist)

/-- A request keeps a store without shared parts, unless a rule for what it writes assigns. -/
theorem isPlain_execute
    (assignless : request.action.isWrite = true → Assignless service request)
    (plain : world.records.IsPlain) :
    (leaves (execute service request) world).records.IsPlain := by
  have written_plain {existing written : Record} {payload : Fields}
      (write : request.action.isWrite = true)
      (passes : Passes service request world existing (some payload) written) :
      written.identities = [] :=
    identities_of_passes (assignless write) write passes
  rcases leaves_execute service request world with same | ⟨answer, effect⟩
  · rwa [same]
  · generalize leaves (execute service request) world = world' at effect ⊢
    cases effect with
    | read => exact plain
    | created action _ passes =>
        have written := written_plain (by rw [action]; rfl) passes
        exact (storedAll_of_plain plain).put (Store.identities_newRecord written _ _) _ _
    | merged action _ _ stored passes =>
        have written := written_plain (by rw [action]; rfl) passes
        exact (storedAll_of_plain plain).put (Store.identities_mergedRecord (plain.of_stored stored) written _) _ _
    | replaced action _ _ stored passes =>
        have written := written_plain (by rw [action]; rfl) passes
        exact (storedAll_of_plain plain).put (Store.identities_replacedRecord (plain.of_stored stored) written _) _ _
    | deleted => exact (storedAll_of_plain plain).without _ _

end GuardedStore.Request
