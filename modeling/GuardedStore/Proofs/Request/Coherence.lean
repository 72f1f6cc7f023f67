import GuardedStore.Proofs.Access.DistinctNames
import GuardedStore.Proofs.Expression.Coherence
import GuardedStore.Proofs.Request.Gating
import GuardedStore.Proofs.Request.Unshared

/-! # Coherent stores

Whatever rules do to the lists and objects of what is to be written, the record that is written of them is
coherent, and so is every record that is put together of it and of what was stored. So all stored records are
loaded for the next check as they were written.
-/

namespace GuardedStore

open Expression (Coherent)

theorem coherent_withId {record : Record} (h : Coherent record) (id : String) :
    Coherent (withId id record) :=
  h.set idField (.str id)

namespace Store

variable {existing data : Record}

theorem coherent_newRecord (h : Coherent data) (owner : Option String) (time : Int) :
    Coherent (newRecord data owner time) := by
  have ofOwner {owned : Fields} (unique : (Entries.names owned).Nodup) :
      Coherent (((Record.plain owned).overlay (withoutSystemFields data)).set createdField (.int time)) :=
    ((Expression.coherent_plain unique).overlay (h.without systemFields)).set createdField (.int time)
  cases owner with
  | none => exact ofOwner List.nodup_nil
  | some owner => exact ofOwner (List.nodup_singleton _)

theorem coherent_replacedRecord (h : Coherent existing) (h' : Coherent data) (time : Int) :
    Coherent (replacedRecord existing data time) :=
  ((h'.without systemFields).overlay (h.only systemFields)).set updatedField (.int time)

theorem coherent_mergedRecord (h : Coherent existing) (h' : Coherent data) (time : Int) :
    Coherent (mergedRecord existing data time) :=
  (h.overlay (h'.without systemFields)).set updatedField (.int time)

end Store

namespace Request

open Access (Attempt Caller Lookup)
open Expression (Distinct Heap Slot coherent_plain coherent_record)

variable {service : Service} {lookup : Lookup} {request : Request} {existing written : Record}
  {payload : Fields} {world : World} {last : Heap}

/-- How a write is attempted. -/
def writeAttempt (request : Request) (caller : Option Caller) (data newData : Slot) : Attempt where
  action := request.action
  collection := request.collection
  caller
  data
  newData := some newData
  override := request.override

/-- A write is checked on a heap with the caller, the stored record and what is to be written. -/
theorem gateWrite_steps
    (done : gateWrite service lookup request existing (some payload) .empty = .ok written last) :
    ∃ caller heap denied, loadCaller? request.principal .empty = .ok caller heap ∧
      Access.enforce service.rules lookup
        (writeAttempt request caller (heap.loadRecord existing).1
          ((heap.loadRecord existing).2.loadRecord (.plain payload)).1)
        ((heap.loadRecord existing).2.loadRecord (.plain payload)).2 = .ok denied last ∧
      written = last.readRecord ((heap.loadRecord existing).2.loadRecord (.plain payload)).1 := by
  rw [gateWrite] at done
  obtain ⟨caller, heap, known, done⟩ := bind_ok_iff.mp done
  obtain ⟨data, loaded, loads, done⟩ := bind_ok_iff.mp done
  cases loads
  obtain ⟨newData, prepared, prepares, done⟩ := bind_ok_iff.mp done
  cases prepares
  obtain ⟨denied, checked, checks, done⟩ := bind_ok_iff.mp done
  rw [get_bind] at done
  cases done
  exact ⟨caller, heap, denied, known, checks, rfl⟩

/-- The record that a check has left to write is coherent. -/
theorem coherent_of_gateWrite (distinct : (Entries.names payload).Nodup)
    (done : gateWrite service lookup request existing (some payload) .empty = .ok written last) :
    Coherent written := by
  obtain ⟨caller, heap, denied, known, checks, rfl⟩ := gateWrite_steps done
  obtain ⟨link, m, callers⟩ := mirrors_caller known
  obtain ⟨loaded, grown, m, data⟩ := m.loadRecord existing
  obtain ⟨prepared, grown', m, newData⟩ := m.loadRecord (.plain payload)
  have start : Distinct ((heap.loadRecord existing).2.loadRecord (.plain payload)).2
      ((heap.loadRecord existing).2.loadRecord (.plain payload)).1 := by
    rw [Heap.loadRecord_of_plain _ rfl]
    refine ⟨_, Heap.fields?_alloc _ _, ?_⟩
    rw [Entries.names, Heap.loadFields_names]
    exact distinct
  generalize (heap.loadRecord existing).2.loadRecord (.plain payload) = new at *
  have same : Access.AttemptTwin prepared (writeAttempt request caller (heap.loadRecord existing).1 new.1)
      (writeAttempt request caller (heap.loadRecord existing).1 new.1) :=
    ⟨rfl, rfl, Access.rel_mono callers fun twin => twin.mono (grown.trans grown'), data.mono grown',
      .some newData, rfl⟩
  -- The check beside itself ends with a heap that mirrors itself.
  obtain ⟨later, _, last', grown'', checks', m, -⟩ :=
    (Access.blind_enforce service.rules lookup same).ok_left m checks
  cases checks.symm.trans checks'
  obtain ⟨fields, found, unique⟩ : Distinct last new.1 :=
    leaves_of_ok checks ▸ Access.keepsDistinct_enforce service.rules lookup _ _ start
  have twins := m.fields? (newData.mono grown'')
  rw [found] at twins
  cases twins with
  | some twins =>
      rw [Heap.readRecord, found, Option.getD_some]
      exact coherent_record m.closed twins.among unique

theorem coherent_of_passes (distinct : (Entries.names payload).Nodup)
    (passes : Passes service request world existing (some payload) written) : Coherent written :=
  let ⟨⟨_, done⟩, _⟩ := checked_ok_iff.mp passes
  coherent_of_gateWrite distinct done

/-- All stored records are coherent. -/
def StoredCoherent (store : Store) : Prop :=
  StoredAll Coherent store

theorem storedCoherent_ofSnapshot {snapshot : Snapshot}
    (distinct : ∀ collection ∈ snapshot, ∀ seed ∈ collection.2, (Entries.names seed.2).Nodup) :
    StoredCoherent (.ofSnapshot snapshot) :=
  storedAll_ofSnapshot fun collection member seed among => coherent_plain (distinct collection member seed among)

/-- A request keeps all stored records coherent, whatever its rules assign. -/
theorem storedCoherent_execute (distinct : (Entries.names request.payload).Nodup)
    (coherent : StoredCoherent world.records) :
    StoredCoherent (leaves (execute service request) world).records := by
  rcases leaves_execute service request world with same | ⟨answer, effect⟩
  · rwa [same]
  · generalize leaves (execute service request) world = world' at effect ⊢
    cases effect with
    | read => exact coherent
    | created _ _ passes =>
        have written := coherent_of_passes distinct passes
        exact coherent.put (Store.coherent_newRecord written _ _) _ _
    | merged _ _ _ stored passes =>
        have written := coherent_of_passes distinct passes
        exact coherent.put (Store.coherent_mergedRecord (coherent.of_stored stored) written _) _ _
    | replaced _ _ _ stored passes =>
        have written := coherent_of_passes distinct passes
        exact coherent.put (Store.coherent_replacedRecord (coherent.of_stored stored) written _) _ _
    | deleted => exact coherent.without _ _

/-- In every state of a run that starts from seeds, all stored records are coherent. -/
theorem storedCoherent_executeAll (service : Service) {requests : List Request}
    (distinct : ∀ request ∈ requests, (Entries.names request.payload).Nodup)
    (coherent : StoredCoherent world.records) :
    StoredCoherent (executeAll service requests world).records := by
  induction requests generalizing world with
  | nil => exact coherent
  | cons request rest ih =>
      obtain ⟨first, later⟩ := List.forall_mem_cons.mp distinct
      exact ih later (storedCoherent_execute first coherent)

end Request

end GuardedStore
