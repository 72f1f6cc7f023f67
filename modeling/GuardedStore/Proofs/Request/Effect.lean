import GuardedStore.Proofs.Run
import GuardedStore.Proofs.Store.Contents
import GuardedStore.Request.Execution

/-! # What requests do

A read leaves the state as it is. Any other request checks its caller first and writes last, so that
it either fails without a trace or does the one write that its check has let through.
-/

namespace GuardedStore.Request

open Access (Guarded)

theorem still_checked {α : Type} (check : Guarded α) : Still (checked check) := by
  intro world
  simp only [leaves, checked]
  cases check.run .empty <;> rfl

theorem checked_ok_iff {α : Type} {check : Guarded α} {world world' : World} {a : α} :
    checked check world = .ok a world' ↔ (∃ heap, check .empty = .ok a heap) ∧ world = world' := by
  simp only [checked, EStateM.run]
  cases check .empty <;> simp

theorem still_listCollections (service : Service) (request : Request) :
    Still (listCollections service request) :=
  still_get.bind fun _ => (still_checked _).bind fun _ => still_pure _

theorem still_readMany (service : Service) (request : Request) (name : String) :
    Still (readMany service request name) := by
  refine still_get.bind fun world => (Serve.still_orRefuse _).bind fun all => ?_
  refine (Serve.still_ofExcept _).bind fun arranged => (still_checked _).bind fun gated => ?_
  split
  · exact still_pure _
  · exact (Serve.still_ofExcept _).bind fun _ => still_pure _

theorem still_readOne (service : Service) (request : Request) (name id : String) :
    Still (readOne service request name id) :=
  still_get.bind fun _ => (Serve.still_orRefuse _).bind fun _ => (still_checked _).bind fun _ =>
    (Serve.still_ofExcept _).bind fun _ => still_pure _

theorem still_read (service : Service) (request : Request) : Still (read service request) := by
  simp only [read]
  split
  · exact still_listCollections service request
  · split
    · exact still_readOne service request _ _
    · exact still_readMany service request _

theorem still_execute (service : Service) {request : Request} (reads : request.action = .read) :
    Still (execute service request) := by
  rw [execute, reads]
  exact still_read service request

/-- The check of a write lets through a record to write. -/
def Passes (service : Service) (request : Request) (world : World) (existing : Record)
    (payload : Option Fields) (written : Record) : Prop :=
  checked (gateWrite service (Access.lookupIn world.records) request existing payload) world =
    .ok written world

/-- What a request is answered with, and the state that it leaves, when it succeeds. -/
inductive Effect (service : Service) (request : Request) (world : World) : Answer → World → Prop
  /-- A read. -/
  | read {answer : Answer} (action : request.action = .read) :
      Effect service request world answer world
  /-- A record was added for the caller. -/
  | created {name : String} {payload : Record} (action : request.action = .create)
      (named : request.requireCollection = .ok name)
      (passes : Passes service request world (.plain []) (some request.payload) payload) :
      Effect service request world
        (.record (withId (world.records.nextId world.supply name)
          (Store.newRecord payload (request.principal.map (·.id)) world.supply.clock)))
        { world with
          records := world.records.put name (world.records.nextId world.supply name)
            (Store.newRecord payload (request.principal.map (·.id)) world.supply.clock)
          supply := world.records.restSupply world.supply name }
  /-- Fields of a record were set. -/
  | merged {name id : String} {existing payload : Record} (action : request.action = .update)
      (named : request.requireCollection = .ok name) (target : request.requireId = .ok id)
      (stored : Entries.get? (world.records.entries name) id = some existing)
      (passes : Passes service request world (withId id existing) (some request.payload) payload)
      (merge : request.merge = true) :
      Effect service request world
        (.record (withId id (Store.mergedRecord existing payload world.supply.clock)))
        { world with
          records := world.records.put name id
            (Store.mergedRecord existing payload world.supply.clock)
          supply := world.supply.tick.2 }
  /-- A record was replaced. -/
  | replaced {name id : String} {existing payload : Record} (action : request.action = .update)
      (named : request.requireCollection = .ok name) (target : request.requireId = .ok id)
      (stored : Entries.get? (world.records.entries name) id = some existing)
      (passes : Passes service request world (withId id existing) (some request.payload) payload)
      (merge : request.merge = false) :
      Effect service request world
        (.record (withId id (Store.replacedRecord existing payload world.supply.clock)))
        { world with
          records := world.records.put name id
            (Store.replacedRecord existing payload world.supply.clock)
          supply := world.supply.tick.2 }
  /-- A record was deleted. -/
  | deleted {name id : String} {existing written : Record} (action : request.action = .delete)
      (named : request.requireCollection = .ok name) (target : request.requireId = .ok id)
      (stored : Entries.get? (world.records.entries name) id = some existing)
      (passes : Passes service request world (withId id existing) none written) :
      Effect service request world
        (.record (.plain [(deletedField, .int world.supply.clock)]))
        { world with
          records := world.records.without name id
          supply := world.supply.tick.2 }

variable {service : Service} {request : Request} {world world' : World} {answer : Answer}

theorem create_effect (action : request.action = .create)
    (h : create service request world = .ok answer world') :
    Effect service request world answer world' := by
  rw [create, Serve.orRefuse_bind_ok] at h
  obtain ⟨name, named, h⟩ := h
  split at h
  · cases h
  · simp only [get_bind, (still_checked _).bind_ok_iff, Serve.keepRecords_bind, Store.add_eq] at h
    obtain ⟨payload, passes, h⟩ := h
    cases h
    exact .created action named passes

theorem update_effect (action : request.action = .update)
    (h : update service request world = .ok answer world') :
    Effect service request world answer world' := by
  simp only [update, Serve.orRefuse_bind_ok, get_bind, (still_checked _).bind_ok_iff,
    Serve.keepRecords_bind] at h
  obtain ⟨name, named, id, target, found, find, payload, passes, written, wrote, h⟩ := h
  obtain ⟨existing, stored, rfl⟩ := Store.get?_of_find find
  cases h
  cases merge : request.merge with
  | true =>
      rw [merge, if_pos rfl, Store.merge_of_stored stored] at wrote
      cases wrote
      exact .merged action named target stored passes merge
  | false =>
      rw [merge, if_neg Bool.false_ne_true, Store.replace_of_stored stored] at wrote
      cases wrote
      exact .replaced action named target stored passes merge

theorem delete_effect (action : request.action = .delete)
    (h : delete service request world = .ok answer world') :
    Effect service request world answer world' := by
  simp only [delete, Serve.orRefuse_bind_ok, get_bind, (still_checked _).bind_ok_iff,
    Serve.keepRecords_bind] at h
  obtain ⟨name, named, id, target, found, find, payload, passes, written, wrote, h⟩ := h
  obtain ⟨existing, stored, rfl⟩ := Store.get?_of_find find
  rw [Store.delete_of_stored stored] at wrote
  cases wrote
  cases h
  exact .deleted action named target stored passes

theorem execute_effect (h : execute service request world = .ok answer world') :
    Effect service request world answer world' := by
  rw [execute] at h
  cases action : request.action with
  | read =>
      rw [action] at h
      cases (still_read service request).of_ok h
      exact .read action
  | create => exact create_effect action (by rwa [action] at h)
  | update => exact update_effect action (by rwa [action] at h)
  | delete => exact delete_effect action (by rwa [action] at h)

theorem atomic_create (service : Service) (request : Request) : Atomic (create service request) := by
  refine (Serve.still_orRefuse _).bind_atomic fun name => ?_
  split
  · intro world fault world' failed
    rw [throw_bind] at failed
    cases failed
    rfl
  · refine still_get.bind_atomic fun world => (still_checked _).bind_atomic fun payload => ?_
    exact ((Serve.sure_keepRecords _).bind fun _ => sure_pure _).atomic

theorem atomic_update (service : Service) (request : Request) : Atomic (update service request) := by
  refine (Serve.still_orRefuse _).bind_atomic fun name => ?_
  refine (Serve.still_orRefuse _).bind_atomic fun id => still_get.bind_atomic fun world => ?_
  refine (Serve.still_orRefuse _).bind_atomic fun existing => ?_
  refine (still_checked _).bind_atomic fun payload => (Serve.still_orRefuse _).bind_atomic fun _ => ?_
  exact ((Serve.sure_keepRecords _).bind fun _ => sure_pure _).atomic

theorem atomic_delete (service : Service) (request : Request) : Atomic (delete service request) := by
  refine (Serve.still_orRefuse _).bind_atomic fun name => ?_
  refine (Serve.still_orRefuse _).bind_atomic fun id => still_get.bind_atomic fun world => ?_
  refine (Serve.still_orRefuse _).bind_atomic fun existing => ?_
  refine (still_checked _).bind_atomic fun _ => (Serve.still_orRefuse _).bind_atomic fun _ => ?_
  exact ((Serve.sure_keepRecords _).bind fun _ => sure_pure _).atomic

/-- A request that fails leaves the state as it was. -/
theorem atomic_execute (service : Service) (request : Request) :
    Atomic (execute service request) := by
  simp only [execute]
  split
  · exact (still_read service request).atomic
  · exact atomic_create service request
  · exact atomic_update service request
  · exact atomic_delete service request

/-- Whatever becomes of a request, it leaves the state as it was or that of its effect. -/
theorem leaves_execute (service : Service) (request : Request) (world : World) :
    leaves (execute service request) world = world ∨
      ∃ answer, Effect service request world answer (leaves (execute service request) world) := by
  cases done : execute service request world with
  | ok answer world' =>
      rw [leaves_of_ok done]
      exact .inr ⟨answer, execute_effect done⟩
  | error fault world' =>
      rw [leaves_of_error done]
      exact .inl (atomic_execute service request _ _ _ done)

end GuardedStore.Request
