import GuardedStore.Proofs.Account.Run
import GuardedStore.Proofs.Request.Effect

/-! # Operations that fail

A server carries out requests and account operations. One that fails leaves both stores as they were,
and so does one that only reads, even when it succeeds.
-/

namespace GuardedStore

/-- A request or an account operation. -/
inductive Operation where
  | records (request : Request)
  | accounts (step : Account.Step)

namespace Operation

/-- Carries out an operation. -/
def run (service : Request.Service) (auth : Account.Service) :
    Operation → Serve (Request.Answer ⊕ Account.Reply)
  | .records request => return .inl (← request.execute service)
  | .accounts step => return .inr (← step.run auth)

/-- The operation asks for what is there and changes nothing. -/
def Reads : Operation → Prop
  | .records request => request.action = .read
  | .accounts step => step.Reads

theorem still_run (service : Request.Service) (auth : Account.Service) {operation : Operation}
    (reads : operation.Reads) : Still (operation.run service auth) := by
  cases operation with
  | records request => exact (Request.still_execute service reads).bind fun _ => still_pure _
  | accounts step => exact (step.still_run auth reads).bind fun _ => still_pure _

theorem atomic_run (service : Request.Service) (auth : Account.Service) (operation : Operation) :
    Atomic (operation.run service auth) := by
  cases operation with
  | records request => exact (Request.atomic_execute service request).bind_sure fun _ => sure_pure _
  | accounts step => exact (step.atomic_run auth).bind_sure fun _ => sure_pure _

/-- An operation that fails, whatever stops it, leaves both stores as they were, and one that only
reads leaves them so in any case. -/
theorem run_keeps_stores (service : Request.Service) (auth : Account.Service)
    (operation : Operation) (world : World) :
    (∀ fault world', operation.run service auth world = .error fault world' →
        world'.records = world.records ∧ world'.accounts = world.accounts) ∧
      (operation.Reads →
        (leaves (operation.run service auth) world).records = world.records ∧
          (leaves (operation.run service auth) world).accounts = world.accounts) := by
  constructor
  · intro fault world' failed
    rw [atomic_run service auth operation world fault world' failed]
    exact ⟨rfl, rfl⟩
  · intro reads
    rw [still_run service auth reads world]
    exact ⟨rfl, rfl⟩

end Operation

end GuardedStore
