import GuardedStore.Store.Basic

/-! # The state of a server

A server holds two stores, one for the records that requests read and write and one for its users
and their sessions, and the supply of ids and times that both draw from.

An operation on this state may end with a fault. What it has written by then stays written, so that
an operation that must not leave traces has to check before it writes.
-/

namespace GuardedStore

structure World where
  /-- The records that requests read and write. -/
  records : Store
  accounts : Store
  supply : Supply

/-- An operation on the state of a server. -/
abbrev Serve := EStateM Fault World

namespace Serve

/-- The result of a computation that does not touch the state. -/
def ofExcept {α : Type} (result : Except Fault α) : Serve α :=
  match result with
  | .ok a => pure a
  | .error fault => throw fault

/-- The result of a computation that can only be refused. -/
def orRefuse {α : Type} (result : Except Refusal α) : Serve α :=
  ofExcept (result.mapError .refused)

def keepRecords (written : Store.Written) : Serve Record := do
  modify fun world => { world with records := written.store, supply := written.supply }
  return written.record

def keepAccounts (written : Store.Written) : Serve Record := do
  modify fun world => { world with accounts := written.store, supply := written.supply }
  return written.record

end Serve

end GuardedStore
