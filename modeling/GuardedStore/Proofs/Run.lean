import Mathlib
import GuardedStore.World

/-! # What operations leave

An operation ends with a result or early, and leaves a state either way. A check is still: it leaves
the state as it is. An operation that checks first and writes only when nothing can go wrong any more
is atomic: where it ends early, it leaves no trace.
-/

namespace GuardedStore

variable {ε σ α β : Type}

theorem bind_ok_iff {x : EStateM ε σ α} {f : α → EStateM ε σ β} {s t : σ} {b : β} :
    (x >>= f) s = .ok b t ↔ ∃ a u, x s = .ok a u ∧ f a u = .ok b t := by
  simp only [bind, EStateM.bind]
  cases x s with
  | ok a u => simp [and_assoc]
  | error e u => simp

theorem bind_error_iff {x : EStateM ε σ α} {f : α → EStateM ε σ β} {s t : σ} {e : ε} :
    (x >>= f) s = .error e t ↔ x s = .error e t ∨ ∃ a u, x s = .ok a u ∧ f a u = .error e t := by
  simp only [bind, EStateM.bind]
  cases x s with
  | ok a u => simp [and_assoc]
  | error e u => simp

theorem bind_of_ok {x : EStateM ε σ α} {f : α → EStateM ε σ β} {s t : σ} {a : α}
    (h : x s = .ok a t) : (x >>= f) s = f a t := by
  simp only [bind, EStateM.bind, h]

theorem bind_of_error {x : EStateM ε σ α} {f : α → EStateM ε σ β} {s t : σ} {e : ε}
    (h : x s = .error e t) : (x >>= f) s = .error e t := by
  simp only [bind, EStateM.bind, h]

/-- Operations that do the same at first and go on alike do the same. -/
theorem bind_run_congr {x y : EStateM ε σ α} {f g : α → EStateM ε σ β} {s : σ} (first : x s = y s)
    (later : ∀ a t, y s = .ok a t → f a t = g a t) : (x >>= f) s = (y >>= g) s := by
  cases done : y s with
  | ok a t => rw [bind_of_ok (first.trans done), bind_of_ok done, later a t done]
  | error e t => rw [bind_of_error (first.trans done), bind_of_error done]

theorem except_bind_ok_iff {x : Except ε α} {f : α → Except ε β} {b : β} :
    (x >>= f) = .ok b ↔ ∃ a, x = .ok a ∧ f a = .ok b := by
  cases x with
  | ok a => exact ⟨fun h => ⟨a, rfl, h⟩, fun ⟨_, same, h⟩ => by cases same; exact h⟩
  | error e => exact ⟨nofun, nofun⟩

theorem except_bind_error_iff {x : Except ε α} {f : α → Except ε β} {e : ε} :
    (x >>= f) = .error e ↔ x = .error e ∨ ∃ a, x = .ok a ∧ f a = .error e := by
  cases x with
  | ok a =>
      constructor
      · intro h
        exact .inr ⟨a, rfl, h⟩
      · rintro (h | ⟨_, same, h⟩)
        · cases h
        · cases same
          exact h
  | error e' =>
      constructor
      · intro h
        cases h
        exact .inl rfl
      · rintro (h | ⟨_, same, _⟩)
        · cases h
          rfl
        · cases same

theorem except_map_ok_iff {x : Except ε α} {f : α → β} {b : β} :
    x.map f = .ok b ↔ ∃ a, x = .ok a ∧ f a = b := by
  cases x with
  | ok a => simp [Except.map]
  | error e => simp [Except.map]

theorem pure_run (a : α) (s : σ) : (pure a : EStateM ε σ α) s = .ok a s := rfl

theorem throw_run (e : ε) (s : σ) : (throw e : EStateM ε σ α) s = .error e s := rfl

theorem get_bind (f : σ → EStateM ε σ β) (s : σ) : (get >>= f) s = f s s := rfl

theorem throw_bind (e : ε) (f : α → EStateM ε σ β) (s : σ) : (throw e >>= f) s = .error e s := rfl

/-- The state that an operation leaves, however it ends. -/
def leaves (x : EStateM ε σ α) (s : σ) : σ :=
  match x s with
  | .ok _ t => t
  | .error _ t => t

/-- How an operation ends. -/
def outcome (x : EStateM ε σ α) (s : σ) : Except ε α :=
  match x s with
  | .ok a _ => .ok a
  | .error e _ => .error e

theorem leaves_of_ok {x : EStateM ε σ α} {s t : σ} {a : α} (h : x s = .ok a t) :
    leaves x s = t := by
  simp only [leaves, h]

theorem leaves_of_error {x : EStateM ε σ α} {s t : σ} {e : ε} (h : x s = .error e t) :
    leaves x s = t := by
  simp only [leaves, h]

theorem outcome_of_ok {x : EStateM ε σ α} {s t : σ} {a : α} (h : x s = .ok a t) :
    outcome x s = .ok a := by
  simp only [outcome, h]

theorem outcome_bind_pure (x : EStateM ε σ α) (f : α → β) (s : σ) :
    outcome (x >>= fun a => pure (f a)) s = (outcome x s).map f := by
  simp only [outcome, bind, EStateM.bind]
  cases x s <;> rfl

theorem leaves_bind_pure (x : EStateM ε σ α) (f : α → β) (s : σ) :
    leaves (x >>= fun a => pure (f a)) s = leaves x s := by
  simp only [leaves, bind, EStateM.bind]
  cases x s <;> rfl

theorem outcome_of_error {x : EStateM ε σ α} {s t : σ} {e : ε} (h : x s = .error e t) :
    outcome x s = .error e := by
  simp only [outcome, h]

theorem outcome_ok_iff {x : EStateM ε σ α} {s : σ} {a : α} :
    outcome x s = .ok a ↔ ∃ t, x s = .ok a t := by
  rw [outcome]
  cases x s <;> simp

/-- The operation leaves the state as it is, however it ends. -/
def Still (x : EStateM ε σ α) : Prop :=
  ∀ s, leaves x s = s

theorem Still.of_ok {x : EStateM ε σ α} (still : Still x) {s t : σ} {a : α} (h : x s = .ok a t) :
    t = s :=
  (leaves_of_ok h).symm.trans (still s)

theorem Still.of_error {x : EStateM ε σ α} (still : Still x) {s t : σ} {e : ε}
    (h : x s = .error e t) : t = s :=
  (leaves_of_error h).symm.trans (still s)

theorem still_pure (a : α) : Still (pure a : EStateM ε σ α) :=
  fun _ => rfl

theorem still_throw (e : ε) : Still (throw e : EStateM ε σ α) :=
  fun _ => rfl

theorem still_get : Still (get : EStateM ε σ σ) :=
  fun _ => rfl

theorem Still.bind_ok_iff {x : EStateM ε σ α} {f : α → EStateM ε σ β} (still : Still x) {s t : σ}
    {b : β} : (x >>= f) s = .ok b t ↔ ∃ a, x s = .ok a s ∧ f a s = .ok b t := by
  rw [GuardedStore.bind_ok_iff]
  constructor
  · rintro ⟨a, u, done, rest⟩
    cases still.of_ok done
    exact ⟨a, done, rest⟩
  · rintro ⟨a, done, rest⟩
    exact ⟨a, s, done, rest⟩

theorem Still.outcome_bind {x : EStateM ε σ α} (still : Still x) (f : α → EStateM ε σ β) (s : σ) :
    outcome (x >>= f) s = outcome x s >>= fun a => outcome (f a) s := by
  cases h : x s with
  | ok a t =>
      cases still.of_ok h
      rw [outcome_of_ok h, outcome, bind_of_ok h]
      rfl
  | error e t =>
      rw [outcome_of_error h, outcome_of_error (bind_of_error h)]
      rfl

/-- After a still operation, either nothing is done any more or its continuation is all that is done. -/
theorem Still.bind_run {x : EStateM ε σ α} (still : Still x) (f : α → EStateM ε σ β) (s : σ) :
    (∃ e, (x >>= f) s = .error e s) ∨ ∃ a, x s = .ok a s ∧ (x >>= f) s = f a s := by
  cases h : x s with
  | ok a t =>
      cases still.of_ok h
      exact .inr ⟨a, rfl, bind_of_ok h⟩
  | error e t =>
      cases still.of_error h
      exact .inl ⟨e, bind_of_error h⟩

theorem Still.bind {x : EStateM ε σ α} {f : α → EStateM ε σ β} (hx : Still x)
    (hf : ∀ a, Still (f a)) : Still (x >>= f) := by
  intro s
  cases h : x s with
  | ok a t =>
      cases hx.of_ok h
      simp only [leaves, bind_of_ok h]
      exact hf a s
  | error e t =>
      cases hx.of_error h
      simp only [leaves, bind_of_error h]

/-- The operation never ends early. -/
def Sure (x : EStateM ε σ α) : Prop :=
  ∀ s, ∃ a t, x s = .ok a t

/-- Where the operation ends early, the state is as it was. -/
def Atomic (x : EStateM ε σ α) : Prop :=
  ∀ s e t, x s = .error e t → t = s

theorem Still.atomic {x : EStateM ε σ α} (h : Still x) : Atomic x :=
  fun _ _ _ failed => h.of_error failed

theorem Sure.atomic {x : EStateM ε σ α} (h : Sure x) : Atomic x := by
  intro s e t failed
  obtain ⟨a, u, done⟩ := h s
  rw [done] at failed
  cases failed

theorem sure_pure (a : α) : Sure (pure a : EStateM ε σ α) :=
  fun s => ⟨a, s, rfl⟩

theorem Sure.bind {x : EStateM ε σ α} {f : α → EStateM ε σ β} (hx : Sure x)
    (hf : ∀ a, Sure (f a)) : Sure (x >>= f) := by
  intro s
  obtain ⟨a, t, done⟩ := hx s
  rw [bind_of_ok done]
  exact hf a t

/-- Checks may come before an atomic operation. -/
theorem Still.bind_atomic {x : EStateM ε σ α} {f : α → EStateM ε σ β} (hx : Still x)
    (hf : ∀ a, Atomic (f a)) : Atomic (x >>= f) := by
  intro s e t failed
  rcases bind_error_iff.mp failed with failed | ⟨a, u, done, failed⟩
  · exact hx.of_error failed
  · cases hx.of_ok done
    exact hf a s e t failed

/-- What cannot fail may come after an atomic operation. -/
theorem Atomic.bind_sure {x : EStateM ε σ α} {f : α → EStateM ε σ β} (hx : Atomic x)
    (hf : ∀ a, Sure (f a)) : Atomic (x >>= f) := by
  intro s e t failed
  rcases bind_error_iff.mp failed with failed | ⟨a, u, done, failed⟩
  · exact hx s e t failed
  · obtain ⟨b, v, sure⟩ := hf a u
    rw [sure] at failed
    cases failed

/-- The operation keeps a property of states, however it ends. -/
def Maintains (holds : σ → Prop) (x : EStateM ε σ α) : Prop :=
  ∀ s, holds s → holds (leaves x s)

variable {holds : σ → Prop}

theorem Still.maintains {x : EStateM ε σ α} (still : Still x) : Maintains holds x := by
  intro s held
  rwa [still s]

theorem Maintains.bind {x : EStateM ε σ α} {f : α → EStateM ε σ β} (hx : Maintains holds x)
    (hf : ∀ a, Maintains holds (f a)) : Maintains holds (x >>= f) := by
  intro s held
  have first := hx s held
  cases h : x s with
  | ok a t =>
      rw [leaves_of_ok h] at first
      rw [leaves, bind_of_ok h]
      exact hf a t first
  | error e t =>
      rw [leaves_of_error h] at first
      rwa [leaves_of_error (bind_of_error h)]

/-- What is made of the result does not matter for the state. -/
theorem Maintains.of_bind_pure {x : EStateM ε σ α} {f : α → β}
    (h : Maintains holds (x >>= fun a => pure (f a))) : Maintains holds x := by
  intro s held
  have kept := h s held
  rwa [leaves_bind_pure] at kept

namespace Serve

theorem still_ofExcept (result : Except Fault α) : Still (ofExcept result) := by
  cases result
  · exact still_throw _
  · exact still_pure _

theorem still_orRefuse (result : Except Refusal α) : Still (orRefuse result) :=
  still_ofExcept _

theorem ofExcept_ok {result : Except Fault α} {a : α} {world world' : World} :
    ofExcept result world = .ok a world' ↔ result = .ok a ∧ world = world' := by
  cases result <;> simp [ofExcept, pure_run, throw_run]

theorem ofExcept_bind_ok {result : Except Fault α} {f : α → Serve β} {b : β}
    {world world' : World} :
    (ofExcept result >>= f) world = .ok b world' ↔ ∃ a, result = .ok a ∧ f a world = .ok b world' := by
  rw [(still_ofExcept result).bind_ok_iff]
  simp [ofExcept_ok]

theorem orRefuse_bind_ok {result : Except Refusal α} {f : α → Serve β} {b : β}
    {world world' : World} :
    (orRefuse result >>= f) world = .ok b world' ↔ ∃ a, result = .ok a ∧ f a world = .ok b world' := by
  rw [orRefuse, ofExcept_bind_ok]
  cases result <;> simp [Except.mapError]

theorem keepRecords_run (written : Store.Written) (world : World) :
    keepRecords written world =
      .ok written.record { world with records := written.store, supply := written.supply } := rfl

theorem keepRecords_bind (written : Store.Written) (f : Record → Serve β) (world : World) :
    (keepRecords written >>= f) world =
      f written.record { world with records := written.store, supply := written.supply } := rfl

theorem keepAccounts_bind (written : Store.Written) (f : Record → Serve β) (world : World) :
    (keepAccounts written >>= f) world =
      f written.record { world with accounts := written.store, supply := written.supply } := rfl

theorem sure_keepRecords (written : Store.Written) : Sure (keepRecords written) :=
  fun world => ⟨_, _, keepRecords_run written world⟩

end Serve

end GuardedStore
