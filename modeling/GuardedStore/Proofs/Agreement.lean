import GuardedStore.Proofs.Run

/-! # Two runs of operations

Two operations agree where they end alike from states that match: both early, with the same fault, or
both with results that are the same to the eye. What matches and what looks the same may depend on a
link between the two runs, which only grows while they go on.
-/

namespace GuardedStore

variable {ι ε σ τ α β γ δ : Type} [Preorder ι]

/-- Two operations have ended alike, under a link. -/
inductive EndAlike (Match : ι → σ → τ → Prop) (Same : ι → α → β → Prop) (link : ι) :
    EStateM.Result ε σ α → EStateM.Result ε τ β → Prop
  | ok {a : α} {b : β} {s : σ} {t : τ} (matched : Match link s t) (same : Same link a b) :
      EndAlike Match Same link (.ok a s) (.ok b t)
  | error {e : ε} {s : σ} {t : τ} (matched : Match link s t) :
      EndAlike Match Same link (.error e s) (.error e t)

/-- From states that match under a link, the operations end alike under a link that has grown. -/
def Agree (Match : ι → σ → τ → Prop) (Same : ι → α → β → Prop) (link : ι) (x : EStateM ε σ α)
    (y : EStateM ε τ β) : Prop :=
  ∀ s t, Match link s t → ∃ later, link ≤ later ∧ EndAlike Match Same later (x s) (y t)

variable {Match : ι → σ → τ → Prop} {Same : ι → α → β → Prop} {Same' : ι → γ → δ → Prop} {link : ι}

theorem agree_pure {a : α} {b : β} (same : Same link a b) :
    Agree Match Same link (pure a : EStateM ε σ α) (pure b : EStateM ε τ β) :=
  fun _ _ matched => ⟨link, le_refl link, .ok matched same⟩

theorem agree_throw (e : ε) :
    Agree Match Same link (throw e : EStateM ε σ α) (throw e : EStateM ε τ β) :=
  fun _ _ matched => ⟨link, le_refl link, .error matched⟩

theorem agree_get : Agree Match Match link (get : EStateM ε σ σ) (get : EStateM ε τ τ) :=
  fun _ _ matched => ⟨link, le_refl link, .ok matched matched⟩

theorem Agree.bind {x : EStateM ε σ α} {y : EStateM ε τ β} {f : α → EStateM ε σ γ}
    {g : β → EStateM ε τ δ} (first : Agree Match Same link x y)
    (second : ∀ later a b, link ≤ later → Same later a b → Agree Match Same' later (f a) (g b)) :
    Agree Match Same' link (x >>= f) (y >>= g) := by
  intro s t matched
  obtain ⟨later, grown, ended⟩ := first s t matched
  generalize done : x s = r, done' : y t = r' at ended
  cases ended with
  | ok matched same =>
      obtain ⟨last, grown', ended⟩ := second later _ _ grown same _ _ matched
      rw [bind_of_ok done, bind_of_ok done']
      exact ⟨last, grown.trans grown', ended⟩
  | error matched =>
      rw [bind_of_error done, bind_of_error done']
      exact ⟨later, grown, .error matched⟩

/-- The results are equal, whatever the link is. -/
def Equal (_ : ι) (a b : α) : Prop :=
  a = b

theorem Agree.bind_equal {x : EStateM ε σ α} {y : EStateM ε τ α} {f : α → EStateM ε σ γ}
    {g : α → EStateM ε τ δ} (first : Agree Match Equal link x y)
    (second : ∀ later a, link ≤ later → Agree Match Same' later (f a) (g a)) :
    Agree Match Same' link (x >>= f) (y >>= g) := by
  refine first.bind fun later a b grown same => ?_
  cases same
  exact second later a grown

theorem Agree.ok_left {x : EStateM ε σ α} {y : EStateM ε τ β} (h : Agree Match Same link x y)
    {s s' : σ} {t : τ} {a : α} (matched : Match link s t) (done : x s = .ok a s') :
    ∃ later b t', link ≤ later ∧ y t = .ok b t' ∧ Match later s' t' ∧ Same later a b := by
  obtain ⟨later, grown, ended⟩ := h s t matched
  rw [done] at ended
  generalize done' : y t = r at ended
  cases ended with
  | ok matched same => exact ⟨later, _, _, grown, rfl, matched, same⟩

/-- Operations that agree on equal results succeed with the same results. -/
theorem Agree.ok_iff {x : EStateM ε σ α} {y : EStateM ε τ α} (h : Agree Match Equal link x y) {s : σ}
    {t : τ} (matched : Match link s t) {a : α} : (∃ s', x s = .ok a s') ↔ ∃ t', y t = .ok a t' := by
  obtain ⟨later, -, ended⟩ := h s t matched
  generalize x s = r, y t = r' at ended
  cases ended with
  | ok _ equal =>
      cases equal
      exact ⟨fun ⟨_, same⟩ => by cases same; exact ⟨_, rfl⟩, fun ⟨_, same⟩ => by cases same; exact ⟨_, rfl⟩⟩
  | error _ => exact ⟨nofun, nofun⟩

/-- Two results are alike: both the same failure, or both successes that look the same. -/
inductive ResultsAlike (Same : α → β → Prop) : Except ε α → Except ε β → Prop
  | ok {a : α} {b : β} (same : Same a b) : ResultsAlike Same (.ok a) (.ok b)
  | error (e : ε) : ResultsAlike Same (.error e) (.error e)

namespace ResultsAlike

variable {Like : α → β → Prop} {Later : γ → δ → Prop} {x : Except ε α} {y : Except ε β}

theorem bind {f : α → Except ε γ} {g : β → Except ε δ} (first : ResultsAlike Like x y)
    (second : ∀ a b, Like a b → ResultsAlike Later (f a) (g b)) :
    ResultsAlike Later (x >>= f) (y >>= g) := by
  cases first with
  | ok same => exact second _ _ same
  | error e => exact .error e

theorem mapError {ε' : Type} (h : ResultsAlike Like x y) (f : ε → ε') :
    ResultsAlike Like (x.mapError f) (y.mapError f) := by
  cases h with
  | ok same => exact .ok same
  | error e => exact .error (f e)

theorem imp {Like' : α → β → Prop} (h : ResultsAlike Like x y) (imp : ∀ a b, Like a b → Like' a b) :
    ResultsAlike Like' x y := by
  cases h with
  | ok same => exact .ok (imp _ _ same)
  | error e => exact .error e

theorem known (h : ResultsAlike Like x y) : ResultsAlike (fun a b => x = .ok a ∧ Like a b) x y := by
  cases h with
  | ok same => exact .ok ⟨rfl, same⟩
  | error e => exact .error e

theorem ok_left {a : α} (h : ResultsAlike Like x y) (done : x = .ok a) :
    ∃ b, y = .ok b ∧ Like a b := by
  cases h with
  | ok same =>
      cases done
      exact ⟨_, rfl, same⟩
  | error e => cases done

theorem ok_right {b : β} (h : ResultsAlike Like x y) (done : y = .ok b) :
    ∃ a, x = .ok a ∧ Like a b := by
  cases h with
  | ok same =>
      cases done
      exact ⟨_, rfl, same⟩
  | error e => cases done

theorem of_eq {x y : Except ε α} (h : x = y) : ResultsAlike Eq x y := by
  subst h
  cases x with
  | ok a => exact .ok rfl
  | error e => exact .error e

end ResultsAlike

theorem Agree.resultsAlike {Like : α → β → Prop} {x : EStateM ε σ α} {y : EStateM ε τ β}
    (h : Agree Match (fun _ => Like) link x y) {s : σ} {t : τ} (matched : Match link s t) :
    ResultsAlike Like (outcome x s) (outcome y t) := by
  obtain ⟨_, -, ended⟩ := h s t matched
  simp only [outcome]
  generalize x s = r, y t = r' at ended
  cases ended with
  | ok _ same => exact .ok same
  | error _ => exact .error _

end GuardedStore
