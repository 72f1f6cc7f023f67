import GuardedStore.Proofs.Run
import GuardedStore.Value.Comparison

/-! # Numbers beyond the range

The only values that have no numeric reading in the binary64 format, and say so by a failure, are integers
beyond its range. Comparisons fail on nothing else.
-/

namespace GuardedStore.Value

/-- The value is an integer beyond the range of the binary64 format. -/
def IsOutsized (v : Value) : Prop :=
  ∃ n, v = .int n ∧ Binary64.ofInt? n = none

instance : (v : Value) → Decidable v.IsOutsized
  | .int n =>
    decidable_of_iff (Binary64.ofInt? n = none)
      ⟨fun beyond => ⟨n, rfl, beyond⟩, fun ⟨_, same, beyond⟩ => Value.int.inj same ▸ beyond⟩
  | .null | .bool _ | .float _ | .str _ | .list _ | .object _ => isFalse nofun

variable {v left right : Value} {fault : OutOfRange}

theorem outsized_of_toNumber? : v.toNumber? = .error fault → v.IsOutsized := by
  fun_cases toNumber? v with
  | case1 => nofun
  | case2 n beyond => exact fun _ => ⟨n, rfl, beyond⟩
  | case3 => nofun
  | case4 => nofun
  | case5 => nofun
  | case6 => nofun

variable {n : Int}

theorem toNumber?_of_rounded {x : Binary64} (read : Binary64.ofInt? n = some x) :
    (Value.int n).toNumber? = .ok (some x) := by
  generalize whole : Value.int n = v
  fun_cases toNumber? v with
  | case1 m y read' =>
      cases whole
      rw [read] at read'
      cases read'
      rfl
  | case2 m beyond =>
      cases whole
      rw [read] at beyond
      cases beyond
  | case3 => cases whole
  | case4 => cases whole
  | case5 => cases whole
  | case6 =>
      rename_i notInt _ _ _
      exact (notInt n whole.symm).elim

theorem toNumber?_of_beyond (beyond : Binary64.ofInt? n = none) :
    (Value.int n).toNumber? = .error .outOfRange := by
  generalize whole : Value.int n = v
  fun_cases toNumber? v with
  | case1 m x read =>
      cases whole
      rw [beyond] at read
      cases read
  | case2 m => rfl
  | case3 => cases whole
  | case4 => cases whole
  | case5 => cases whole
  | case6 =>
      rename_i notInt _ _ _
      exact (notInt n whole.symm).elim

theorem outsized_of_numbers {α : Type} {f : Option Binary64 → Option Binary64 → Except OutOfRange α}
    (total : ∀ x y, ∃ a, f x y = .ok a)
    (h : (do let x ← left.toNumber?; let y ← right.toNumber?; f x y) = .error fault) :
    left.IsOutsized ∨ right.IsOutsized := by
  rcases except_bind_error_iff.mp h with h | ⟨x, -, h⟩
  · exact .inl (outsized_of_toNumber? h)
  · rcases except_bind_error_iff.mp h with h | ⟨y, -, h⟩
    · exact .inr (outsized_of_toNumber? h)
    · obtain ⟨a, done⟩ := total x y
      rw [done] at h
      cases h

theorem outsized_of_looseEquals (h : looseEquals left right = .error fault) :
    left.IsOutsized ∨ right.IsOutsized := by
  unfold looseEquals at h
  split at h
  · cases h
  · cases h
  · cases h
  · split at h
    · cases h
    · split at h
      · cases h
      · refine outsized_of_numbers (fun x y => ?_) h
        cases x <;> cases y <;> exact ⟨_, rfl⟩

theorem outsized_of_order? (h : order? left right = .error fault) :
    left.IsOutsized ∨ right.IsOutsized := by
  unfold order? at h
  split at h
  · cases h
  · cases h
  · cases h
  · split at h
    · cases h
    · refine outsized_of_numbers (fun x y => ?_) h
      cases x <;> cases y <;> exact ⟨_, rfl⟩

end GuardedStore.Value
