import Mathlib
import GuardedStore.Store.Basic

/-! # Drawing ids

A supply is a sequence of ids of which each draw takes the next ones away: it passes over those that
are taken and hands out the first that is not. Draws end because the fresh ids are all different, so
that not all of them can be taken.
-/

namespace GuardedStore.Supply

/-- The id that a supply hands out after `n` others. -/
def nth (supply : Supply) (n : Nat) : String :=
  supply.queued[n]?.getD (supply.fresh (supply.serial + (n - supply.queued.length)))

/-- The fresh ids are all different. The queued ones may come again. -/
def FreshDiffer (supply : Supply) : Prop :=
  ∀ m n, supply.serial ≤ m → supply.serial ≤ n → supply.fresh m = supply.fresh n → m = n

/-- No id comes twice, be it queued or fresh. -/
def NeverRepeats (supply : Supply) : Prop :=
  Function.Injective supply.nth

theorem nth_fresh (supply : Supply) {m : Nat} (h : supply.serial ≤ m) :
    supply.nth (supply.queued.length + (m - supply.serial)) = supply.fresh m := by
  simp only [nth, List.getElem?_eq_none (Nat.le_add_right _ _), Option.getD_none]
  congr 1
  omega

theorem NeverRepeats.freshDiffer {supply : Supply} (h : supply.NeverRepeats) :
    supply.FreshDiffer := by
  intro m n hm hn same
  rw [← nth_fresh supply hm, ← nth_fresh supply hn] at same
  have places := h same
  omega

/-- One draw: the id with `passed` others before it, all of them taken, comes out, and the supply
goes on behind it. -/
structure Draws (supply : Supply) (taken : List String) (passed : Nat) (id : String)
    (rest : Supply) : Prop where
  id_eq : id = supply.nth passed
  new : id ∉ taken
  skipped : ∀ i < passed, supply.nth i ∈ taken
  rest_nth : ∀ n, rest.nth n = supply.nth (n + passed + 1)
  fresh_eq : rest.fresh = supply.fresh
  serial_le : supply.serial ≤ rest.serial

/-- The first id of a supply, and what the supply hands out behind it. -/
def next (supply : Supply) : String × Supply :=
  match supply.queued with
  | id :: queued => (id, { supply with queued })
  | [] => (supply.fresh supply.serial, { supply with serial := supply.serial + 1 })

/-- What a supply hands out when `n` ids were taken from it. -/
def after (supply : Supply) (n : Nat) : Supply :=
  (fun rest : Supply => rest.next.2)^[n] supply

theorem nth_zero (supply : Supply) : supply.nth 0 = supply.next.1 := by
  unfold nth next
  split <;> simp [*]

theorem next_nth (supply : Supply) (n : Nat) : supply.next.2.nth n = supply.nth (n + 1) := by
  unfold next
  split
  · rename_i id queued first
    simp only [nth, first, List.getElem?_cons_succ, List.length_cons]
    congr 3
    omega
  · rename_i empty
    simp only [nth, empty, List.length_nil, List.getElem?_nil, Option.getD_none]
    congr 1
    omega

theorem next_fresh (supply : Supply) : supply.next.2.fresh = supply.fresh := by
  unfold next
  split <;> rfl

theorem serial_le_next (supply : Supply) : supply.serial ≤ supply.next.2.serial := by
  unfold next
  split
  · exact le_refl _
  · exact Nat.le_succ _

theorem after_succ (supply : Supply) (n : Nat) : supply.after (n + 1) = supply.next.2.after n := rfl

variable {taken : List String}

/-- A run of the loop that takes an id, and another one as long as it is taken: how many it passes over, the id
that it ends with, and the supply behind it. A loop that goes on for ever has no run. -/
inductive Loops (taken : List String) : Supply → Nat → String × Supply → Prop
  | done {supply : Supply} (free : supply.next.1 ∉ taken) : Loops taken supply 0 supply.next
  | again {supply : Supply} {passed : Nat} {drawn : String × Supply} (known : supply.next.1 ∈ taken)
      (later : Loops taken supply.next.2 passed drawn) : Loops taken supply (passed + 1) drawn

theorem Loops.drawn_eq {supply : Supply} {passed : Nat} {drawn : String × Supply}
    (h : Loops taken supply passed drawn) : drawn = (supply.nth passed, supply.after (passed + 1)) := by
  induction h with
  | done => rw [nth_zero]; rfl
  | again _ _ ih => rw [ih, next_nth, ← after_succ]

theorem Loops.draws {supply : Supply} {passed : Nat} {drawn : String × Supply}
    (h : Loops taken supply passed drawn) : Draws supply taken passed drawn.1 drawn.2 := by
  induction h with
  | @done supply free =>
      exact {
        id_eq := supply.nth_zero.symm
        new := free
        skipped := by simp
        rest_nth := supply.next_nth
        fresh_eq := supply.next_fresh
        serial_le := supply.serial_le_next }
  | @again supply passed drawn known _ ih =>
      exact {
        id_eq := ih.id_eq.trans (supply.next_nth _)
        new := ih.new
        skipped := fun i hi => by
          cases i with
          | zero => exact supply.nth_zero ▸ known
          | succ i => exact supply.next_nth i ▸ ih.skipped i (Nat.lt_of_succ_lt_succ hi)
        rest_nth := fun n => (ih.rest_nth n).trans (supply.next_nth _)
        fresh_eq := ih.fresh_eq.trans supply.next_fresh
        serial_le := supply.serial_le_next.trans ih.serial_le }

theorem exists_fresh_notMem {supply : Supply} (h : supply.FreshDiffer) (taken : List String) :
    ∃ k ≤ taken.length, supply.fresh (supply.serial + k) ∉ taken := by
  by_contra none
  push Not at none
  let ids := (List.range (taken.length + 1)).map fun k => supply.fresh (supply.serial + k)
  have different : ids.Nodup := by
    refine List.Nodup.map_on ?_ List.nodup_range
    intro m _ n _ same
    have := h _ _ (Nat.le_add_right _ m) (Nat.le_add_right _ n) same
    omega
  have inside : ids ⊆ taken := by
    intro id member
    obtain ⟨k, hk, rfl⟩ := List.mem_map.mp member
    exact none k (Nat.lt_succ_iff.mp (List.mem_range.mp hk))
  have short := (different.subperm inside).length_le
  simp only [ids, List.length_map, List.length_range] at short
  omega

theorem next_of_empty {supply : Supply} (empty : supply.queued = []) :
    supply.next = (supply.fresh supply.serial, { supply with serial := supply.serial + 1 }) := by
  simp only [next, empty]

theorem loops_fresh {supply : Supply} (empty : supply.queued = []) (new : supply.fresh supply.serial ∉ taken) :
    Loops taken supply 0 (supply.fresh supply.serial, { supply with serial := supply.serial + 1 }) := by
  have first := next_of_empty empty
  have run : Loops taken supply 0 supply.next := .done (by rw [first]; exact new)
  rwa [first] at run

theorem drawFresh_loops {supply : Supply} (empty : supply.queued = []) (fuel : Nat)
    (free : ∃ k ≤ fuel, supply.fresh (supply.serial + k) ∉ taken) :
    ∃ passed ≤ fuel, Loops taken supply passed (drawFresh taken.contains fuel supply) := by
  induction fuel generalizing supply with
  | zero =>
      obtain ⟨k, hk, new⟩ := free
      cases Nat.le_zero.mp hk
      exact ⟨0, le_refl 0, loops_fresh empty new⟩
  | succ fuel ih =>
      by_cases known : supply.fresh supply.serial ∈ taken
      · obtain ⟨k, hk, new⟩ := free
        have later : ∃ k ≤ fuel, supply.fresh (supply.serial + 1 + k) ∉ taken := by
          cases k with
          | zero => exact absurd known new
          | succ k => exact ⟨k, by omega, by rwa [Nat.add_assoc, Nat.add_comm 1]⟩
        obtain ⟨passed, few, run⟩ := @ih { supply with serial := supply.serial + 1 } empty later
        refine ⟨passed + 1, by omega, ?_⟩
        rw [drawFresh, if_pos (by simpa using known)]
        have first := next_of_empty empty
        exact .again (by rw [first]; exact known) (by rw [first]; exact run)
      · exact ⟨0, Nat.zero_le _, by simpa [drawFresh, known] using loops_fresh empty known⟩

theorem drawFresh_clock (taken : String → Bool) (fuel : Nat) (supply : Supply) :
    (drawFresh taken fuel supply).2.clock = supply.clock := by
  induction fuel generalizing supply with
  | zero => rfl
  | succ fuel ih =>
      simp only [drawFresh]
      split
      · exact ih _
      · rfl

theorem drawId_clock (supply : Supply) (taken : List String) :
    (supply.drawId taken).2.clock = supply.clock := by
  simp only [drawId]
  split
  · rfl
  · exact drawFresh_clock _ _ _

theorem drawId_cons (taken : List String) (supply : Supply) (id : String) (queued : List String) :
    drawId { supply with queued := id :: queued } taken =
      if id ∈ taken then drawId { supply with queued } taken else (id, { supply with queued }) := by
  by_cases known : id ∈ taken <;> simp [drawId, known]

/-- The loop of a draw ends. It passes over no more than the queued ids and as many as are taken. -/
theorem drawId_loops {supply : Supply} (h : supply.FreshDiffer) (taken : List String) :
    ∃ passed ≤ supply.queued.length + taken.length, Loops taken supply passed (supply.drawId taken) := by
  obtain ⟨queued, fresh, serial, clock⟩ := supply
  induction queued with
  | nil =>
      obtain ⟨passed, few, run⟩ := drawFresh_loops rfl taken.length (exists_fresh_notMem h taken)
      exact ⟨passed, by simpa using few, run⟩
  | cons id queued ih =>
      have unfolded := drawId_cons taken ⟨[], fresh, serial, clock⟩ id queued
      by_cases known : id ∈ taken
      · obtain ⟨passed, few, run⟩ := ih h
        rw [if_pos known] at unfolded
        refine ⟨passed + 1, ?_, unfolded ▸ .again known run⟩
        simp only [List.length_cons] at few ⊢
        omega
      · rw [if_neg known] at unfolded
        exact ⟨0, Nat.zero_le _, unfolded ▸ .done known⟩

theorem drawId_draws {supply : Supply} (h : supply.FreshDiffer) (taken : List String) :
    ∃ passed, Draws supply taken passed (supply.drawId taken).1 (supply.drawId taken).2 := by
  obtain ⟨passed, -, run⟩ := drawId_loops h taken
  exact ⟨passed, run.draws⟩

theorem drawId_notMem {supply : Supply} (h : supply.FreshDiffer) (taken : List String) :
    (supply.drawId taken).1 ∉ taken := by
  obtain ⟨passed, drawn⟩ := drawId_draws h taken
  exact drawn.new

theorem FreshDiffer.drawId {supply : Supply} (h : supply.FreshDiffer) (taken : List String) :
    (supply.drawId taken).2.FreshDiffer := by
  obtain ⟨passed, drawn⟩ := drawId_draws h taken
  intro m n hm hn same
  rw [drawn.fresh_eq] at same
  exact h m n (drawn.serial_le.trans hm) (drawn.serial_le.trans hn) same

theorem FreshDiffer.tick {supply : Supply} (h : supply.FreshDiffer) : supply.tick.2.FreshDiffer := h

/-- The ids of the second supply are those of the first one, from some place on. -/
def Follows (supply rest : Supply) : Prop :=
  ∃ passed, ∀ n, rest.nth n = supply.nth (n + passed)

/-- The supply does not hand out an id any more. -/
def Spent (supply : Supply) (id : String) : Prop :=
  ∀ n, supply.nth n ≠ id

theorem Follows.trans {supply next rest : Supply} (h : supply.Follows next) (h' : next.Follows rest) :
    supply.Follows rest := by
  obtain ⟨first, h⟩ := h
  obtain ⟨second, h'⟩ := h'
  refine ⟨second + first, fun n => ?_⟩
  rw [h', h, Nat.add_assoc]

theorem Follows.neverRepeats {supply rest : Supply} (h : supply.Follows rest)
    (unrepeated : supply.NeverRepeats) : rest.NeverRepeats := by
  obtain ⟨passed, h⟩ := h
  intro m n same
  rw [h, h] at same
  have places := unrepeated same
  omega

theorem Follows.spent {supply rest : Supply} {id : String} (h : supply.Follows rest)
    (spent : supply.Spent id) : rest.Spent id := by
  obtain ⟨passed, h⟩ := h
  intro n
  rw [h]
  exact spent _

theorem follows_tick (supply : Supply) : supply.Follows supply.tick.2 :=
  ⟨0, fun _ => rfl⟩

theorem NeverRepeats.follows_drawId {supply : Supply} (h : supply.NeverRepeats)
    (taken : List String) : supply.Follows (supply.drawId taken).2 := by
  obtain ⟨passed, drawn⟩ := drawId_draws h.freshDiffer taken
  exact ⟨passed + 1, drawn.rest_nth⟩

theorem NeverRepeats.spent_drawId {supply : Supply} (h : supply.NeverRepeats)
    (taken : List String) : (supply.drawId taken).2.Spent (supply.drawId taken).1 := by
  obtain ⟨passed, drawn⟩ := drawId_draws h.freshDiffer taken
  intro n same
  rw [drawn.rest_nth, drawn.id_eq] at same
  have places := h same
  omega

theorem Spent.ne_drawId {supply : Supply} {id : String} (spent : supply.Spent id)
    (differ : supply.FreshDiffer) (taken : List String) : (supply.drawId taken).1 ≠ id := by
  obtain ⟨passed, drawn⟩ := drawId_draws differ taken
  rw [drawn.id_eq]
  exact spent passed

/-- The supply of the ids `id-1`, `id-2` and so on, behind some queued ones. -/
def numbered (queued : List String) : Supply where
  queued
  fresh n := "id-" ++ toString n
  serial := 1
  clock := 0

theorem numbered_fresh_injective (queued : List String) :
    Function.Injective (numbered queued).fresh := by
  intro m n same
  have digits : toString m = toString n := String.append_right_inj _ |>.mp same
  exact Nat.repr_injective digits

theorem numbered_freshDiffer (queued : List String) : (numbered queued).FreshDiffer :=
  fun _ _ _ _ same => numbered_fresh_injective queued same

theorem numbered_neverRepeats : (numbered []).NeverRepeats := by
  intro m n same
  have serials := numbered_fresh_injective []
    (show (numbered []).fresh (1 + (m - 0)) = (numbered []).fresh (1 + (n - 0)) from same)
  omega

end GuardedStore.Supply
