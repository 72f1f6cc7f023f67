import GuardedStore.Proofs.Access.Determinacy
import GuardedStore.Proofs.Expression.Readback
import GuardedStore.Proofs.Query.Blindness
import GuardedStore.Proofs.Request.Gating
import GuardedStore.Proofs.Request.Ownership

/-! # Checking records in disguise

Records under the same ids may differ in fields that nobody may read. Where no expression decides, they
pass the same checks, are denied the same fields, and come out of the checks as alike as they were.
-/

namespace GuardedStore.Request

open Access (Caller Lookup SameAttempt)
open Expression (Grows Heap Slot)
open Expression.Heap (Extends Keeps Settled)
open Query (AlikeRows)
open Record (AlikeBut)

/-- Two records with the same id, which look alike but for overlooked fields that nobody may read. -/
structure Disguised (rules : Access.RuleSet) (collection : Option String) (overlooked : List String)
    (one other : Record) : Prop where
  settled : Settled one ∧ Settled other
  alike : ∃ id hidden, one.value idField = .str id ∧ other.value idField = .str id ∧
    hidden ⊆ overlooked ∧ AlikeBut hidden one other ∧
    ∀ field ∈ hidden, (field, .flag false) ∈ (rules.resolve .read collection (some id)).fields

variable {rules : Access.RuleSet} {service : Service} {lookup lookup' : Lookup} {request : Request}
  {caller : Option Caller} {overlooked : List String} {one other : Record}
  {records records' : List Record} {heap heap' : Heap} {slots slots' : List Slot}

theorem Disguised.alikeBut {collection : Option String}
    (h : Disguised rules collection overlooked one other) : AlikeBut overlooked one other := by
  obtain ⟨_, _, -, -, among, alike, -⟩ := h.alike
  exact alike.mono among

theorem loadRecords_keeps (settled : ∀ record ∈ records, Settled record) (heap : Heap) :
    ∃ slots heap', loadRecords records heap = .ok slots heap' ∧ Extends heap heap' ∧
      List.Forall₂ (Keeps heap') slots records := by
  induction records generalizing heap with
  | nil => exact ⟨[], heap, rfl, .refl heap, .nil⟩
  | cons record rest ih =>
      obtain ⟨slots, heap', loaded, grown, kept⟩ :=
        ih (fun record later => settled record (List.mem_cons_of_mem _ later))
          (heap.loadRecord record).2
      have first := (settled record List.mem_cons_self).keeps heap
      refine ⟨(heap.loadRecord record).1 :: slots, heap', ?_,
        (Heap.loadRecord_extends heap record).trans grown, .cons (first.mono grown) kept⟩
      have load : Access.loadRecord record heap = .ok _ _ := rfl
      rw [loadRecords, bind_of_ok load]
      exact bind_of_ok loaded

/-- Heaps that have grown out of two heaps. -/
def Grown (heap heap' : Heap) (_ : Unit) (next next' : Heap) : Prop :=
  Extends heap next ∧ Extends heap' next'

theorem agree_of_outcomes {α : Type} {x y : Access.Guarded α} {Same : α → α → Prop} (grows : Grows x)
    (grows' : Grows y) (same : ∀ next next', Extends heap next → Extends heap' next' →
      ResultsAlike Same (outcome x next) (outcome y next')) :
    Agree (Grown heap heap') (fun _ => Same) () x y := by
  intro next next' ⟨grown, grown'⟩
  have after := grown.trans (grows next)
  have after' := grown'.trans (grows' next')
  have ended := same next next' grown grown'
  refine ⟨(), le_refl (), ?_⟩
  simp only [leaves, outcome] at after after' ended
  generalize x next = r, y next' = r' at after after' ended
  cases r <;> cases r' <;> cases ended
  · exact .ok ⟨after, after'⟩ ‹_›
  · exact .error ⟨after, after'⟩

variable (plain : ∀ id, (service.rules.resolve .read request.collection id).Expressionless)
  (owned : ownerField ∉ overlooked)
include plain owned

/-- Records in disguise pass the check for reading or fail it together, and are denied the same fields,
among them all in which they differ. -/
theorem enforce_agree {slot slot' : Slot}
    (disguised : Disguised service.rules request.collection overlooked one other)
    (kept : Keeps heap slot one) (kept' : Keeps heap' slot' other) :
    Agree (Grown heap heap')
      (fun _ denied denied' => denied = denied' ∧ AlikeBut (overlooked ∩ denied) one other) ()
      (Access.enforce service.rules lookup (readAttempt request caller slot))
      (Access.enforce service.rules lookup' (readAttempt request caller slot')) := by
  obtain ⟨id, hidden, named, named', among, alike, unread⟩ := disguised.alike
  have grows (lookup : Lookup) (slot : Slot) :
      Grows (Access.enforce service.rules lookup (readAttempt request caller slot)) :=
    Access.grows_enforce rfl (fun id => (plain id).unassigning) lookup
  refine agree_of_outcomes (grows lookup slot) (grows lookup' slot') fun next next' grown grown' => ?_
  have held := kept.held.mono grown
  have held' := kept'.held.mono grown'
  have same : SameAttempt next next' (readAttempt request caller slot) (readAttempt request caller slot') :=
    { action := rfl
      collection := rfl
      override := rfl
      known := rfl
      nothing := ⟨rfl, rfl⟩
      held := ⟨one, other, held, held', alike.value fun listed => owned (among listed)⟩ }
  have ended := same.outcome_enforce held held' named named' (plain (some id)) lookup lookup'
  rw [← ended]
  cases checked : outcome (Access.enforce service.rules lookup (readAttempt request caller slot)) next with
  | error fault => exact .error fault
  | ok denied =>
      refine .ok ⟨rfl, alike.mono fun field listed => List.mem_inter_iff.mpr ⟨among listed, ?_⟩⟩
      exact Access.mem_of_outcome_enforce rfl held named (plain (some id)) (unread field listed) checked

/-- Rows of records that differ in denied fields only. -/
def DifferInDenied (overlooked : List String) (records records' : List Record)
    (denied denied' : List (List String)) : Prop :=
  denied = denied' ∧ AlikeRows overlooked (denied.map (overlooked ∩ ·)) records records'

theorem gateSlots_agree
    (disguised : List.Forall₂ (Disguised service.rules request.collection overlooked) records records')
    (kept : List.Forall₂ (Keeps heap) slots records)
    (kept' : List.Forall₂ (Keeps heap') slots' records') :
    Agree (Grown heap heap') (fun _ => DifferInDenied overlooked records records') ()
      (gateSlots service lookup request caller slots) (gateSlots service lookup' request caller slots') := by
  induction disguised generalizing slots slots' with
  | nil =>
      cases kept
      cases kept'
      exact agree_pure ⟨rfl, .nil⟩
  | cons first _ ih =>
      cases kept with
      | cons here kept =>
          cases kept' with
          | cons here' kept' =>
              rw [gateSlots, gateSlots]
              refine (enforce_agree plain owned first here here').bind fun _ denied denied' _ same => ?_
              refine (ih kept kept').bind fun _ others others' _ rest => agree_pure ?_
              exact ⟨by rw [same.1, rest.1], .cons (List.inter_subset_left) same.2 rest.2⟩

/-- Records that came out of checks with the same denied fields, in which alone they differ, and as they
went in. -/
structure GatedAlike (overlooked : List String) (records : List Record) (gated gated' : List Gated) :
    Prop where
  denied : gated.map (·.denied) = gated'.map (·.denied)
  rows : AlikeRows overlooked ((gated.map (·.denied)).map (overlooked ∩ ·)) (gated.map (·.record))
    (gated'.map (·.record))
  unchanged : List.Forall₂ (AlikeBut []) (gated.map (·.record)) records

omit plain owned in
theorem GatedAlike.cons {gated gated' : List Gated} {denied : List String} {record : Record}
    (alike : AlikeBut (overlooked ∩ denied) one other) (same : AlikeBut [] one record)
    (rest : GatedAlike overlooked records gated gated') :
    GatedAlike overlooked (record :: records) (⟨one, denied⟩ :: gated) (⟨other, denied⟩ :: gated') where
  denied := by rw [List.map_cons, List.map_cons, rest.denied]
  rows := .cons List.inter_subset_left alike rest.rows
  unchanged := .cons same rest.unchanged

omit plain owned in
theorem gatedAlike_of_keeps {denied denied' : List (List String)}
    (same : DifferInDenied overlooked records records' denied denied')
    (kept : List.Forall₂ (Keeps heap) slots records)
    (kept' : List.Forall₂ (Keeps heap') slots' records') :
    GatedAlike overlooked records
      (List.zipWith (fun slot denied => ⟨heap.readRecord slot, denied⟩) slots denied)
      (List.zipWith (fun slot denied => ⟨heap'.readRecord slot, denied⟩) slots' denied') := by
  obtain ⟨rfl, rows⟩ := same
  induction denied generalizing slots slots' records records' with
  | nil =>
      cases rows
      exact ⟨by simp, by simpa using AlikeRows.nil, by simp⟩
  | cons names rest ih =>
      cases rows with
      | cons _ alike rows =>
          cases kept with
          | cons first kept =>
              cases kept' with
              | cons first' kept' =>
                  have same := first.read heap (.refl heap)
                  have left := same.mono (List.nil_subset (overlooked ∩ names))
                  have right :=
                    (first'.read heap' (.refl heap')).mono (List.nil_subset (overlooked ∩ names))
                  exact .cons (left.trans (alike.trans right.symm)) same (ih kept kept' rows)

omit plain owned in
theorem outcome_gateRecords {alone : Heap} (known : loadCaller? request.principal .empty = .ok caller alone)
    (loaded : loadRecords records alone = .ok slots heap) :
    outcome (gateRecords service lookup request records) .empty =
      outcome (do
        let denied ← gateSlots service lookup request caller slots
        let heap ← get
        return List.zipWith (fun slot denied => ⟨heap.readRecord slot, denied⟩) slots denied) heap := by
  rw [outcome, gateRecords, bind_of_ok known, bind_of_ok loaded]
  rfl

/-- Records in disguise come out of the checks alike, or do not pass them for the same reason. -/
theorem gateRecords_alike (lookup lookup' : Lookup)
    (disguised : List.Forall₂ (Disguised service.rules request.collection overlooked) records records') :
    ResultsAlike (GatedAlike overlooked records)
      (outcome (gateRecords service lookup request records) .empty)
      (outcome (gateRecords service lookup' request records') .empty) := by
  obtain ⟨caller, alone, known, -⟩ := loadCaller?_run request.principal .empty
  have settled : ∀ record ∈ records, Settled record := fun record member =>
    let ⟨_, _, found⟩ := exists_mem_of_forall₂ disguised member
    found.settled.1
  have settled' : ∀ record ∈ records', Settled record := fun record member =>
    let ⟨_, _, found⟩ := exists_mem_of_forall₂ disguised.flip member
    found.settled.2
  obtain ⟨slots, heap, loaded, -, kept⟩ := loadRecords_keeps settled alone
  obtain ⟨slots', heap', loaded', -, kept'⟩ := loadRecords_keeps settled' alone
  rw [outcome_gateRecords known loaded, outcome_gateRecords known loaded']
  have start : Grown heap heap' () heap heap' := ⟨.refl heap, .refl heap'⟩
  refine Agree.resultsAlike ?_ start
  refine (gateSlots_agree plain owned disguised kept kept').bind fun _ denied denied' _ same => ?_
  refine agree_get.bind fun _ next next' _ grown => agree_pure ?_
  exact gatedAlike_of_keeps same (kept.imp fun _ _ h => h.mono grown.1)
    (kept'.imp fun _ _ h => h.mono grown.2)

end GuardedStore.Request
