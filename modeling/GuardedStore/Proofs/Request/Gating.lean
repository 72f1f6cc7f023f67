import GuardedStore.Proofs.Access.Blindness
import GuardedStore.Proofs.Access.Stripping
import GuardedStore.Request.Execution

/-! # Checking many records

The records of a read are loaded side by side and checked one after another on one heap. Each of them is
checked as it would be alone, as long as the checks before it leave the attributes of the caller as they
are: because no rule assigns anything, or because the attributes hold no list or object that could be
changed.
-/

namespace GuardedStore.Request

open Access (Attempt Caller CallerTwin Lookup Principal)
open Expression (Blind Heap Link Mirrors Node Slot Twin)
open Expression.Heap (Extends)

variable {service : Service} {lookup : Lookup} {request : Request} {caller : Option Caller}
  {alone heap heap' : Heap} {kept : Nat → Option Node} {link : Link} {first last : Nat} {slot : Slot}
  {slots : List Slot} {record : Record} {records : List Record} {denied : List (List String)}

theorem blind_loadCaller? (principal : Option Principal) :
    Blind kept (fun link => Option.Rel (CallerTwin link)) link (loadCaller? principal)
      (loadCaller? principal) := by
  intro heap heap' m
  cases principal with
  | none => exact ⟨link, le_refl link, .ok m .none⟩
  | some principal =>
      obtain ⟨later, grown, m, twins⟩ := m.loadFields principal.attributes
      exact ⟨later, grown, .ok m (.some ⟨rfl, twins⟩)⟩

theorem blind_loadRecord (record : Record) :
    Blind kept Twin link (Access.loadRecord record) (Access.loadRecord record) := by
  intro heap heap' m
  obtain ⟨later, grown, m, twin⟩ := m.loadRecord record
  exact ⟨later, grown, .ok m twin⟩

section Congruence

variable {request' : Request} (collection : request.collection = request'.collection)
  (principal : request.principal = request'.principal) (override : request.override = request'.override)
include collection override

theorem gateSlots_congr :
    gateSlots service lookup request caller slots = gateSlots service lookup request' caller slots := by
  induction slots with
  | nil => rfl
  | cons slot rest ih => rw [gateSlots, gateSlots, ih, collection, override]

include principal

/-- Of a request for reading, the checks see the collection, the principal and the override. -/
theorem gateRecords_congr :
    gateRecords service lookup request records = gateRecords service lookup request' records := by
  simp only [gateRecords, gateSlots_congr collection override, principal]

end Congruence

/-- Records come out of their checks as the last of them leaves the records, the caller being loaded first and
the records behind. -/
theorem gateRecords_ok_iff {start : Heap} {gated : List Gated} :
    gateRecords service lookup request records start = .ok gated heap ↔
      ∃ caller alone slots loaded denied,
        loadCaller? request.principal start = .ok caller alone ∧ loadRecords records alone = .ok slots loaded ∧
          gateSlots service lookup request caller slots loaded = .ok denied heap ∧
          gated = List.zipWith (fun slot denied => ⟨heap.readRecord slot, denied⟩) slots denied := by
  rw [gateRecords]
  constructor
  · intro done
    obtain ⟨caller, alone, known, done⟩ := bind_ok_iff.mp done
    obtain ⟨slots, loaded, loads, done⟩ := bind_ok_iff.mp done
    obtain ⟨denied, last, checks, done⟩ := bind_ok_iff.mp done
    rw [get_bind] at done
    cases done
    exact ⟨caller, alone, slots, loaded, denied, known, loads, checks, rfl⟩
  · rintro ⟨caller, alone, slots, loaded, denied, known, loads, checks, rfl⟩
    rw [bind_of_ok known, bind_of_ok loads, bind_of_ok checks]
    rfl

/-- A record among others mirrors the same record loaded `alone` behind its caller. It takes the
addresses from `first` to before `last`, and shares those of the caller. -/
inductive Stands (caller : Option Caller) (alone heap : Heap) (first last : Nat) (slot : Slot)
    (record : Record) : Prop
  | intro {link : Link} {slot' : Slot} {heap' : Heap}
      (loaded : Access.loadRecord record alone = .ok slot' heap')
      (mirrors : Mirrors (fun _ => none) link heap heap')
      (known : Option.Rel (CallerTwin link) caller caller)
      (twin : Twin link slot slot')
      (within : ∀ {a b}, link a b → a < alone.nodes.size ∨ first ≤ a ∧ a < last)

/-- Records that stand one behind the other, from the address `first` on. -/
inductive Row (caller : Option Caller) (alone heap : Heap) : Nat → List Slot → List Record → Prop
  | nil {first : Nat} : Row caller alone heap first [] []
  | cons {first last : Nat} {slot : Slot} {slots : List Slot} {record : Record} {records : List Record}
      (ordered : first ≤ last) (behind : alone.nodes.size ≤ last)
      (stands : Stands caller alone heap first last slot record)
      (rest : Row caller alone heap last slots records) :
      Row caller alone heap first (slot :: slots) (record :: records)

theorem Stands.mono (h : Stands caller alone heap first last slot record)
    (same : ∀ a < heap.nodes.size, a < alone.nodes.size ∨ first ≤ a → heap'.node? a = heap.node? a) :
    Stands caller alone heap' first last slot record := by
  obtain ⟨loaded, mirrors, known, twin, within⟩ := h
  refine ⟨loaded, mirrors.rebase (fun linked => ?_) nofun, known, twin, within⟩
  exact same _ (mirrors.inside linked).1 ((within linked).imp_right (·.1))

theorem Row.mono (row : Row caller alone heap first slots records)
    (same : ∀ a < heap.nodes.size, a < alone.nodes.size ∨ first ≤ a → heap'.node? a = heap.node? a) :
    Row caller alone heap' first slots records := by
  induction row with
  | nil => exact .nil
  | cons ordered behind stands _ ih =>
      refine .cons ordered behind (stands.mono same) (ih fun a inside place => ?_)
      exact same a inside (place.imp_right ordered.trans)

/-- A caller mirrors itself. -/
theorem mirrors_caller {principal : Option Principal}
    (known : loadCaller? principal .empty = .ok caller alone) :
    ∃ link, Mirrors (fun _ => none) link alone alone ∧ Option.Rel (CallerTwin link) caller caller := by
  obtain ⟨link, _, _, -, known', m, callers⟩ := (blind_loadCaller? principal).ok_left .empty known
  cases known.symm.trans known'
  exact ⟨link, m, callers⟩

theorem row_of_loadRecords (callers : Option.Rel (CallerTwin link) caller caller)
    (m : Mirrors (fun _ => none) link alone alone) (grown : Extends alone heap)
    (done : loadRecords records heap = .ok slots heap') :
    Row caller alone heap' heap.nodes.size slots records ∧ Extends heap heap' := by
  induction records generalizing heap slots with
  | nil =>
      cases done
      exact ⟨.nil, .refl _⟩
  | cons record rest ih =>
      rw [loadRecords] at done
      obtain ⟨slot, next, loaded, done⟩ := bind_ok_iff.mp done
      obtain ⟨others, last, done, ends⟩ := bind_ok_iff.mp done
      cases ends
      have step : Extends heap next := by
        cases loaded
        exact Heap.loadRecord_extends heap record
      obtain ⟨row, later⟩ := ih (grown.trans step) done
      -- What stands between the caller and the record is kept, so the record does not reach it.
      have m : Mirrors (heap.nodesFrom alone.nodes.size) link heap alone :=
        m.keepFrom (fun linked => grown.2 _ (m.inside linked).1) fun linked => (m.inside linked).1
      obtain ⟨link', slot', heap₁, grown', loaded', m', twin⟩ :=
        (blind_loadRecord record).ok_left m loaded
      have within {a b : Nat} (linked : link' a b) :
          a < alone.nodes.size ∨ heap.nodes.size ≤ a ∧ a < next.nodes.size := by
        by_contra outside
        have inside := (m'.inside linked).1
        exact (m'.keptFrom (a := a) (by omega) (by omega)).2 b linked
      have stands : Stands caller alone next heap.nodes.size next.nodes.size slot record :=
        ⟨loaded', m'.rebase (fun _ => rfl) nofun, Access.rel_mono callers fun same => same.mono grown',
          twin, within⟩
      exact ⟨.cons step.1 (grown.1.trans step.1) (stands.mono fun a inside _ => later.2 a inside) row,
        step.trans later⟩

/-- How the reading of a record is attempted. -/
def readAttempt (request : Request) (caller : Option Caller) (data : Slot) : Attempt where
  action := .read
  collection := request.collection
  caller
  data
  newData := none
  override := request.override

/-- A record that is loaded alone behind its caller passes its check, which denies some fields. -/
def PassesAlone (service : Service) (lookup : Lookup) (request : Request) (caller : Option Caller)
    (alone : Heap) (record : Record) (denied : List String) : Prop :=
  ∃ slot heap heap', Access.loadRecord record alone = .ok slot heap ∧
    Access.enforce service.rules lookup (readAttempt request caller slot) heap = .ok denied heap'

/-- A record passes its check among others as it does alone, and what stands behind it is kept. -/
theorem Stands.passes {names : List String} {next : Heap}
    (stands : Stands caller alone heap first last slot record) (behind : alone.nodes.size ≤ last)
    (checks : Access.enforce service.rules lookup (readAttempt request caller slot) heap =
      .ok names next) :
    PassesAlone service lookup request caller alone record names ∧
      ∀ a < heap.nodes.size, last ≤ a → next.node? a = heap.node? a := by
  cases stands with
  | @intro link slot' alone' loaded m known twin within =>
      have m : Mirrors (heap.nodesFrom last) link heap alone' :=
        m.keepFrom (fun _ => rfl) fun linked => by
          rcases within linked with own | here <;> omega
      have same : Access.AttemptTwin link (readAttempt request caller slot)
          (readAttempt request caller slot') := ⟨rfl, rfl, known, twin, .none, rfl⟩
      obtain ⟨later, names', last', -, checks', m', equal⟩ :=
        (Access.blind_enforce service.rules lookup same).ok_left m checks
      cases equal
      exact ⟨⟨_, _, _, loaded, checks'⟩, fun a inside beyond => (m'.keptFrom beyond inside).1⟩

/-- Checks for reading leave the attributes of the caller as they are: no rule assigns anything, or no
attribute is a list or object. -/
def KeepsCaller (rules : Access.RuleSet) (request : Request) : Prop :=
  (∀ id, (rules.resolve .read request.collection id).Unassigning) ∨
    ∀ principal, request.principal = some principal →
      ∀ field ∈ principal.attributes, field.2.isContainer = false

theorem KeepsCaller.node?_eq {names : List String} {next : Heap}
    (keeps : KeepsCaller service.rules request)
    (known : loadCaller? request.principal .empty = .ok caller alone)
    (checks : Access.enforce service.rules lookup (readAttempt request caller slot) heap =
      .ok names next) :
    ∀ a < heap.nodes.size, a < alone.nodes.size → next.node? a = heap.node? a := by
  intro a inside own
  rcases keeps with unassigning | plain
  · exact ((Access.grows_enforce rfl unassigning lookup).of_ok checks).2 a inside
  · -- Without lists and objects, the caller has no addresses.
    have empty : alone = .empty := by
      cases isPrincipal : request.principal with
      | none =>
          rw [isPrincipal] at known
          cases known
          rfl
      | some principal =>
          rw [isPrincipal] at known
          cases known
          exact Heap.loadFields_plain .empty (plain principal isPrincipal)
    rw [empty] at own
    cases own

theorem passesAlone_of_gateSlots (row : Row caller alone heap first slots records)
    (keeps : KeepsCaller service.rules request)
    (known : loadCaller? request.principal .empty = .ok caller alone)
    (done : gateSlots service lookup request caller slots heap = .ok denied heap') :
    List.Forall₂ (PassesAlone service lookup request caller alone) records denied := by
  induction records generalizing heap first slots denied with
  | nil =>
      cases row
      cases done
      exact .nil
  | cons record rest ih =>
      cases row with
      | cons ordered behind stands row =>
          rw [gateSlots] at done
          obtain ⟨names, next, checks, done⟩ := bind_ok_iff.mp done
          obtain ⟨others, _, done, ends⟩ := bind_ok_iff.mp done
          cases ends
          obtain ⟨passes, kept⟩ := stands.passes behind checks
          have same := keeps.node?_eq known checks
          exact .cons passes (ih (row.mono fun a inside place => place.elim (same a inside)
            (kept a inside)) done)

theorem gateRecords_single {denied : List String}
    (known : loadCaller? request.principal .empty = .ok caller alone)
    (passes : PassesAlone service lookup request caller alone record denied) :
    ∃ left heap', gateRecords service lookup request [record] .empty = .ok [⟨left, denied⟩] heap' := by
  obtain ⟨slot, heap, heap', loaded, checked⟩ := passes
  have loading : loadRecords [record] alone = .ok [slot] heap := by
    rw [loadRecords, bind_of_ok loaded]
    rfl
  have gating : gateSlots service lookup request caller [slot] heap = .ok [denied] heap' := by
    rw [gateSlots]
    exact bind_of_ok checked
  refine ⟨heap'.readRecord slot, heap', ?_⟩
  exact gateRecords_ok_iff.mpr ⟨caller, alone, [slot], heap, [denied], known, loading, gating, rfl⟩

theorem length_of_row (row : Row caller alone heap first slots records) :
    slots.length = records.length := by
  induction row with
  | nil => rfl
  | cons _ _ _ _ ih => simp only [List.length_cons, ih]

theorem forall₂_zipWith {α β γ δ : Type} {R : α → β → Prop} {S : α → δ → Prop} {f : γ → β → δ}
    {as : List α} {bs : List β} (h : List.Forall₂ R as bs) {cs : List γ}
    (same : cs.length = as.length) (step : ∀ a b c, R a b → S a (f c b)) :
    List.Forall₂ S as (List.zipWith f cs bs) := by
  induction h generalizing cs with
  | nil =>
      rw [List.zipWith_nil_right]
      exact .nil
  | cons first _ ih =>
      cases cs with
      | nil => cases same
      | cons c cs => exact .cons (step _ _ c first) (ih (Nat.succ_inj.mp same))

theorem exists_mem_of_forall₂ {α β : Type} {R : α → β → Prop} {as : List α} {bs : List β}
    (h : List.Forall₂ R as bs) {a : α} (member : a ∈ as) : ∃ b ∈ bs, R a b := by
  induction h with
  | nil => cases member
  | cons first _ ih =>
      rcases List.mem_cons.mp member with rfl | later
      · exact ⟨_, List.mem_cons_self, first⟩
      · obtain ⟨b, among, related⟩ := ih later
        exact ⟨b, List.mem_cons_of_mem _ among, related⟩

theorem gated_of_single {record : Record} {start : Heap} {gated : List Gated}
    (done : gateRecords service lookup request [record] start = .ok gated heap) : ∃ one, gated = [one] := by
  obtain ⟨caller, alone, slots, loaded, denied, -, loads, checks, rfl⟩ := gateRecords_ok_iff.mp done
  rw [loadRecords] at loads
  obtain ⟨slot, next, -, ends⟩ := bind_ok_iff.mp loads
  cases ends
  rw [gateSlots] at checks
  obtain ⟨names, last, -, ends⟩ := bind_ok_iff.mp checks
  cases ends
  exact ⟨_, rfl⟩

/-- Records that pass their checks together pass them one by one, and are denied the same fields. -/
theorem gateRecords_each {gated : List Gated}
    (keeps : KeepsCaller service.rules request ∨ ∃ record, records = [record])
    (done : gateRecords service lookup request records .empty = .ok gated heap) :
    List.Forall₂ (fun record (one : Gated) => ∃ left heap',
      gateRecords service lookup request [record] .empty = .ok [⟨left, one.denied⟩] heap')
      records gated := by
  rcases keeps with keeps | ⟨record, rfl⟩
  · obtain ⟨caller, alone, slots, loaded, denied, known, loads, checks, rfl⟩ := gateRecords_ok_iff.mp done
    obtain ⟨link, m, callers⟩ := mirrors_caller known
    obtain ⟨row, -⟩ := row_of_loadRecords callers m (.refl alone) loads
    have passed := passesAlone_of_gateSlots row keeps known checks
    exact forall₂_zipWith passed (length_of_row row) fun _ _ _ passes => gateRecords_single known passes
  · obtain ⟨one, rfl⟩ := gated_of_single done
    exact .cons ⟨one.record, heap, done⟩ .nil

end GuardedStore.Request
