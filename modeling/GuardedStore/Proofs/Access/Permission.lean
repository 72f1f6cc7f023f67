import GuardedStore.Proofs.Access.Stripping

/-! # More permission

A list of roles lets in whom one of its roles admits, so that a longer list lets in no fewer, and the order
and repetitions in it are of no account. Actions and fields differ only where nobody is known: the check of
an action ends early then, and the check of a field says no.

An override lets in who would have been turned away. Only the rule for the action sees it, and a check that
turns nobody away ends with it as it does without, also where rules assign.
-/

namespace GuardedStore

/-- Whether an operation ended because its caller is not known or may not do it. -/
def Fault.isDenial : Fault → Bool
  | .refused refusal => refusal.kind = .authorization || refusal.kind = .credential
  | _ => false

namespace Access

open Expression (Heap Slot Scope)

variable {attempt : Attempt} {heap : Heap}

/-- Whom a role admits to the record of an attempt: anyone, a known caller, or the caller whom the record
belongs to. Someone unknown may be taken for a user. -/
inductive Role.Admits (unknown : Bool) (attempt : Attempt) (heap : Heap) : Role → Prop
  | guest : Admits unknown attempt heap .guest
  | user (known : attempt.caller.isSome ∨ unknown) : Admits unknown attempt heap .user
  | owner {caller : Caller} (known : attempt.caller = some caller)
      (owns : outcome (callerOwns caller attempt.data) heap = .ok true) :
      Admits unknown attempt heap .owner

/-- One of the roles admits. -/
def SomeAdmits (unknown : Bool) (attempt : Attempt) (heap : Heap) (roles : List Role) : Prop :=
  ∃ role ∈ roles, role.Admits unknown attempt heap

theorem SomeAdmits.mono {unknown : Bool} {roles more : List Role} (h : SomeAdmits unknown attempt heap roles)
    (contained : roles ⊆ more) : SomeAdmits unknown attempt heap more :=
  let ⟨role, member, admits⟩ := h
  ⟨role, contained member, admits⟩

theorem someAdmits_of_unknown (nobody : attempt.caller = none) {unknown : Bool} {roles : List Role} :
    SomeAdmits unknown attempt heap roles ↔ .guest ∈ roles ∨ unknown = true ∧ .user ∈ roles := by
  constructor
  · rintro ⟨role, member, admits⟩
    cases admits with
    | guest => exact .inl member
    | user known => exact .inr ⟨by simpa [nobody] using known, member⟩
    | owner known => cases nobody.symm.trans known
  · rintro (guest | ⟨taken, user⟩)
    · exact ⟨.guest, guest, .guest⟩
    · exact ⟨.user, user, .user (.inr taken)⟩

theorem someAdmits_of_known {caller : Caller} (known : attempt.caller = some caller) {unknown : Bool}
    {roles : List Role} :
    SomeAdmits unknown attempt heap roles ↔ .guest ∈ roles ∨ .user ∈ roles ∨
      .owner ∈ roles ∧ outcome (callerOwns caller attempt.data) heap = .ok true := by
  constructor
  · rintro ⟨role, member, admits⟩
    cases admits with
    | guest => exact .inl member
    | user => exact .inr (.inl member)
    | owner same owns =>
        cases known.symm.trans same
        exact .inr (.inr ⟨member, owns⟩)
  · rintro (guest | user | ⟨owner, owns⟩)
    · exact ⟨.guest, guest, .guest⟩
    · exact ⟨.user, user, .user (.inl (known ▸ rfl))⟩
    · exact ⟨.owner, owner, .owner known owns⟩

theorem outcome_pure_true_iff {allowed : Bool} :
    outcome (pure allowed : Guarded Bool) heap = .ok true ↔ allowed = true := by
  simp [outcome, pure_run]

/-- A list of roles allows a field to those whom one of its roles admits. -/
theorem rolesAllowField_iff (roles : List Role) :
    outcome (rolesAllowField roles attempt) heap = .ok true ↔ SomeAdmits false attempt heap roles := by
  unfold rolesAllowField
  cases known : attempt.caller with
  | none =>
      rw [someAdmits_of_unknown known]
      by_cases guest : Role.guest ∈ roles <;> simp [guest, outcome_pure_true_iff]
  | some caller =>
      rw [someAdmits_of_known known]
      by_cases guest : Role.guest ∈ roles
      · simp [guest, outcome_pure_true_iff]
      by_cases user : Role.user ∈ roles
      · simp [guest, user, outcome_pure_true_iff]
      by_cases owner : Role.owner ∈ roles <;> simp [guest, user, owner, outcome_pure_true_iff]

theorem rolesAllowAction_of_known {caller : Caller} (known : attempt.caller = some caller)
    (roles : List Role) : rolesAllowAction roles attempt = rolesAllowField roles attempt := by
  simp only [rolesAllowAction, rolesAllowField, known]

/-- Someone unknown is let in as a guest, or as a user where there is an override; the check of an action ends
early where neither is possible. -/
theorem outcome_rolesAllowAction_of_unknown (nobody : attempt.caller = none) (roles : List Role) :
    outcome (rolesAllowAction roles attempt) heap =
      if .guest ∈ roles then .ok true
      else if attempt.override then .ok (decide (.user ∈ roles))
      else .error (.refused .unauthorized) := by
  simp only [rolesAllowAction, List.contains_iff_mem, nobody]
  split
  · rfl
  · split
    · rw [← List.elem_eq_mem]
      rfl
    · rfl

/-- A list of roles allows an action to those whom one of its roles admits, where an override takes everyone
for a user. -/
theorem rolesAllowAction_iff (roles : List Role) :
    outcome (rolesAllowAction roles attempt) heap = .ok true ↔
      SomeAdmits attempt.override attempt heap roles := by
  cases known : attempt.caller with
  | none =>
      rw [someAdmits_of_unknown known, outcome_rolesAllowAction_of_unknown known]
      by_cases guest : Role.guest ∈ roles <;> cases override : attempt.override <;> simp [guest]
  | some caller =>
      rw [rolesAllowAction_of_known known, rolesAllowField_iff, someAdmits_of_known known,
        someAdmits_of_known known]

/-- A list of roles allows whatever a list allows that it contains. Of a known caller it says the same whether
it is checked for an action or for a field. Of an unknown one it allows a field exactly when the check of an
action, without override, does not end early. -/
theorem roles_monotone_and_alike (attempt : Attempt) (scope : Scope) (heap : Heap) :
    (∀ roles more : List Role, roles ⊆ more →
      (outcome (allowsAction (.roles roles) scope attempt) heap = .ok true →
        outcome (allowsAction (.roles more) scope attempt) heap = .ok true) ∧
      (outcome (allowsField (.roles roles) scope attempt) heap = .ok true →
        outcome (allowsField (.roles more) scope attempt) heap = .ok true)) ∧
    (∀ (roles : List Role) (caller : Caller), attempt.caller = some caller →
      allowsAction (.roles roles) scope attempt heap = allowsField (.roles roles) scope attempt heap) ∧
    ∀ roles : List Role, attempt.caller = none → attempt.override = false →
      (outcome (allowsField (.roles roles) scope attempt) heap = .ok true ↔
        ∃ allowed, outcome (allowsAction (.roles roles) scope attempt) heap = .ok allowed) := by
  refine ⟨?_, ?_, ?_⟩
  · intro roles more contained
    simp only [allowsAction, allowsField, rolesAllowAction_iff, rolesAllowField_iff]
    exact ⟨fun admitted => admitted.mono contained, fun admitted => admitted.mono contained⟩
  · intro roles caller known
    exact congrFun (rolesAllowAction_of_known known roles) heap
  · intro roles nobody noOverride
    simp only [allowsAction, allowsField, rolesAllowField_iff, someAdmits_of_unknown nobody,
      outcome_rolesAllowAction_of_unknown nobody, noOverride]
    by_cases guest : Role.guest ∈ roles <;> simp [guest]

/-- The heap with a note of Ann's at its only address. -/
def heapOfAnnsNote : Heap :=
  ⟨#[.object [(idField, .plain (.str "n1")), (ownerField, .plain (.str "ann"))]]⟩

def ann : Caller where
  id := "ann"
  attributes := []

/-- Someone tries to delete that note. -/
def deletion (caller : Option Caller) : Attempt where
  action := .delete
  collection := some "notes"
  caller
  data := .shared 0
  newData := none
  override := false

/-- Nobody is seen, and nothing can be looked up. -/
def scopeOfNote : Scope where
  user := .plain .null
  data := .shared 0
  newData := .plain .null
  lookup := fun _ _ => .error ""

/-- Ann is let in as the owner of her note, and by a list that names owners twice. Someone unknown is not let
in as a user. -/
theorem roles_monotone_and_alike_for_ann :
    [Role.owner] ⊆ [.guest, .owner, .owner] ∧ (deletion (some ann)).caller = some ann ∧
      outcome (allowsAction (.roles [.owner]) scopeOfNote (deletion (some ann))) heapOfAnnsNote = .ok true ∧
      outcome (allowsAction (.roles [.guest, .owner, .owner]) scopeOfNote (deletion (some ann)))
        heapOfAnnsNote = .ok true ∧
      allowsAction (.roles [.owner]) scopeOfNote (deletion (some ann)) heapOfAnnsNote =
        allowsField (.roles [.owner]) scopeOfNote (deletion (some ann)) heapOfAnnsNote ∧
      (deletion none).caller = none ∧ (deletion none).override = false ∧
      ¬ ∃ allowed,
        outcome (allowsAction (.roles [.user]) scopeOfNote (deletion none)) heapOfAnnsNote = .ok allowed := by
  obtain ⟨monotone, alike, -⟩ := roles_monotone_and_alike (deletion (some ann)) scopeOfNote heapOfAnnsNote
  obtain ⟨-, -, unknown⟩ := roles_monotone_and_alike (deletion none) scopeOfNote heapOfAnnsNote
  have contained : [Role.owner] ⊆ [.guest, .owner, .owner] := by decide
  have owner : outcome (allowsAction (.roles [.owner]) scopeOfNote (deletion (some ann))) heapOfAnnsNote =
      .ok true := rfl
  refine ⟨contained, rfl, owner, (monotone _ _ contained).1 owner, alike _ ann rfl, rfl, rfl, ?_⟩
  rw [← unknown [.user] rfl rfl]
  intro allowed
  cases allowed

/-- However the operation ends, it is not a denial. -/
def Undenied {σ α : Type} (x : EStateM Fault σ α) : Prop :=
  ∀ s fault t, x s = .error fault t → fault.isDenial = false

section

variable {σ α β : Type}

theorem undenied_of_sure {x : EStateM Fault σ α} (sure : Sure x) : Undenied x := by
  intro s fault t failed
  obtain ⟨a, u, done⟩ := sure s
  cases done.symm.trans failed

theorem undenied_throw {fault : Fault} (h : fault.isDenial = false) :
    Undenied (throw fault : EStateM Fault σ α) := by
  rintro s _ t ⟨⟩
  exact h

theorem Undenied.bind {x : EStateM Fault σ α} {f : α → EStateM Fault σ β} (hx : Undenied x)
    (hf : ∀ a, Undenied (f a)) : Undenied (x >>= f) := by
  intro s fault t failed
  rcases bind_error_iff.mp failed with failed | ⟨a, u, -, failed⟩
  · exact hx s fault t failed
  · exact hf a u fault t failed

end

theorem sure_readField (slot : Slot) (name : String) : Sure (readField slot name) :=
  fun heap => ⟨_, heap, readField_eq heap slot name⟩

theorem sure_openScope (lookup : Lookup) (attempt : Attempt) : Sure (openScope lookup attempt) := by
  intro heap
  obtain ⟨scope, opened, opens, -⟩ := openScope_run lookup attempt heap
  exact ⟨scope, opened, opens⟩

theorem sure_dropField (attempt : Attempt) (name : String) : Sure (dropField attempt name) := by
  intro heap
  obtain ⟨left, done, -⟩ := strippedOf_dropField attempt name heap
  exact ⟨(), left, done⟩

theorem undenied_callerOwns (caller : Caller) (data : Slot) : Undenied (callerOwns caller data) := by
  refine (undenied_of_sure (sure_readField data ownerField)).bind fun owner => ?_
  split
  · exact undenied_of_sure (sure_pure _)
  · exact undenied_throw rfl

theorem undenied_holds (scope : Scope) (source : String) : Undenied (holds scope source) := by
  intro heap fault left failed
  rw [holds] at failed
  split at failed
  · cases failed
  all_goals
    cases failed
    rfl

theorem undenied_rolesAllowField (roles : List Role) (attempt : Attempt) :
    Undenied (rolesAllowField roles attempt) := by
  have always (allowed : Bool) : Undenied (pure allowed : Guarded Bool) := undenied_of_sure (sure_pure allowed)
  unfold rolesAllowField
  split
  · exact always _
  · split
    · exact always _
    · split
      · exact always _
      · split
        · exact undenied_callerOwns _ _
        · exact always _

theorem undenied_allowsField (rule : Rule) (scope : Scope) (attempt : Attempt) :
    Undenied (allowsField rule scope attempt) := by
  cases rule with
  | unset | flag => exact undenied_of_sure (sure_pure _)
  | expression source => exact undenied_holds scope source
  | roles roles => exact undenied_rolesAllowField roles attempt

/-- Rules for fields name the fields that they deny, and turn nobody away. -/
theorem undenied_deniedFields (scope : Scope) (attempt : Attempt) (rules : List (String × Rule)) :
    Undenied (deniedFields scope attempt rules) := by
  induction rules with
  | nil => exact undenied_of_sure (sure_pure _)
  | cons entry rest ih =>
      obtain ⟨name, rule⟩ := entry
      rw [deniedFields]
      refine (undenied_allowsField rule scope attempt).bind fun allowed => ?_
      split
      · exact ih
      · refine (undenied_of_sure (sure_dropField attempt name)).bind fun _ => ih.bind fun _ => ?_
        exact undenied_of_sure (sure_pure _)

theorem undenied_allowsAction (override : attempt.override = true) (rule : Rule) (scope : Scope) :
    Undenied (allowsAction rule scope attempt) := by
  cases rule with
  | unset | flag => exact undenied_of_sure (sure_pure _)
  | expression source => exact undenied_holds scope source
  | roles roles =>
      cases known : attempt.caller with
      | some caller =>
          rw [allowsAction, rolesAllowAction_of_known known]
          exact undenied_rolesAllowField roles attempt
      | none =>
          simp only [allowsAction, rolesAllowAction, known, override, if_true]
          split <;> exact undenied_of_sure (sure_pure _)

theorem isDenial_of_recordKey {ruleSet : RuleSet} {collection : Option String} {id : Value} {fault : Fault}
    (failed : recordKey ruleSet collection id = .error fault) : fault.isDenial = false := by
  unfold recordKey at failed
  split at failed
  · cases failed
  · split at failed <;> cases failed
    rfl
  · split at failed <;> cases failed
    rfl
  · cases failed

theorem undenied_enforce (override : attempt.override = true) (ruleSet : RuleSet) (lookup : Lookup) :
    Undenied (enforce ruleSet lookup attempt) := by
  refine (undenied_of_sure (sure_readField _ _)).bind fun id => ?_
  split
  · rename_i fault failed
    exact undenied_throw (isDenial_of_recordKey failed)
  · refine (undenied_of_sure (sure_openScope lookup attempt)).bind fun scope => ?_
    refine (undenied_allowsAction override _ scope).bind fun allowed => ?_
    simp only [override, Bool.not_true, Bool.and_false, Bool.false_eq_true, if_false]
    exact undenied_deniedFields scope attempt _

/-- The attempt with an override or without. -/
def Attempt.overriding (attempt : Attempt) (override : Bool) : Attempt :=
  { attempt with override }

/-- The lifted operation goes as the plain one does wherever that is not ended by a denial. -/
def LiftsDenials {σ α : Type} (plain lifted : EStateM Fault σ α) : Prop :=
  ∀ s, lifted s = plain s ∨ ∃ fault t, plain s = .error fault t ∧ fault.isDenial = true

section

variable {σ α β : Type}

theorem liftsDenials_self (x : EStateM Fault σ α) : LiftsDenials x x :=
  fun _ => .inl rfl

theorem LiftsDenials.bind {plain lifted : EStateM Fault σ α} {f g : α → EStateM Fault σ β}
    (first : LiftsDenials plain lifted) (later : ∀ a, LiftsDenials (f a) (g a)) :
    LiftsDenials (plain >>= f) (lifted >>= g) := by
  intro s
  rcases first s with same | ⟨fault, t, denied, isDenial⟩
  · cases done : plain s with
    | ok a t =>
        rw [bind_of_ok done, bind_of_ok (same.trans done)]
        exact later a t
    | error fault t => exact .inl ((bind_of_error (same.trans done)).trans (bind_of_error done).symm)
  · exact .inr ⟨fault, t, bind_of_error denied, isDenial⟩

end

theorem liftsDenials_allowsAction (rule : Rule) (scope : Scope) (attempt : Attempt) :
    LiftsDenials (allowsAction rule scope (attempt.overriding false))
      (allowsAction rule scope (attempt.overriding true)) := by
  cases rule with
  | unset | flag | expression => exact liftsDenials_self _
  | roles roles =>
      simp only [allowsAction, rolesAllowAction, Attempt.overriding]
      split
      · exact liftsDenials_self _
      · split
        · intro heap
          exact .inr ⟨.refused .unauthorized, heap, rfl, rfl⟩
        · exact liftsDenials_self _

theorem deniedFields_overriding (scope : Scope) (attempt : Attempt) (override : Bool)
    (rules : List (String × Rule)) :
    deniedFields scope (attempt.overriding override) rules = deniedFields scope attempt rules := by
  induction rules with
  | nil => rfl
  | cons entry rest ih =>
      rw [deniedFields, deniedFields, ih]
      rfl

theorem liftsDenials_enforce (ruleSet : RuleSet) (lookup : Lookup) (attempt : Attempt) :
    LiftsDenials (enforce ruleSet lookup (attempt.overriding false))
      (enforce ruleSet lookup (attempt.overriding true)) := by
  refine (liftsDenials_self _).bind fun id => ?_
  dsimp only [Attempt.overriding]
  split
  · exact liftsDenials_self _
  · refine (liftsDenials_self _).bind fun scope => ?_
    refine (liftsDenials_allowsAction _ scope attempt).bind fun allowed => ?_
    cases allowed with
    | true =>
        have sameFields := deniedFields_overriding scope attempt
        simp only [Attempt.overriding] at sameFields
        simp only [Bool.not_true, Bool.false_and, Bool.false_eq_true, if_false, sameFields]
        exact liftsDenials_self _
    | false =>
        intro heap
        exact .inr ⟨.refused .forbidden, heap, rfl, rfl⟩

/-- How a check ends with an override, beside how it ends without one. -/
structure OnlyPermits {σ α : Type} (plain overridden : EStateM.Result Fault σ α) : Prop where
  success : ∀ {a s}, plain = .ok a s → overridden = .ok a s
  failure : ∀ {fault s}, plain = .error fault s → fault.isDenial = false → overridden = .error fault s
  undenied : ∀ {fault s}, overridden = .error fault s → fault.isDenial = false

/-- An override only adds permission: a check that succeeds without it succeeds with it, with the same denied
fields and the same heap, one that fails for another reason than a denial fails alike, and none is denied. -/
theorem override_only_permits (ruleSet : RuleSet) (lookup : Lookup) (attempt : Attempt) (heap : Heap) :
    OnlyPermits (enforce ruleSet lookup (attempt.overriding false) heap)
      (enforce ruleSet lookup (attempt.overriding true) heap) := by
  have lifts := liftsDenials_enforce ruleSet lookup attempt heap
  constructor
  · intro denied left done
    rcases lifts with same | ⟨fault, _, failed, -⟩
    · exact same.trans done
    · cases done.symm.trans failed
  · intro fault left failed other
    rcases lifts with same | ⟨_, _, denied, isDenial⟩
    · exact same.trans failed
    · cases failed.symm.trans denied
      cases other.symm.trans isDenial
  · intro fault left failed
    exact undenied_enforce rfl ruleSet lookup heap fault left failed

/-- Nobody may delete a note, but someone unknown with an override does. -/
example : enforce { collections := [(.str "notes", { actions := { delete := some (.flag false) } })] }
    scopeOfNote.lookup ((deletion none).overriding true) heapOfAnnsNote = .ok [] heapOfAnnsNote := rfl

end Access

end GuardedStore
