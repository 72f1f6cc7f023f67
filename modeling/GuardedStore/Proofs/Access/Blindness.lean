import GuardedStore.Access.Enforcement
import GuardedStore.Proofs.Expression.Blindness

/-! # Checks are blind to addresses

On heaps that mirror each other, the same rules decide alike about twins: they deny the same fields, or
end for the same reason.
-/

namespace GuardedStore.Access

open Expression (Node Link Twin FieldTwins Mirrors ScopeTwin Blind Slot Scope)

variable {kept : Nat → Option Node} {link later : Link} {slot slot' : Slot}

/-- One caller, whose attributes are loaded into both heaps. -/
structure CallerTwin (link : Link) (caller caller' : Caller) : Prop where
  id : caller.id = caller'.id
  attributes : FieldTwins link caller.attributes caller'.attributes

/-- The same attempt on both heaps. -/
structure AttemptTwin (link : Link) (attempt attempt' : Attempt) : Prop where
  action : attempt.action = attempt'.action
  collection : attempt.collection = attempt'.collection
  caller : Option.Rel (CallerTwin link) attempt.caller attempt'.caller
  data : Twin link attempt.data attempt'.data
  newData : Option.Rel (Twin link) attempt.newData attempt'.newData
  override : attempt.override = attempt'.override

theorem CallerTwin.mono {caller caller' : Caller} (h : CallerTwin link caller caller')
    (grown : link ≤ later) : CallerTwin later caller caller' :=
  ⟨h.id, h.attributes.mono grown⟩

theorem rel_mono {α β : Type} {R S : α → β → Prop} {one : Option α} {other : Option β}
    (h : Option.Rel R one other) (wider : ∀ {a b}, R a b → S a b) : Option.Rel S one other := by
  cases h with
  | none => exact .none
  | some related => exact .some (wider related)

variable {attempt attempt' : Attempt} {scope scope' : Scope}

theorem AttemptTwin.mono (h : AttemptTwin link attempt attempt') (grown : link ≤ later) :
    AttemptTwin later attempt attempt' where
  action := h.action
  collection := h.collection
  caller := rel_mono h.caller fun same => same.mono grown
  data := h.data.mono grown
  newData := rel_mono h.newData fun twin => twin.mono grown
  override := h.override

theorem blind_readField (twin : Twin link slot slot') (name : String) :
    Blind kept Equal link (readField slot name) (readField slot' name) := by
  refine agree_get.bind fun later heap heap' grown m => ?_
  have found := m.fields? (twin.mono grown)
  generalize heap.fields? slot = one, heap'.fields? slot' = other at found ⊢
  cases found with
  | none => exact agree_pure rfl
  | @some fields fields' twins =>
      have field := twins.get? name
      simp only
      generalize Entries.get? fields name = one, Entries.get? fields' name = other at field ⊢
      cases field with
      | none => exact agree_pure rfl
      | some twin => exact agree_pure (m.read_eq twin)

theorem blind_callerOwns {caller caller' : Caller} (known : CallerTwin link caller caller')
    (twin : Twin link slot slot') :
    Blind kept Equal link (callerOwns caller slot) (callerOwns caller' slot') := by
  refine (blind_readField twin ownerField).bind_equal fun later owner _ => ?_
  rw [known.id]
  split
  · exact agree_pure rfl
  · exact agree_throw _

theorem blind_holds (scopes : ScopeTwin link scope scope') (source : String) :
    Blind kept Equal link (holds scope source) (holds scope' source) := by
  intro heap heap' m
  obtain ⟨later, grown, ended⟩ := Expression.blind_evaluateSource scopes source heap heap' m
  simp only [holds]
  generalize Expression.evaluateSource scope source heap = one,
    Expression.evaluateSource scope' source heap' = other at ended ⊢
  cases ended with
  | ok m twin => exact ⟨later, grown, .ok m (Expression.truthySlot_eq twin)⟩
  | @error stop _ _ m => cases stop <;> exact ⟨later, grown, .error m⟩

theorem blind_rolesAllowAction (roles : List Role) (same : AttemptTwin link attempt attempt') :
    Blind kept Equal link (rolesAllowAction roles attempt) (rolesAllowAction roles attempt') := by
  have caller := same.caller
  unfold rolesAllowAction
  generalize attempt.caller = one, attempt'.caller = other at caller ⊢
  split
  · exact agree_pure rfl
  · cases caller with
    | none =>
        simp only [same.override]
        split
        · exact agree_pure rfl
        · exact agree_throw _
    | some known =>
        simp only
        split
        · exact agree_pure rfl
        · split
          · exact blind_callerOwns known same.data
          · exact agree_pure rfl

theorem blind_rolesAllowField (roles : List Role) (same : AttemptTwin link attempt attempt') :
    Blind kept Equal link (rolesAllowField roles attempt) (rolesAllowField roles attempt') := by
  have caller := same.caller
  unfold rolesAllowField
  generalize attempt.caller = one, attempt'.caller = other at caller ⊢
  split
  · exact agree_pure rfl
  · cases caller with
    | none => exact agree_pure rfl
    | some known =>
        simp only
        split
        · exact agree_pure rfl
        · split
          · exact blind_callerOwns known same.data
          · exact agree_pure rfl

theorem blind_allowsAction (rule : Rule) (scopes : ScopeTwin link scope scope')
    (same : AttemptTwin link attempt attempt') :
    Blind kept Equal link (allowsAction rule scope attempt) (allowsAction rule scope' attempt') := by
  cases rule with
  | unset | flag => exact agree_pure rfl
  | expression source => exact blind_holds scopes source
  | roles roles => exact blind_rolesAllowAction roles same

theorem blind_allowsField (rule : Rule) (scopes : ScopeTwin link scope scope')
    (same : AttemptTwin link attempt attempt') :
    Blind kept Equal link (allowsField rule scope attempt) (allowsField rule scope' attempt') := by
  cases rule with
  | unset | flag => exact agree_pure rfl
  | expression source => exact blind_holds scopes source
  | roles roles => exact blind_rolesAllowField roles same

theorem blind_dropField (same : AttemptTwin link attempt attempt') (name : String) :
    Blind kept Equal link (dropField attempt name) (dropField attempt' name) := by
  have newData := same.newData
  unfold dropField
  generalize attempt.newData = one, attempt'.newData = other at newData ⊢
  rw [same.action]
  cases newData with
  | none => exact agree_pure rfl
  | some twin =>
      simp only
      split
      · intro heap heap' m
        have dropped := m.modifyFields twin fun fields => fields.erase name
        exact ⟨link, le_refl link, .ok dropped rfl⟩
      · exact agree_pure rfl

theorem blind_deniedFields {link : Link} (scopes : ScopeTwin link scope scope')
    (same : AttemptTwin link attempt attempt') (rules : List (String × Rule)) :
    Blind kept Equal link (deniedFields scope attempt rules) (deniedFields scope' attempt' rules) := by
  induction rules generalizing link with
  | nil => exact agree_pure rfl
  | cons entry rest ih =>
      obtain ⟨name, rule⟩ := entry
      rw [deniedFields, deniedFields]
      refine (blind_allowsField rule scopes same).bind_equal fun mid allowed grown => ?_
      have scopes := scopes.mono grown
      have same := same.mono grown
      split
      · exact ih scopes same
      · refine (blind_dropField same name).bind fun last _ _ grown' _ => ?_
        refine (ih (scopes.mono grown') (same.mono grown')).bind_equal fun _ names _ => ?_
        exact agree_pure rfl

theorem blind_openScope (lookup : Lookup) (same : AttemptTwin link attempt attempt') :
    Blind kept ScopeTwin link (openScope lookup attempt) (openScope lookup attempt') := by
  have newData : Twin link (attempt.newData.getD (.plain .null))
      (attempt'.newData.getD (.plain .null)) := by
    have newData := same.newData
    generalize attempt.newData = one, attempt'.newData = other at newData ⊢
    cases newData with
    | none => exact .plain .null
    | some twin => exact twin
  have caller := same.caller
  unfold openScope
  generalize attempt.caller = one, attempt'.caller = other at caller ⊢
  cases caller with
  | none => exact agree_pure ⟨.plain .null, same.data, newData, rfl⟩
  | @some caller caller' known =>
      obtain ⟨id, attributes⟩ := caller
      obtain ⟨id', attributes'⟩ := caller'
      obtain ⟨sameId, twins⟩ := known
      cases sameId
      intro heap heap' m
      have fields := twins.set idField (Twin.plain (.str id))
      obtain ⟨later, grown, m, linked⟩ := m.alloc (.object fields)
      exact ⟨later, grown, .ok m ⟨.shared linked, same.data.mono grown, newData.mono grown, rfl⟩⟩

/-- A check of an attempt is the same on heaps that mirror each other. -/
theorem blind_enforce (ruleSet : RuleSet) (lookup : Lookup)
    (same : AttemptTwin link attempt attempt') :
    Blind kept Equal link (enforce ruleSet lookup attempt) (enforce ruleSet lookup attempt') := by
  refine (blind_readField same.data idField).bind_equal fun mid v grown => ?_
  rw [same.collection]
  split
  · exact agree_throw _
  · rename_i id _
    have same := same.mono grown
    refine (blind_openScope lookup same).bind fun mid' scope scope' grown' scopes => ?_
    have same := same.mono grown'
    rw [same.action]
    refine (blind_allowsAction _ scopes same).bind_equal fun last allowed grown'' => ?_
    rw [same.override]
    split
    · exact agree_throw _
    · exact blind_deniedFields (scopes.mono grown'') (same.mono grown'') _

end GuardedStore.Access
