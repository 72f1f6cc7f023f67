import GuardedStore.Proofs.Access.Stripping

/-! # Objects without a name that comes twice

What is to be written is loaded as an object in which no name comes twice. Rules may set fields of it and take
fields out, whatever else they do, and so it stays one.
-/

namespace GuardedStore.Expression

open Heap (Extends)

/-- The slot holds an object in which no name comes twice. -/
def Distinct (heap : Heap) (slot : Slot) : Prop :=
  ∃ fields, heap.fields? slot = some fields ∧ (Entries.names fields).Nodup

/-- However the operation ends, no name comes twice in the object afterwards if none did before. -/
def KeepsDistinct {ε α : Type} (slot : Slot) (x : EStateM ε Heap α) : Prop :=
  Maintains (fun heap => Distinct heap slot) x

variable {ε α β : Type} {slot : Slot}

theorem Grows.keepsDistinct {x : EStateM ε Heap α} (h : Grows x) : KeepsDistinct slot x := by
  intro heap distinct
  obtain ⟨fields, found, unique⟩ := distinct
  exact ⟨fields, (h heap).fields? found, unique⟩

theorem keepsDistinct_of_still {x : EStateM ε Heap α} (h : Still x) : KeepsDistinct slot x :=
  h.maintains

theorem KeepsDistinct.bind {x : EStateM ε Heap α} {f : α → EStateM ε Heap β}
    (hx : KeepsDistinct slot x) (hf : ∀ a, KeepsDistinct slot (f a)) : KeepsDistinct slot (x >>= f) :=
  Maintains.bind hx hf

theorem distinct_modifyFields {heap : Heap} (distinct : Distinct heap slot) (changed : Slot)
    {f : Entries Slot → Entries Slot}
    (keeps : ∀ fields, (Entries.names fields).Nodup → (Entries.names (f fields)).Nodup) :
    Distinct (heap.modifyFields changed f) slot := by
  obtain ⟨fields, found, unique⟩ := distinct
  by_cases same : changed = slot
  · subst same
    exact ⟨f fields, Access.fields?_modifyFields found f, keeps fields unique⟩
  · have beside := Access.extendsBeside_modifyFields heap changed f
    exact ⟨fields, beside.fields? (Ne.symm same) found, unique⟩

theorem keepsDistinct_writeProperty (container : Slot) (key : String) (value : Slot) :
    KeepsDistinct slot (writeProperty container key value) := by
  intro heap distinct
  exact distinct_modifyFields distinct container fun fields unique => Entries.nodup_set unique key value

theorem keepsDistinct_evaluateSource (scope : Scope) (source : String) :
    KeepsDistinct slot (evaluateSource scope source) := by
  have composes : Composes scope (fun heap => Distinct heap slot) (fun _ heap => Distinct heap slot)
      fun _ => True :=
    composes_maintains fun {_ _ found} _ => (grows_loadFound found).keepsDistinct
  refine safe_iff_maintains.mp (composes.evaluateSource (fun _ _ _ _ => trivial) fun _ _ _ => ?_)
  intro container name written _
  exact safe_iff_maintains.mpr (keepsDistinct_writeProperty container name written)

end GuardedStore.Expression

namespace GuardedStore.Access

open Expression (Slot Scope KeepsDistinct keepsDistinct_of_still keepsDistinct_evaluateSource
  distinct_modifyFields)

variable {slot : Slot}

theorem keepsDistinct_holds (scope : Scope) (source : String) : KeepsDistinct slot (holds scope source) := by
  intro heap distinct
  rw [leaves_holds]
  exact keepsDistinct_evaluateSource scope source heap distinct

theorem keepsDistinct_allowsAction (rule : Rule) (scope : Scope) (attempt : Attempt) :
    KeepsDistinct slot (allowsAction rule scope attempt) := by
  cases rule with
  | unset | flag => exact keepsDistinct_of_still (still_pure _)
  | expression source => exact keepsDistinct_holds scope source
  | roles roles => exact keepsDistinct_of_still (still_rolesAllowAction roles attempt)

theorem keepsDistinct_allowsField (rule : Rule) (scope : Scope) (attempt : Attempt) :
    KeepsDistinct slot (allowsField rule scope attempt) := by
  cases rule with
  | unset | flag => exact keepsDistinct_of_still (still_pure _)
  | expression source => exact keepsDistinct_holds scope source
  | roles roles => exact keepsDistinct_of_still (still_rolesAllowField roles attempt)

theorem keepsDistinct_dropField (attempt : Attempt) (name : String) :
    KeepsDistinct slot (dropField attempt name) := by
  rw [dropField]
  split
  · rename_i newData _
    split
    · intro heap distinct
      exact distinct_modifyFields distinct newData fun fields unique => Entries.nodup_erase unique name
    · exact keepsDistinct_of_still (still_pure _)
  · exact keepsDistinct_of_still (still_pure _)

theorem keepsDistinct_deniedFields (scope : Scope) (attempt : Attempt) (rules : List (String × Rule)) :
    KeepsDistinct slot (deniedFields scope attempt rules) := by
  induction rules with
  | nil => exact keepsDistinct_of_still (still_pure _)
  | cons entry rest ih =>
      obtain ⟨name, rule⟩ := entry
      rw [deniedFields]
      refine (keepsDistinct_allowsField rule scope attempt).bind fun allowed => ?_
      split
      · exact ih
      · refine (keepsDistinct_dropField attempt name).bind fun _ => ih.bind fun _ => ?_
        exact keepsDistinct_of_still (still_pure _)

/-- No check puts a name twice into what is to be written. -/
theorem keepsDistinct_enforce (ruleSet : RuleSet) (lookup : Lookup) (attempt : Attempt) :
    KeepsDistinct slot (enforce ruleSet lookup attempt) := by
  refine (keepsDistinct_of_still (still_readField _ _)).bind fun id => ?_
  split
  · exact keepsDistinct_of_still (still_throw _)
  · refine (grows_openScope lookup attempt).keepsDistinct.bind fun scope => ?_
    refine (keepsDistinct_allowsAction _ scope attempt).bind fun allowed => ?_
    split
    · exact keepsDistinct_of_still (still_throw _)
    · exact keepsDistinct_deniedFields scope attempt _

end GuardedStore.Access
