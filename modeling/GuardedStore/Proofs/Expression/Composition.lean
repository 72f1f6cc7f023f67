import GuardedStore.Expression.Evaluation
import GuardedStore.Proofs.Expression.Syntax
import GuardedStore.Proofs.Run

/-! # What evaluation is put together of

Evaluation keeps what its steps keep. A step may promise something of the heap it leaves, of the slot it ends
with and of how it stops; what is promised of every step is promised of every expression.
-/

namespace GuardedStore.Expression

variable {α β : Type} {holds : Heap → Prop} {ends : Stop → Heap → Prop} {Q : α → Prop} {R : β → Prop}

/-- From a heap of some kind, the operation ends with a result of some kind and a heap of the kind again, or it
stops as it may. -/
def Safe (holds : Heap → Prop) (ends : Stop → Heap → Prop) (Q : α → Prop) (x : Eval α) : Prop :=
  ∀ heap, holds heap →
    (∃ a later, x heap = .ok a later ∧ Q a ∧ holds later) ∨
      ∃ stop later, x heap = .error stop later ∧ ends stop later

theorem safe_pure {a : α} (h : Q a) : Safe holds ends Q (pure a : Eval α) :=
  fun heap held => .inl ⟨a, heap, rfl, h, held⟩

theorem safe_get : Safe holds ends holds (get : Eval Heap) :=
  fun heap held => .inl ⟨heap, heap, rfl, held, held⟩

theorem safe_set {heap : Heap} (held : holds heap) : Safe holds ends (fun _ => True) (set heap : Eval Unit) :=
  fun _ _ => .inl ⟨(), heap, rfl, trivial, held⟩

theorem Safe.bind {x : Eval α} {f : α → Eval β} (hx : Safe holds ends Q x)
    (hf : ∀ a, Q a → Safe holds ends R (f a)) : Safe holds ends R (x >>= f) := by
  intro heap held
  rcases hx heap held with ⟨a, later, done, kind, held'⟩ | ⟨stop, later, stopped, may⟩
  · rw [bind_of_ok done]
    exact hf a kind later held'
  · exact .inr ⟨stop, later, bind_of_error stopped, may⟩

theorem safe_slotName (slot : Slot) : Safe holds ends (fun _ => True) (slotName slot) :=
  safe_get.bind fun _ _ => safe_pure trivial

/-- An operation that keeps what holds of the heap stops in such a heap as well. -/
theorem safe_iff_maintains {x : Eval α} :
    Safe holds (fun _ => holds) (fun _ => True) x ↔ Maintains holds x := by
  constructor
  · intro safe heap held
    rcases safe heap held with ⟨a, later, done, -, held'⟩ | ⟨stop, later, stopped, held'⟩
    · rwa [leaves_of_ok done]
    · rwa [leaves_of_error stopped]
  · intro maintained heap held
    have left := maintained heap held
    cases done : x heap with
    | ok a later => exact .inl ⟨a, later, rfl, trivial, leaves_of_ok done ▸ left⟩
    | error stop later => exact .inr ⟨stop, later, rfl, leaves_of_error done ▸ left⟩

theorem safe_logical {scope : Scope} {Proper : Slot → Prop} (op : Connective) {left right : Expr}
    (first : Safe holds ends Proper (evaluate scope left))
    (second : Safe holds ends Proper (evaluate scope right)) :
    Safe holds ends Proper (evaluate scope (.logical op left right)) := by
  cases op with
  | and =>
      rw [evaluate]
      refine first.bind fun slot proper => ?_
      split
      · exact second
      · exact safe_pure proper
  | or =>
      rw [evaluate]
      refine first.bind fun slot proper => ?_
      split
      · exact safe_pure proper
      · exact second

/-- What is promised of all steps of evaluation on proper slots, but for assignments. -/
structure Composes (scope : Scope) (holds : Heap → Prop) (ends : Stop → Heap → Prop)
    (Proper : Slot → Prop) : Prop where
  fails : ∀ reason heap, holds heap → ends (.failed reason) heap
  seen : ∀ {name : String} {slot : Slot}, scope.variable? name = some slot → Proper slot
  flag : ∀ b : Bool, Proper (.plain (.bool b))
  member : ∀ {container : Slot} (name : String), Proper container →
    Safe holds ends Proper (readProperty container (.plain (.str name)))
  index : ∀ {container key : Slot}, Proper container → Proper key →
    Safe holds ends Proper (readProperty container key)
  compare : ∀ (op : Comparison) {left right : Slot}, Proper left → Proper right →
    Safe holds ends (fun _ => True) (compareSlots op left right)
  load : ∀ {collection : String} {id : Option String} {found : Found},
    scope.lookup collection id = .ok found → Safe holds ends Proper (loadFound found)
  isOwner : ∀ user record, Safe holds ends Proper (callIsOwner user record)

/-- The promise for setting something to a proper slot. -/
def Writes (holds : Heap → Prop) (ends : Stop → Heap → Prop) (Proper : Slot → Prop) : Prop :=
  ∀ (container : Slot) (name : String) {slot : Slot}, Proper slot →
    Safe holds ends Proper (writeProperty container name slot)

namespace Composes

variable {scope : Scope} {Proper : Slot → Prop}

theorem fail (composes : Composes scope holds ends Proper) (reason : Reason) :
    Safe holds ends Q (fail reason) :=
  fun heap held => .inr ⟨.failed reason, heap, rfl, composes.fails reason heap held⟩

theorem require (composes : Composes scope holds ends Proper) (container : Slot) (name : String) :
    Safe holds ends (fun _ => True) (requireObject container name) := by
  refine safe_get.bind fun heap _ => ?_
  by_cases object : heap.kind container = .object
  · simpa only [ne_eq, object, not_true_eq_false, if_false] using safe_pure trivial
  · simpa only [ne_eq, object, not_false_eq_true, if_true] using composes.fail _

theorem callGet (composes : Composes scope holds ends Proper) (collection id : Slot) :
    Safe holds ends Proper (callGet scope collection id) := by
  refine (safe_slotName collection).bind fun name _ => (safe_slotName id).bind fun shownId _ => ?_
  split
  · rename_i found there
    exact composes.load there
  · exact composes.fail _

theorem callFunction (composes : Composes scope holds ends Proper) (function : String) (args : List Slot) :
    Safe holds ends Proper (callFunction scope function args) := by
  unfold Expression.callFunction
  split
  · exact composes.callGet _ _
  · exact composes.callGet _ _
  · exact composes.isOwner _ _
  · exact composes.fail _

mutual

/-- What holds of all steps holds of the evaluation of an expression with proper literals, if it holds of
assignments or there are none. -/
theorem evaluate (composes : Composes scope holds ends Proper) {e : Expr}
    (literals : ∀ value ∈ e.literals, Proper (.plain value))
    (writes : e.assigns = true → Writes holds ends Proper) : Safe holds ends Proper (evaluate scope e) := by
  cases e with
  | literal value =>
      rw [Expression.evaluate]
      exact safe_pure (literals value List.mem_cons_self)
  | name name =>
      rw [Expression.evaluate]
      split
      · rename_i slot found
        exact safe_pure (composes.seen found)
      · exact composes.fail _
  | member target name =>
      rw [Expr.literals] at literals
      rw [Expr.assigns] at writes
      rw [Expression.evaluate]
      exact (composes.evaluate literals writes).bind fun _ proper => composes.member name proper
  | index target key =>
      rw [Expr.literals, List.forall_mem_append] at literals
      rw [Expr.assigns, Bool.or_eq_true, or_imp] at writes
      rw [Expression.evaluate]
      refine (composes.evaluate literals.1 writes.1).bind fun container proper => ?_
      exact (composes.evaluate literals.2 writes.2).bind fun _ keyProper =>
        composes.index proper keyProper
  | call function args =>
      rw [Expr.literals] at literals
      rw [Expr.assigns] at writes
      rw [Expression.evaluate]
      split
      · exact (composes.evaluateAll literals writes).bind fun slots _ => composes.callFunction function slots
      · exact composes.fail _
  | not operand =>
      rw [Expr.literals] at literals
      rw [Expr.assigns] at writes
      rw [Expression.evaluate]
      exact (composes.evaluate literals writes).bind fun _ _ => safe_pure (composes.flag _)
  | compare op left right =>
      rw [Expr.literals, List.forall_mem_append] at literals
      rw [Expr.assigns, Bool.or_eq_true, or_imp] at writes
      rw [Expression.evaluate]
      refine (composes.evaluate literals.1 writes.1).bind fun one oneProper => ?_
      refine (composes.evaluate literals.2 writes.2).bind fun other otherProper => ?_
      exact (composes.compare op oneProper otherProper).bind fun _ _ => safe_pure (composes.flag _)
  | logical op left right =>
      rw [Expr.literals, List.forall_mem_append] at literals
      rw [Expr.assigns, Bool.or_eq_true, or_imp] at writes
      exact safe_logical op (composes.evaluate literals.1 writes.1)
        (composes.evaluate literals.2 writes.2)
  | assignMember target name value =>
      rw [Expr.literals, List.forall_mem_append] at literals
      have write := writes rfl
      rw [Expression.evaluate]
      refine (composes.evaluate literals.1 fun _ => write).bind fun container _ => ?_
      refine (composes.require container name).bind fun _ _ => ?_
      exact (composes.evaluate literals.2 fun _ => write).bind fun _ proper =>
        write container name proper
  | assignIndex target key value =>
      rw [Expr.literals, List.forall_mem_append, List.forall_mem_append] at literals
      have write := writes rfl
      rw [Expression.evaluate]
      refine (composes.evaluate literals.1.1 fun _ => write).bind fun container _ => ?_
      refine (composes.evaluate literals.1.2 fun _ => write).bind fun key _ => ?_
      refine (safe_slotName key).bind fun shown _ => ?_
      refine (composes.require container shown).bind fun _ _ => ?_
      refine (composes.evaluate literals.2 fun _ => write).bind fun slot proper => ?_
      exact (safe_slotName key).bind fun name _ => write container name proper
termination_by sizeOf e

theorem evaluateAll (composes : Composes scope holds ends Proper) {es : List Expr}
    (literals : ∀ value ∈ Expr.literalsOfAll es, Proper (.plain value))
    (writes : Expr.someAssigns es = true → Writes holds ends Proper) :
    Safe holds ends (fun _ => True) (evaluateAll scope es) := by
  cases es with
  | nil =>
      rw [Expression.evaluateAll]
      exact safe_pure trivial
  | cons e rest =>
      rw [Expr.literalsOfAll, List.forall_mem_append] at literals
      rw [Expr.someAssigns, Bool.or_eq_true, or_imp] at writes
      rw [Expression.evaluateAll]
      refine (composes.evaluate literals.1 writes.1).bind fun slot _ => ?_
      exact (composes.evaluateAll literals.2 writes.2).bind fun slots _ => safe_pure trivial
termination_by sizeOf es

end

theorem evaluateSource (composes : Composes scope holds ends Proper) {source : String}
    (literals : ∀ e, compile source = .ok e → ∀ value ∈ e.literals, Proper (.plain value))
    (writes : ∀ e, compile source = .ok e → e.assigns = true → Writes holds ends Proper) :
    Safe holds ends Proper (evaluateSource scope source) := by
  rw [Expression.evaluateSource]
  split
  · rename_i e compiled
    exact composes.evaluate (literals e compiled) (writes e compiled)
  · exact composes.fail _

end Composes

end GuardedStore.Expression
