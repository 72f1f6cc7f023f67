import GuardedStore.Proofs.Expression.Composition
import GuardedStore.Proofs.Expression.Loading
import GuardedStore.Proofs.Run

/-! # Expressions without assignments

An expression that assigns nothing leaves every list and object as it was. It may still add some, for
`get` hands out copies, so that what is kept is that the heap only grows, also where evaluation stops
early.
-/

namespace GuardedStore.Expression

open Heap (Extends)

/-- However the operation ends, everything stands where it stood. -/
def Grows {ε α : Type} (x : EStateM ε Heap α) : Prop :=
  ∀ heap, Extends heap (leaves x heap)

theorem grows_of_still {ε α : Type} {x : EStateM ε Heap α} (h : Still x) : Grows x := by
  intro heap
  rw [h heap]
  exact .refl heap

theorem Grows.of_ok {ε α : Type} {x : EStateM ε Heap α} (h : Grows x) {heap heap' : Heap} {a : α}
    (done : x heap = .ok a heap') : Extends heap heap' :=
  leaves_of_ok done ▸ h heap

theorem Grows.maintains {ε α : Type} {x : EStateM ε Heap α} (h : Grows x) (heap : Heap) :
    Maintains (Extends heap) x :=
  fun next grown => grown.trans (h next)

theorem Grows.bind {ε α β : Type} {x : EStateM ε Heap α} {f : α → EStateM ε Heap β} (hx : Grows x)
    (hf : ∀ a, Grows (f a)) : Grows (x >>= f) :=
  fun heap => (hx.maintains heap).bind (fun a => (hf a).maintains heap) heap (.refl heap)

theorem still_fail {α : Type} (reason : Reason) : Still (fail reason : Eval α) :=
  still_throw _

theorem still_ranged {α : Type} (result : Except OutOfRange α) : Still (ranged result) := by
  cases result with
  | ok a => exact still_pure a
  | error fault => exact still_throw _

theorem still_readSlot (slot : Slot) : Still (readSlot slot) :=
  still_get.bind fun _ => still_pure _

theorem still_slotName (slot : Slot) : Still (slotName slot) :=
  still_get.bind fun _ => still_pure _

theorem still_readItem (length : Nat) (item : Nat → Slot) (key : Slot) :
    Still (readItem length item key) := by
  cases key with
  | shared address => exact still_pure _
  | plain key =>
      simp only [readItem]
      split
      · exact still_pure _
      · refine (still_ranged _).bind fun index => ?_
        cases index <;> exact still_pure _

theorem still_readProperty (container key : Slot) : Still (readProperty container key) := by
  unfold readProperty
  split
  · exact (still_slotName key).bind fun _ => still_fail _
  · exact still_readItem _ _ _
  · exact still_pure _
  · refine still_get.bind fun heap => ?_
    split
    · exact (still_slotName key).bind fun _ => still_pure _
    · exact still_readItem _ _ _
    · exact still_pure _

theorem still_requireObject (container : Slot) (key : String) : Still (requireObject container key) := by
  refine still_get.bind fun heap => ?_
  dsimp only
  split
  · exact still_fail _
  · exact still_pure _

theorem still_compareContents (left right : Slot) : Still (compareContents left right) := by
  refine still_get.bind fun heap => ?_
  split
  · exact still_pure _
  · exact still_throw _

theorem still_comparesEqual (compare : Value → Value → Except OutOfRange Bool) (left right : Slot) :
    Still (comparesEqual compare left right) := by
  unfold comparesEqual
  split
  · exact still_compareContents _ _
  · exact (still_readSlot left).bind fun _ => (still_readSlot right).bind fun _ => still_ranged _

theorem still_compareSlots (op : Comparison) (left right : Slot) :
    Still (compareSlots op left right) := by
  unfold compareSlots
  split
  · exact still_comparesEqual _ _ _
  · exact (still_comparesEqual _ _ _).bind fun _ => still_pure _
  · exact still_comparesEqual _ _ _
  · exact (still_comparesEqual _ _ _).bind fun _ => still_pure _
  · refine (still_readSlot left).bind fun _ => (still_readSlot right).bind fun _ => ?_
    refine (still_ranged _).bind fun order => ?_
    cases order <;> exact still_pure _

theorem still_callIsOwner (user record : Slot) : Still (callIsOwner user record) := by
  refine still_get.bind fun heap => ?_
  split
  · exact (still_comparesEqual _ _ _).bind fun _ => still_pure _
  · exact still_pure _

theorem loadRecords_extends (heap : Heap) (records : List Record) :
    Extends heap (heap.loadRecords records).2 := by
  induction records generalizing heap with
  | nil => exact .refl heap
  | cons record rest ih => exact (Heap.loadRecord_extends heap record).trans (ih _)

theorem grows_loadFound (found : Found) : Grows (loadFound found) := by
  intro heap
  cases found with
  | record record => exact Heap.loadRecord_extends heap record
  | records records => exact (loadRecords_extends heap records).trans (.alloc _ _)

/-- Evaluation keeps of the heap what loading keeps, if assignments keep it or there are none. -/
theorem composes_maintains {scope : Scope} {holds : Heap → Prop}
    (loads : ∀ {collection id found},
      scope.lookup collection id = .ok found → Maintains holds (loadFound found)) :
    Composes scope holds (fun _ => holds) fun _ => True where
  fails _ _ held := held
  seen _ := trivial
  flag _ := trivial
  member _ _ := safe_iff_maintains.mpr (still_readProperty _ _).maintains
  index _ _ := safe_iff_maintains.mpr (still_readProperty _ _).maintains
  compare op _ _ _ _ := safe_iff_maintains.mpr (still_compareSlots op _ _).maintains
  load there := safe_iff_maintains.mpr (loads there)
  isOwner _ _ := safe_iff_maintains.mpr (still_callIsOwner _ _).maintains

/-- An expression without assignments only adds to the heap. -/
theorem grows_evaluate (scope : Scope) {e : Expr} (h : e.assigns = false) : Grows (evaluate scope e) := by
  intro heap
  have composes : Composes scope (Extends heap) (fun _ => Extends heap) fun _ => True :=
    composes_maintains fun {_ _ found} _ => (grows_loadFound found).maintains heap
  have safe := composes.evaluate (fun _ _ => trivial) fun assigns => by
    rw [h] at assigns
    cases assigns
  exact safe_iff_maintains.mp safe heap (.refl heap)

end GuardedStore.Expression
