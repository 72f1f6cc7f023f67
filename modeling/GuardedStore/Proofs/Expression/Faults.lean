import GuardedStore.Access.Enforcement
import GuardedStore.Proofs.Expression.Descent
import GuardedStore.Proofs.Expression.Ranges

/-! # How rules end

A rule that is evaluated ends with a value, or it fails for a reason that can be reported. As long as every
integer that it meets is in range, those of its source, of what it sees and of what is stored, there is one
other end: a comparison of what holds itself. Only a rule that assigns can bring this about, or a stored record
in which something stands twice.
-/

namespace GuardedStore.Expression

variable {α : Type} {Q : α → Prop} {slot container key : Slot}

/-- A rule may stop for a reason, or because what it compares holds itself. -/
inductive Excused : Stop → Heap → Prop
  | failed (reason : Reason) (heap : Heap) : Excused (.failed reason) heap
  | endless {heap : Heap} {address : Nat} (circular : heap.HoldsItself address) : Excused .endless heap

theorem safe_fail (reason : Reason) : Safe Heap.InRange Excused Q (fail reason) :=
  fun heap _ => .inr ⟨_, heap, rfl, .failed reason heap⟩

theorem safe_ranged {result : Except OutOfRange α} (read : ∀ fault, result ≠ .error fault)
    (h : ∀ a, result = .ok a → Q a) : Safe Heap.InRange Excused Q (ranged result) := by
  cases result with
  | ok a => exact safe_pure (h a rfl)
  | error fault => exact absurd rfl (read fault)

theorem safe_readSlot (near : slot.InRange) :
    Safe Heap.InRange Excused (fun v => ¬ v.IsOutsized) (readSlot slot) :=
  safe_get.bind fun heap _ => safe_pure (heap.read_not_isOutsized near)

/-- A slot that can be a key: it is no integer beyond the range. -/
def Slot.IsKey (slot : Slot) : Prop :=
  ∀ n, slot = .plain (.int n) → Binary64.InRange n

theorem Slot.InRange.isKey (near : slot.InRange) : slot.IsKey := by
  rintro n rfl
  cases near with
  | int near => exact near

theorem indexOf?_ne_error {literal : Literal} (h : Slot.IsKey (.plain literal)) (fault : OutOfRange) :
    indexOf? literal ≠ .error fault := by
  fun_cases indexOf? literal with
  | case1 => nofun
  | case2 n beyond => exact fun _ => h n rfl beyond
  | case3 => nofun
  | case4 => nofun

theorem safe_readItem {length : Nat} {item : Nat → Slot} (near : Binary64.InRange length)
    (items : ∀ n, (item n).InRange) (named : key.IsKey) :
    Safe Heap.InRange Excused Slot.InRange (readItem length item key) := by
  cases key with
  | shared address => exact safe_pure .null
  | plain key =>
      simp only [readItem]
      split
      · exact safe_pure (Value.InRange.int near)
      · refine (safe_ranged (Q := fun _ => True) (indexOf?_ne_error named) fun _ _ => trivial).bind
          fun index _ => ?_
        cases index with
        | none => exact safe_pure .null
        | some n =>
            refine safe_pure ?_
            split
            · exact items _
            · exact .null

theorem inRange_character (c : Option Char) : Slot.InRange (.plain (.str (String.ofList c.toList))) := by
  refine Value.InRange.str ?_
  rw [String.length_ofList]
  cases c with
  | none => decide +kernel
  | some c => exact show Binary64.InRange 1 by decide +kernel

theorem inRange_field {fields : Entries Slot} (near : ∀ field ∈ fields, field.2.InRange) (name : String) :
    ((Entries.get? fields name).getD (.plain .null)).InRange := by
  cases value : Entries.get? fields name with
  | none => exact .null
  | some slot => exact near _ (Entries.mem_of_get? value)

theorem safe_readProperty (near : container.InRange) (named : key.IsKey) :
    Safe Heap.InRange Excused Slot.InRange (readProperty container key) := by
  unfold readProperty
  split
  · exact (safe_slotName key).bind fun _ _ => safe_fail _
  · cases near with
    | str length => exact safe_readItem length (fun n => inRange_character _) named
  · exact safe_pure .null
  · refine safe_get.bind fun heap inside => ?_
    split
    · rename_i fields found
      exact (safe_slotName key).bind fun name _ => safe_pure (inRange_field (inside _ _ found) name)
    · rename_i items found
      obtain ⟨length, slots⟩ := inside _ _ found
      refine safe_readItem length (fun n => ?_) named
      cases item : items[n]? with
      | none => exact .null
      | some slot => exact slots _ (List.mem_of_getElem? item)
    · exact safe_pure .null

/-- The comparison fails on nothing but integers beyond the range. -/
def FailsBeyondRange (compare : Value → Value → Except OutOfRange α) : Prop :=
  ∀ left right fault, compare left right = .error fault → left.IsOutsized ∨ right.IsOutsized

theorem safe_compare {compare : Value → Value → Except OutOfRange α} {v w : Value}
    (compares : FailsBeyondRange compare) (one : ¬ v.IsOutsized) (other : ¬ w.IsOutsized) :
    Safe Heap.InRange Excused (fun _ => True) (ranged (compare v w)) := by
  refine safe_ranged (fun fault stops => ?_) fun _ _ => trivial
  rcases compares v w fault stops with outsized | outsized
  · exact one outsized
  · exact other outsized

theorem safe_compareContents (left right : Slot) :
    Safe Heap.InRange Excused (fun _ => True) (compareContents left right) := by
  intro heap near
  cases compared : heap.same? left right with
  | some same =>
      have done : compareContents left right heap = .ok same heap := by
        simp only [compareContents, get_bind, compared, pure_run]
      exact .inl ⟨same, heap, done, trivial, near⟩
  | none =>
      have stopped : compareContents left right heap = .error .endless heap := by
        simp only [compareContents, get_bind, compared, throw_run]
      obtain ⟨address, circular⟩ := exists_holdsItself_of_same? compared
      exact .inr ⟨.endless, heap, stopped, .endless circular⟩

theorem safe_comparesEqual {compare : Value → Value → Except OutOfRange Bool} {left right : Slot}
    (compares : FailsBeyondRange compare) (one : left.InRange) (other : right.InRange) :
    Safe Heap.InRange Excused (fun _ => True) (comparesEqual compare left right) := by
  unfold comparesEqual
  split
  · exact safe_compareContents _ _
  · exact (safe_readSlot one).bind fun v small => (safe_readSlot other).bind fun w small' =>
      safe_compare compares small small'

theorem safe_looseEquals {left right : Slot} (one : left.InRange) (other : right.InRange) :
    Safe Heap.InRange Excused (fun _ => True) (comparesEqual Value.looseEquals left right) :=
  safe_comparesEqual (fun _ _ _ => Value.outsized_of_looseEquals) one other

theorem safe_strictEquals {left right : Slot} (one : left.InRange) (other : right.InRange) :
    Safe Heap.InRange Excused (fun _ => True)
      (comparesEqual (fun a b => .ok (Value.strictEquals a b)) left right) :=
  safe_comparesEqual nofun one other

theorem safe_compareSlots (op : Comparison) {left right : Slot} (one : left.InRange)
    (other : right.InRange) : Safe Heap.InRange Excused (fun _ => True) (compareSlots op left right) := by
  unfold compareSlots
  split
  · exact safe_looseEquals one other
  · exact (safe_looseEquals one other).bind fun _ _ => safe_pure trivial
  · exact safe_strictEquals one other
  · exact (safe_strictEquals one other).bind fun _ _ => safe_pure trivial
  · refine (safe_readSlot one).bind fun v small => (safe_readSlot other).bind fun w small' => ?_
    refine (safe_compare (fun _ _ _ => Value.outsized_of_order?) small small').bind fun order _ => ?_
    cases order <;> exact safe_pure trivial

theorem safe_writeProperty (container : Slot) (key : String) {value : Slot} (near : value.InRange) :
    Safe Heap.InRange Excused Slot.InRange (writeProperty container key value) :=
  fun _ inside => .inl ⟨value, _, rfl, near, inside.setField near container key⟩

def Found.InRange : Found → Prop
  | .record copy => copy.InRange
  | .records copies => Binary64.InRange copies.length ∧ ∀ copy ∈ copies, copy.InRange

/-- Everything that a rule can see besides the heap is in range. -/
structure Scope.InRange (scope : Scope) : Prop where
  user : scope.user.InRange
  data : scope.data.InRange
  newData : scope.newData.InRange
  lookup : ∀ collection id found, scope.lookup collection id = .ok found → found.InRange

variable {scope : Scope}

theorem safe_loadFound {found : Found} (near : found.InRange) :
    Safe Heap.InRange Excused Slot.InRange (loadFound found) := by
  refine safe_get.bind fun heap inside => ?_
  cases found with
  | record record =>
      obtain ⟨slot, later⟩ := Heap.loadRecord_inRange inside near
      exact (safe_set later).bind fun _ _ => safe_pure slot
  | records records =>
      obtain ⟨⟨length, slots⟩, later⟩ := Heap.loadRecords_inRange inside near.2
      have list : Node.InRange (.list (heap.loadRecords records).1) := ⟨length ▸ near.1, slots⟩
      exact (safe_set (later.alloc list)).bind fun _ _ => safe_pure trivial

theorem safe_callIsOwner (user record : Slot) :
    Safe Heap.InRange Excused Slot.InRange (callIsOwner user record) := by
  refine safe_get.bind fun heap inside => ?_
  have field {slot : Slot} {fields : Entries Slot} (found : heap.fields? slot = some fields)
      (name : String) : ((Entries.get? fields name).getD (.plain .null)).InRange :=
    inRange_field (inside.fields found) name
  split
  · rename_i userFields recordFields ofUser ofRecord
    refine (safe_looseEquals (field ofUser _) (field ofRecord _)).bind fun owns _ => ?_
    exact safe_pure (.bool owns)
  · exact safe_pure (.bool false)

theorem Scope.InRange.named (seen : scope.InRange) {name : String} {slot : Slot}
    (found : scope.variable? name = some slot) : slot.InRange := by
  unfold Scope.variable? at found
  split at found
  · cases found
    exact seen.user
  · split at found
    · cases found
      exact seen.data
    · split at found
      · cases found
        exact seen.newData
      · cases found

theorem composes_inRange (seen : scope.InRange) : Composes scope Heap.InRange Excused Slot.InRange where
  fails reason heap _ := .failed reason heap
  seen := seen.named
  flag := .bool
  member _ inside := safe_readProperty inside nofun
  index inside named := safe_readProperty inside named.isKey
  compare op _ _ one other := safe_compareSlots op one other
  load there := safe_loadFound (seen.lookup _ _ _ there)
  isOwner := safe_callIsOwner

theorem found_of_lookupIn {store : Store} {name : String} {id : Option String} {found : Found}
    (there : Access.lookupIn store name id = .ok found) :
    (∃ key record, store.find name key = .ok record ∧ found = .record record) ∨
      ∃ records, store.all name = .ok records ∧ found = .records records := by
  cases id with
  | some key =>
      cases held : store.find name key with
      | error refusal => simp [Access.lookupIn, held, Except.map, Except.mapError] at there
      | ok record =>
          simp only [Access.lookupIn, held, Except.map, Except.mapError] at there
          cases there
          exact .inl ⟨key, record, held, rfl⟩
  | none =>
      cases held : store.all name with
      | error refusal => simp [Access.lookupIn, held, Except.map, Except.mapError] at there
      | ok records =>
          simp only [Access.lookupIn, held, Except.map, Except.mapError] at there
          cases there
          exact .inr ⟨records, rfl, rfl⟩

theorem lookupIn_inRange {store : Store} (near : store.InRange) {name : String} {id : Option String}
    {found : Found} (there : Access.lookupIn store name id = .ok found) : found.InRange := by
  obtain ⟨key, record, held, rfl⟩ | ⟨records, held, rfl⟩ := found_of_lookupIn there
  · exact near.find held
  · exact near.all held

theorem lookupIn_isPlain {store : Store} (plain : store.IsPlain) {name : String} {id : Option String}
    {found : Found} (there : Access.lookupIn store name id = .ok found) : found.IsPlain := by
  obtain ⟨key, record, held, rfl⟩ | ⟨records, held, rfl⟩ := found_of_lookupIn there
  · exact plain.of_find held
  · exact plain.of_all held

/-- What a rule is evaluated on: the caller, the record, the new record and the stored records. -/
structure Subject where
  user : Value
  data : Value
  newData : Value
  store : Store

namespace Subject

/-- The values of a subject in a heap of their own. -/
def opened (subject : Subject) : Scope × Heap :=
  let (user, heap) := Heap.empty.load subject.user
  let (data, heap) := heap.load subject.data
  let (newData, heap) := heap.load subject.newData
  ({ user, data, newData, lookup := Access.lookupIn subject.store }, heap)

/-- How a rule with a source text ends. -/
def evaluated (subject : Subject) (source : String) : EStateM.Result Stop Heap Slot :=
  evaluateSource subject.opened.1 source subject.opened.2

structure InRange (subject : Subject) : Prop where
  user : subject.user.InRange
  data : subject.data.InRange
  newData : subject.newData.InRange
  store : subject.store.InRange

theorem InRange.opened {subject : Subject} (near : subject.InRange) :
    subject.opened.1.InRange ∧ subject.opened.2.InRange := by
  obtain ⟨user, heap⟩ := Heap.load_inRange .empty near.user
  obtain ⟨data, heap'⟩ := Heap.load_inRange heap near.data
  obtain ⟨newData, heap''⟩ := Heap.load_inRange heap' near.newData
  exact ⟨⟨user, data, newData, fun _ _ _ there => lookupIn_inRange near.store there⟩, heap''⟩

theorem opened_descends (subject : Subject) : subject.opened.2.Descends := by
  have user := (Heap.load_lands .empty subject.user).descends
  have data := (Heap.load_lands user subject.data).descends
  exact (Heap.load_lands data subject.newData).descends

/-- Where nothing is assigned and the stored records hold nothing twice, nothing holds itself when a rule
stops. -/
theorem descends_of_quiet {subject : Subject} {source : String} (stored : subject.store.IsPlain)
    (quiet : ∀ e, compile source = .ok e → e.assigns = false) {stop : Stop} {heap : Heap}
    (stopped : subject.evaluated source = .error stop heap) : heap.Descends := by
  have plain : subject.opened.1.FindsPlain := fun _ _ _ there => lookupIn_isPlain stored there
  have kept := descends_evaluateSource plain quiet _ subject.opened_descends
  rwa [leaves_of_error stopped] at kept

/-- Where every integer is in range, a rule ends with a value or fails for a reason, whatever its source
says, unless it compares what holds itself. -/
theorem evaluated_or_failed {subject : Subject} {source : String} (near : subject.InRange)
    (written : ∀ e, compile source = .ok e → ∀ value ∈ e.literals, value.toValue.InRange) :
    (∃ slot heap, subject.evaluated source = .ok slot heap) ∨
      (∃ reason heap, subject.evaluated source = .error (.failed reason) heap) ∨
      (∃ heap address, subject.evaluated source = .error .endless heap ∧ heap.HoldsItself address) ∧
        ((∃ e, compile source = .ok e ∧ e.assigns = true) ∨ ¬ subject.store.IsPlain) := by
  obtain ⟨seen, inside⟩ := near.opened
  have safe := (composes_inRange seen).evaluateSource written fun _ _ _ container name _ =>
    safe_writeProperty container name
  rcases safe _ inside with ⟨slot, heap, done, -⟩ | ⟨stop, heap, stopped, excused⟩
  · exact .inl ⟨slot, heap, done⟩
  · cases excused with
    | failed reason => exact .inr (.inl ⟨reason, heap, stopped⟩)
    | @endless _ address circular =>
        refine .inr (.inr ⟨⟨heap, address, stopped, circular⟩, ?_⟩)
        by_contra neither
        push Not at neither
        have descends := descends_of_quiet neither.2
          (fun e compiled => Bool.not_eq_true _ ▸ neither.1 e compiled) stopped
        exact descends.not_holdsItself address circular

/-- A note of three words and a store that holds one of two. -/
def notes : Subject where
  user := .object [("_id", .str "bob")]
  data := .object [("words", .list [.str "a", .str "b", .str "c"])]
  newData := .null
  store := Store.empty.put "notes" "n1" (.plain [("count", .int 2)])

theorem notes_inRange : notes.InRange where
  user := by
    refine .object (List.forall_mem_singleton.mpr (.str ?_))
    decide +kernel
  data := by
    refine .object (List.forall_mem_singleton.mpr (.list (by decide +kernel) ?_))
    simp only [List.forall_mem_cons]
    refine ⟨.str ?_, .str ?_, .str ?_, nofun⟩ <;> decide +kernel
  newData := .null
  store := by
    intro name
    rw [show notes.store = Store.empty.put "notes" "n1" (.plain [("count", .int 2)]) from rfl,
      Store.entries_put]
    split
    · refine ⟨by decide +kernel, List.forall_mem_singleton.mpr ⟨by decide +kernel, ?_⟩⟩
      exact List.forall_mem_singleton.mpr (.int (by decide +kernel))
    · exact ⟨show Binary64.InRange 0 by decide +kernel, nofun⟩

theorem counted_words_evaluated_or_failed :
    (∃ slot heap, notes.evaluated "data.words.length > get('notes', 'n1').count" = .ok slot heap) ∨
      (∃ reason heap, notes.evaluated "data.words.length > get('notes', 'n1').count" =
        .error (.failed reason) heap) ∨
      (∃ heap address, notes.evaluated "data.words.length > get('notes', 'n1').count" =
          .error .endless heap ∧ heap.HoldsItself address) ∧
        ((∃ e, compile "data.words.length > get('notes', 'n1').count" = .ok e ∧ e.assigns = true) ∨
          ¬ notes.store.IsPlain) := by
  refine evaluated_or_failed notes_inRange fun e compiled value written => ?_
  have literals : (compile "data.words.length > get('notes', 'n1').count").map Expr.literals =
      .ok [.str "notes", .str "n1"] := by
    decide +kernel
  rw [compiled] at literals
  rw [Except.ok.inj literals] at written
  simp only [List.mem_cons, List.not_mem_nil, or_false] at written
  rcases written with rfl | rfl <;> exact .str (by decide +kernel)

example :
    (match Subject.evaluated ⟨.null, .object [], .object [], .empty⟩
        "(data.self = data) && (newData.self = newData) && data == newData" with
      | .error .endless _ => true
      | _ => false) = true := by
  decide +kernel

/-- A note with a number beyond the range. -/
def hugeNote : Subject where
  user := .null
  data := .object [("n", .int (10 ^ 400))]
  newData := .null
  store := .empty

def leavesRange : EStateM.Result Stop Heap Slot → Bool
  | .error .outOfRange _ => true
  | _ => false

/-- Comparing a number beyond the range ends a rule without a value and without a reason. -/
theorem hugeNote_neither_evaluated_nor_failed :
    ¬ ((∃ slot heap, hugeNote.evaluated "data.n > 1" = .ok slot heap) ∨
      ∃ reason heap, hugeNote.evaluated "data.n > 1" = .error (.failed reason) heap) := by
  have beyond : leavesRange (hugeNote.evaluated "data.n > 1") = true := by decide +kernel
  rintro (⟨slot, heap, done⟩ | ⟨reason, heap, failed⟩)
  · rw [done] at beyond
    cases beyond
  · rw [failed] at beyond
    cases beyond

end Subject

end GuardedStore.Expression
