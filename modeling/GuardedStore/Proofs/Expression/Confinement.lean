import GuardedStore.Proofs.Expression.Blindness
import GuardedStore.Proofs.Expression.Coherence
import GuardedStore.Proofs.Expression.Growth
import GuardedStore.Proofs.Expression.Targets

/-! # What assignments can change

Where an assignment goes is settled by how its target is written: the chain starts from the stored record or
from what is to be written. What it changes is the object that stands there, and this is theirs as long as
nothing else was put into them. So the lists and objects that rules see fall into two parts, a guarded one with
the user and an own one with the records, and evaluation changes nothing outside of the own part, unless it
assigns something of the guarded one. What `get` hands out is new and comes to the own part.
-/

namespace GuardedStore.Expression

open Heap (Extends)

/-- What comes of an operation with a result; nothing if it stops. -/
def afterwards {α : Type} (x : Eval α) (f : α → Heap → List Slot) (heap : Heap) : List Slot :=
  match x heap with
  | .ok a next => f a next
  | .error _ _ => []

mutual

/-- What the evaluation of an expression sets properties to, in turn. -/
def assigned (scope : Scope) : Expr → Heap → List Slot
  | .literal _ | .name _ => fun _ => []
  | .member target _ => assigned scope target
  | .index target key => fun heap =>
    assigned scope target heap ++ afterwards (evaluate scope target) (fun _ => assigned scope key) heap
  | .call function args => fun heap =>
    if functionNames.contains function then assignedByAll scope args heap else []
  | .not operand => assigned scope operand
  | .compare _ left right => fun heap =>
    assigned scope left heap ++ afterwards (evaluate scope left) (fun _ => assigned scope right) heap
  | .logical .and left right => fun heap =>
    assigned scope left heap ++ afterwards (evaluate scope left)
      (fun slot next => if truthySlot slot then assigned scope right next else []) heap
  | .logical .or left right => fun heap =>
    assigned scope left heap ++ afterwards (evaluate scope left)
      (fun slot next => if truthySlot slot then [] else assigned scope right next) heap
  | .assignMember target name value => fun heap =>
    assigned scope target heap ++ afterwards (evaluate scope target >>= (requireObject · name))
      (fun _ next => assigned scope value next ++ afterwards (evaluate scope value) (fun slot _ => [slot]) next)
      heap
  | .assignIndex target key value => fun heap =>
    assigned scope target heap ++ afterwards (evaluate scope target)
      (fun container next => assigned scope key next ++
        afterwards (do requireObject container (← slotName (← evaluate scope key)))
          (fun _ next =>
            assigned scope value next ++ afterwards (evaluate scope value) (fun slot _ => [slot]) next)
          next)
      heap

def assignedByAll (scope : Scope) : List Expr → Heap → List Slot
  | [] => fun _ => []
  | e :: es => fun heap =>
    assigned scope e heap ++ afterwards (evaluate scope e) (fun _ => assignedByAll scope es) heap

end

-- Their equations are made here once, for all the forms of expressions that rewrite with them below.
attribute [local simp] assigned assignedByAll

variable {α β : Type} {heap next left : Heap} {guarded own mid later part : Nat → Prop} {scope : Scope}
  {slot container key : Slot}

/-- Nothing has changed but what belongs to a part, which may have grown by what was added. -/
structure Within (own later : Nat → Prop) (heap left : Heap) : Prop where
  grown : ∀ a, own a → later a
  added : ∀ a < heap.nodes.size, later a → own a
  size : heap.nodes.size ≤ left.nodes.size
  same : ∀ a < heap.nodes.size, ¬own a → left.node? a = heap.node? a
  closed : left.Closed later

namespace Within

theorem refl (closed : heap.Closed own) : Within own own heap heap where
  grown _ := id
  added _ _ := id
  size := Nat.le_refl _
  same _ _ _ := rfl
  closed := closed

theorem trans (first : Within own mid heap next) (second : Within mid later next left) :
    Within own later heap left where
  grown a inside := second.grown a (first.grown a inside)
  added a inside belongs := first.added a inside (second.added a (Nat.lt_of_lt_of_le inside first.size) belongs)
  size := Nat.le_trans first.size second.size
  same a inside outside := by
    have outside' : ¬mid a := fun belongs => outside (first.added a inside belongs)
    exact (second.same a (Nat.lt_of_lt_of_le inside first.size) outside').trans (first.same a inside outside)
  closed := second.closed

/-- What was added behind a heap comes to the part. -/
theorem of_extends (closed : heap.Closed own) (grown : Extends heap left) (new : left.Closed part)
    (behind : ∀ a, part a → heap.nodes.size ≤ a) : Within own (fun a => own a ∨ part a) heap left where
  grown _ := .inl
  added a inside belongs := belongs.resolve_right fun isNew => Nat.not_lt_of_le (behind a isNew) inside
  size := grown.1
  same a inside _ := grown.2 a inside
  closed := (closed.mono grown).or new

theorem closed_beside (within : Within own later heap left) (closed : heap.Closed guarded)
    (apart : ∀ a, guarded a → ¬own a) : left.Closed guarded := by
  intro a inside
  obtain ⟨node, found, among⟩ := closed a inside
  exact ⟨node, (within.same a (Heap.inside_of_node? found) (apart a inside)).trans found, among⟩

end Within

/-- What rules see falls into a guarded part with the user and an own part with the records. -/
structure Divided (guarded own : Nat → Prop) (scope : Scope) (heap : Heap) : Prop where
  closed : heap.Closed guarded
  closed_own : heap.Closed own
  apart : ∀ a, guarded a → ¬own a
  user : scope.user.Among guarded
  data : scope.data.Among own
  newData : scope.newData.Among own

theorem Divided.after (divided : Divided guarded own scope heap) (within : Within own later heap left) :
    Divided guarded later scope left where
  closed := within.closed_beside divided.closed divided.apart
  closed_own := within.closed
  apart a inside belongs := divided.apart a inside (within.added a (divided.closed.inside inside) belongs)
  user := divided.user
  data := divided.data.imp within.grown
  newData := divided.newData.imp within.grown

/-- However an operation ends, it changes nothing outside of the own part, and its result has a property that
may speak of this part. -/
def Confined (Post : (Nat → Prop) → α → Prop) (own : Nat → Prop) (x : Eval α) (heap : Heap) : Prop :=
  ∃ later, Within own later heap (leaves x heap) ∧ ∀ a left, x heap = .ok a left → Post later a

section

variable {Mid Post : (Nat → Prop) → α → Prop} {After : (Nat → Prop) → β → Prop} {x : Eval α} {f : α → Eval β}

theorem Confined.bind (first : Confined Mid own x heap)
    (second : ∀ mid a next, x heap = .ok a next → Within own mid heap next → Mid mid a →
      Confined After mid (f a) next) : Confined After own (x >>= f) heap := by
  obtain ⟨mid, within, holds⟩ := first
  cases done : x heap with
  | ok a next =>
      rw [leaves_of_ok done] at within
      obtain ⟨later, within', holds'⟩ := second mid a next done within (holds a next done)
      refine ⟨later, ?_, fun b left ends => holds' b left ((bind_of_ok done).symm.trans ends)⟩
      simp only [leaves, bind_of_ok done]
      exact within.trans within'
  | error e next =>
      rw [leaves_of_error done] at within
      refine ⟨mid, ?_, fun b left ends => ?_⟩
      · simp only [leaves, bind_of_error done]
        exact within
      · rw [bind_of_error done] at ends
        cases ends

theorem Confined.imp {Post' : (Nat → Prop) → α → Prop} (h : Confined Post own x heap)
    (more : ∀ later a, Post later a → Post' later a) : Confined Post' own x heap := by
  obtain ⟨later, within, holds⟩ := h
  exact ⟨later, within, fun a left ends => more later a (holds a left ends)⟩

theorem confined_of_still (closed : heap.Closed own) (still : Still x)
    (holds : ∀ a, x heap = .ok a heap → Post own a) : Confined Post own x heap := by
  refine ⟨own, by rw [still heap]; exact .refl closed, fun a left ends => holds a ?_⟩
  rwa [still.of_ok ends] at ends

theorem confined_still_bind (closed : heap.Closed own) (still : Still x)
    (second : ∀ a, x heap = .ok a heap → Confined After own (f a) heap) :
    Confined After own (x >>= f) heap := by
  cases done : x heap with
  | ok a next =>
      cases still.of_ok done
      obtain ⟨later, within, holds⟩ := second a done
      refine ⟨later, ?_, fun b left ends => holds b left ((bind_of_ok done).symm.trans ends)⟩
      simpa only [leaves, bind_of_ok done] using within
  | error e next =>
      cases still.of_error done
      refine ⟨own, ?_, fun b left ends => ?_⟩
      · simpa only [leaves, bind_of_error done] using Within.refl closed
      · rw [bind_of_error done] at ends
        cases ends

theorem confined_pure (closed : heap.Closed own) {a : α} (holds : Post own a) :
    Confined Post own (pure a) heap :=
  confined_of_still closed (still_pure a) fun b ends => by cases ends; exact holds

theorem confined_fail (closed : heap.Closed own) (reason : Reason) : Confined Post own (fail reason) heap :=
  confined_of_still closed (still_fail reason) fun a ends => by cases ends

end

/-- A result lies in one of the two parts, and in the own one where its expression makes sure of it. -/
structure Lies (guarded : Nat → Prop) (rooted : Prop) (own : Nat → Prop) (slot : Slot) : Prop where
  among : slot.Among fun a => guarded a ∨ own a
  own : rooted → slot.Among own

variable {rooted : Prop}

theorem Lies.of_own (among : slot.Among own) : Lies guarded rooted own slot where
  among := among.imp fun _ => .inr
  own _ := among

theorem Lies.unrooted {rooted' : Prop} (lies : Lies guarded rooted' own slot) (never : ¬rooted) :
    Lies guarded rooted own slot where
  among := lies.among
  own isRooted := absurd isRooted never

theorem Lies.mono (lies : Lies guarded rooted own slot) (grown : ∀ a, own a → later a) :
    Lies guarded rooted later slot where
  among := lies.among.imp fun a => Or.imp_right (grown a)
  own isRooted := (lies.own isRooted).imp grown

theorem readItem_among {length : Nat} {item : Nat → Slot} (items : ∀ n, (item n).Among part)
    (read : readItem length item key heap = .ok slot left) : slot.Among part := by
  cases key with
  | shared address =>
      cases read
      trivial
  | plain key =>
      simp only [readItem] at read
      split at read
      · cases read
        trivial
      · obtain ⟨index, next, -, ends⟩ := bind_ok_iff.mp read
        cases index with
        | none =>
            cases ends
            trivial
        | some n =>
            simp only at ends
            split at ends
            · cases ends
              exact items _
            · cases ends
              trivial

theorem among_getD {found : Option Slot} (among : ∀ slot, found = some slot → slot.Among part) :
    (found.getD (.plain .null)).Among part := by
  cases found with
  | none => trivial
  | some slot => exact among slot rfl

theorem readProperty_among (closed : heap.Closed part) (among : container.Among part)
    (read : readProperty container key heap = .ok slot left) : slot.Among part := by
  unfold readProperty at read
  split at read
  · obtain ⟨_, next, -, ends⟩ := bind_ok_iff.mp read
    cases ends
  · refine readItem_among ?_ read
    exact fun _ => trivial
  · cases read
    trivial
  · rename_i address
    obtain ⟨node, found, inner⟩ := closed address among
    rw [get_bind, found] at read
    cases node with
    | object fields =>
        obtain ⟨name, next, -, ends⟩ := bind_ok_iff.mp read
        cases ends
        exact among_getD fun slot held => inner slot (List.mem_map_of_mem (Entries.mem_of_get? held))
    | list items =>
        refine readItem_among (fun n => among_getD fun slot held => ?_) read
        exact inner slot (List.mem_of_getElem? held)

theorem confined_readProperty (divided : Divided guarded own scope heap)
    (lies : Lies guarded rooted own container) :
    Confined (Lies guarded rooted) own (readProperty container key) heap :=
  confined_of_still divided.closed_own (still_readProperty _ _) fun _ read =>
    ⟨readProperty_among (divided.closed.or divided.closed_own) lies.among read,
      fun isRooted => readProperty_among divided.closed_own (lies.own isRooted) read⟩

/-- Nothing of a heap is linked, and all of it is kept. -/
theorem Mirrors.start (heap : Heap) : Mirrors heap.node? ⊥ heap heap where
  twins := False.elim
  eq_right := False.elim
  eq_left := False.elim
  keeps isKept := ⟨isKept, fun _ => id⟩

theorem Mirrors.behind {link : Link} {left' : Heap} (m : Mirrors heap.node? link left left') {a b : Nat}
    (linked : link a b) : heap.nodes.size ≤ a := by
  by_contra inside
  have found : heap.node? a = some heap.nodes[a] := Array.getElem?_eq_getElem (Nat.lt_of_not_le inside)
  exact (m.keeps found).2 b linked

theorem fresh_of_loadRecord (heap : Heap) (record : Record) :
    ∃ part, (heap.loadRecord record).2.Closed part ∧ (heap.loadRecord record).1.Among part ∧
      ∀ a, part a → heap.nodes.size ≤ a := by
  obtain ⟨link, -, m, twin⟩ := (Mirrors.start heap).loadRecord record
  exact ⟨_, m.closed, twin.among, fun a ⟨b, linked⟩ => m.behind linked⟩

theorem confined_loadFound (closed : heap.Closed own) (found : Found) :
    Confined (fun later slot => slot.Among later) own (loadFound found) heap := by
  obtain ⟨link, -, agrees⟩ := blind_loadFound found heap heap (.start heap)
  have grown := grows_loadFound found heap
  cases done : loadFound found heap with
  | error stop left => cases found <;> cases done
  | ok slot left =>
      rw [done] at agrees
      rw [leaves_of_ok done] at grown
      cases agrees with
      | ok m twin =>
          refine ⟨fun a => own a ∨ ∃ b, link a b, ?_, ?_⟩
          · rw [leaves_of_ok done]
            exact .of_extends closed grown m.closed fun a ⟨b, linked⟩ => m.behind linked
          · intro slot' left' ends
            cases done.symm.trans ends
            exact twin.among.imp fun _ => .inr

theorem confined_callGet (closed : heap.Closed own) (scope : Scope) (collection id : Slot) :
    Confined (fun later slot => slot.Among later) own (callGet scope collection id) heap := by
  refine confined_still_bind closed (still_slotName collection) fun name _ => ?_
  refine confined_still_bind closed (still_slotName id) fun shownId _ => ?_
  split
  · exact confined_loadFound closed _
  · exact confined_fail closed _

theorem confined_callIsOwner (closed : heap.Closed own) (user record : Slot) :
    Confined (fun later slot => slot.Among later) own (callIsOwner user record) heap := by
  refine confined_still_bind closed still_get fun seen _ => ?_
  split
  · refine confined_still_bind closed (still_comparesEqual _ _ _) fun owns _ => ?_
    exact confined_pure closed trivial
  · exact confined_pure closed trivial

theorem confined_callFunction (closed : heap.Closed own) (scope : Scope) (function : String)
    (args : List Slot) :
    Confined (fun later slot => slot.Among later) own (callFunction scope function args) heap := by
  unfold callFunction
  split
  · exact confined_callGet closed scope _ _
  · exact confined_callGet closed scope _ _
  · exact confined_callIsOwner closed _ _
  · exact confined_fail closed _

theorem Heap.Closed.put (closed : heap.Closed own) {address : Nat} {node : Node}
    (inner : ∀ slot ∈ node.slots, slot.Among own) : (heap.put address node).Closed own := by
  intro a isOwn
  obtain ⟨before, found, among⟩ := closed a isOwn
  by_cases here : address = a
  · subst here
    exact ⟨node, by rw [Heap.node?_put, if_pos ⟨rfl, Heap.inside_of_node? found⟩], inner⟩
  · exact ⟨before, by rw [Heap.node?_put, if_neg fun same => here same.1, found], among⟩

theorem Within.put (closed : heap.Closed own) {address : Nat} (belongs : own address) {node : Node}
    (inner : ∀ slot ∈ node.slots, slot.Among own) : Within own own heap (heap.put address node) where
  grown _ := id
  added _ _ := id
  size := by simp [Heap.put]
  same a _ outside := by
    have apart : address ≠ a := fun same => outside (same ▸ belongs)
    rw [Heap.node?_put, if_neg fun same => apart same.1]
  closed := closed.put inner

theorem within_modifyFields (closed : heap.Closed own) (among : container.Among own)
    (value : slot.Among own) (name : String) :
    Within own own heap (heap.modifyFields container fun fields => Entries.set fields name slot) := by
  cases container with
  | plain v => exact .refl closed
  | shared address =>
      obtain ⟨node, found, inner⟩ := closed address among
      simp only [Heap.modifyFields, found]
      cases node with
      | list items => exact .refl closed
      | object fields =>
          refine .put closed among fun slot' member => ?_
          obtain ⟨entry, set, rfl⟩ := List.mem_map.mp member
          rcases Entries.mem_set set with rfl | before
          · exact value
          · exact inner _ (List.mem_map_of_mem before)

theorem confined_writeProperty (closed : heap.Closed own) (among : container.Among own)
    (value : slot.Among own) (name : String) :
    Confined (Lies guarded rooted) own (writeProperty container name slot) heap :=
  ⟨own, within_modifyFields closed among value name, fun a left ends => by cases ends; exact .of_own value⟩

/-- None of some slots holds a list or object of a part. -/
def Spares (part : Nat → Prop) (slots : List Slot) : Prop :=
  ∀ slot ∈ slots, slot.Among fun a => ¬part a

theorem spares_append {slots others : List Slot} :
    Spares part (slots ++ others) ↔ Spares part slots ∧ Spares part others :=
  List.forall_mem_append

theorem afterwards_of_ok {x : Eval α} {f : α → Heap → List Slot} {a : α} (done : x heap = .ok a next) :
    afterwards x f heap = f a next := by
  simp only [afterwards, done]

theorem Lies.own_of_spared (lies : Lies guarded rooted own slot) (spared : Spares guarded [slot]) :
    slot.Among own := by
  cases slot with
  | plain v => trivial
  | shared a => exact lies.among.resolve_left (spared _ List.mem_cons_self)

theorem Divided.among_variable (divided : Divided guarded own scope heap) {name : String}
    (found : scope.variable? name = some slot) :
    Lies guarded ((Expr.name name).isAssignableRoot = true) own slot := by
  unfold Scope.variable? at found
  split at found
  · rename_i isUser
    cases found
    exact ⟨divided.user.imp fun _ => .inl, fun isRoot => by subst isUser; cases isRoot⟩
  · split at found
    · cases found
      exact .of_own divided.data
    · split at found
      · cases found
        exact .of_own divided.newData
      · cases found

/-- Wherever it starts, the evaluation of an expression changes nothing outside of the own part if nothing of the
guarded one is assigned. -/
def Confines (guarded : Nat → Prop) (scope : Scope) (e : Expr) : Prop :=
  ∀ ⦃own : Nat → Prop⦄ ⦃heap : Heap⦄, Divided guarded own scope heap → e.targetsAssignable = true →
    Spares guarded (assigned scope e heap) →
    Confined (Lies guarded (e.isAssignableRoot = true)) own (evaluate scope e) heap

def ConfinesAll (guarded : Nat → Prop) (scope : Scope) (es : List Expr) : Prop :=
  ∀ ⦃own : Nat → Prop⦄ ⦃heap : Heap⦄, Divided guarded own scope heap → Expr.allTargetAssignable es = true →
    Spares guarded (assignedByAll scope es heap) → Confined (fun _ _ => True) own (evaluateAll scope es) heap

namespace Confines

variable {target position value left right operand : Expr} {args : List Expr}

theorem literal (v : Literal) : Confines guarded scope (.literal v) := by
  intro own heap divided _ _
  rw [evaluate]
  exact confined_pure divided.closed_own (.of_own trivial)

theorem name (var : String) : Confines guarded scope (.name var) := by
  intro own heap divided _ _
  rw [evaluate]
  split
  · rename_i slot found
    exact confined_pure divided.closed_own (divided.among_variable found)
  · exact confined_fail divided.closed_own _

theorem member (inner : Confines guarded scope target) (name : String) :
    Confines guarded scope (.member target name) := by
  intro own heap divided targets spared
  rw [Expr.targetsAssignable] at targets
  rw [assigned] at spared
  rw [evaluate]
  refine (inner divided targets spared).bind fun mid container next done within lies => ?_
  exact confined_readProperty (divided.after within) lies

theorem index (inner : Confines guarded scope target) (second : Confines guarded scope position) :
    Confines guarded scope (.index target position) := by
  intro own heap divided targets spared
  rw [Expr.targetsAssignable, Bool.and_eq_true] at targets
  rw [assigned, spares_append] at spared
  rw [evaluate]
  refine (inner divided targets.1 spared.1).bind fun mid container next done within lies => ?_
  rw [afterwards_of_ok done] at spared
  have divided := divided.after within
  refine (second divided targets.2 spared.2).bind fun last key next done within _ => ?_
  exact confined_readProperty (divided.after within) (lies.mono within.grown)

theorem call (inner : ConfinesAll guarded scope args) (function : String) :
    Confines guarded scope (.call function args) := by
  intro own heap divided targets spared
  rw [Expr.targetsAssignable] at targets
  rw [evaluate]
  split
  · rename_i known
    simp only [assigned, if_pos known] at spared
    refine (inner divided targets spared).bind fun mid slots next done within _ => ?_
    obtain ⟨later, within', among⟩ := confined_callFunction within.closed scope function slots
    exact ⟨later, within', fun slot left ends => .of_own (among slot left ends)⟩
  · exact confined_fail divided.closed_own _

theorem not (inner : Confines guarded scope operand) : Confines guarded scope (.not operand) := by
  intro own heap divided targets spared
  rw [Expr.targetsAssignable] at targets
  rw [assigned] at spared
  rw [evaluate]
  refine (inner divided targets spared).bind fun mid slot next done within _ => ?_
  exact confined_pure within.closed (.of_own trivial)

theorem compare (op : Comparison) (first : Confines guarded scope left) (second : Confines guarded scope right) :
    Confines guarded scope (.compare op left right) := by
  intro own heap divided targets spared
  rw [Expr.targetsAssignable, Bool.and_eq_true] at targets
  rw [assigned, spares_append] at spared
  rw [evaluate]
  refine (first divided targets.1 spared.1).bind fun mid one next done within _ => ?_
  rw [afterwards_of_ok done] at spared
  have divided := divided.after within
  refine (second divided targets.2 spared.2).bind fun last other next done within _ => ?_
  refine confined_still_bind within.closed (still_compareSlots _ _ _) fun same _ => ?_
  exact confined_pure within.closed (.of_own trivial)

theorem logical (op : Connective) (first : Confines guarded scope left) (second : Confines guarded scope right) :
    Confines guarded scope (.logical op left right) := by
  intro own heap divided targets spared
  rw [Expr.targetsAssignable, Bool.and_eq_true] at targets
  have never : ¬(Expr.logical op left right).isAssignableRoot = true := Bool.false_ne_true
  have behind {mid : Nat → Prop} {next : Heap} (within : Within own mid heap next)
      (spared : Spares guarded (assigned scope right next)) :
      Confined (Lies guarded ((Expr.logical op left right).isAssignableRoot = true)) mid
        (evaluate scope right) next :=
    (second (divided.after within) targets.2 spared).imp fun _ _ lies => lies.unrooted never
  cases op with
  | and =>
      rw [assigned, spares_append] at spared
      rw [evaluate]
      refine (first divided targets.1 spared.1).bind fun mid one next done within lies => ?_
      rw [afterwards_of_ok done] at spared
      split
      · rename_i isTrue
        rw [if_pos isTrue] at spared
        exact behind within spared.2
      · exact confined_pure within.closed (lies.unrooted never)
  | or =>
      rw [assigned, spares_append] at spared
      rw [evaluate]
      refine (first divided targets.1 spared.1).bind fun mid one next done within lies => ?_
      rw [afterwards_of_ok done] at spared
      split
      · exact confined_pure within.closed (lies.unrooted never)
      · rename_i isFalse
        rw [if_neg isFalse] at spared
        exact behind within spared.2

theorem assignMember (inner : Confines guarded scope target) (second : Confines guarded scope value)
    (name : String) : Confines guarded scope (.assignMember target name value) := by
  intro own heap divided targets spared
  simp only [Expr.targetsAssignable, Bool.and_eq_true] at targets
  obtain ⟨⟨isRoot, inTarget⟩, inValue⟩ := targets
  rw [assigned, spares_append] at spared
  rw [evaluate]
  refine (inner divided inTarget spared.1).bind fun mid container next done within lies => ?_
  have divided := divided.after within
  refine confined_still_bind within.closed (still_requireObject _ _) fun _ isObject => ?_
  rw [afterwards_of_ok ((bind_of_ok done).trans isObject), spares_append] at spared
  refine (second divided inValue spared.2.1).bind fun last slot left done within' lies' => ?_
  rw [afterwards_of_ok done] at spared
  exact confined_writeProperty within'.closed ((lies.own isRoot).imp within'.grown)
    (lies'.own_of_spared spared.2.2) name

theorem assignIndex (inner : Confines guarded scope target) (between : Confines guarded scope position)
    (second : Confines guarded scope value) : Confines guarded scope (.assignIndex target position value) := by
  intro own heap divided targets spared
  simp only [Expr.targetsAssignable, Bool.and_eq_true] at targets
  obtain ⟨⟨⟨isRoot, inTarget⟩, inKey⟩, inValue⟩ := targets
  rw [assigned, spares_append] at spared
  rw [evaluate]
  refine (inner divided inTarget spared.1).bind fun mid container next done within lies => ?_
  rw [afterwards_of_ok done, spares_append] at spared
  have divided := divided.after within
  obtain ⟨-, sparedKey, spared⟩ := spared
  refine (between divided inKey sparedKey).bind fun mid key next done within' _ => ?_
  have divided := divided.after within'
  refine confined_still_bind within'.closed (still_slotName _) fun name isNamed => ?_
  refine confined_still_bind within'.closed (still_requireObject _ _) fun _ isObject => ?_
  rw [afterwards_of_ok ((bind_of_ok done).trans ((bind_of_ok isNamed).trans isObject)),
    spares_append] at spared
  refine (second divided inValue spared.1).bind fun last slot left done within'' lies' => ?_
  rw [afterwards_of_ok done] at spared
  refine confined_still_bind within''.closed (still_slotName _) fun name _ => ?_
  exact confined_writeProperty within''.closed
    ((lies.own isRoot).imp fun a inside => within''.grown a (within'.grown a inside))
    (lies'.own_of_spared spared.2) name

end Confines

theorem ConfinesAll.cons {e : Expr} {rest : List Expr} (head : Confines guarded scope e)
    (tail : ConfinesAll guarded scope rest) : ConfinesAll guarded scope (e :: rest) := by
  intro own heap divided targets spared
  rw [Expr.allTargetAssignable, Bool.and_eq_true] at targets
  rw [assignedByAll, spares_append] at spared
  rw [evaluateAll]
  refine (head divided targets.1 spared.1).bind fun mid slot next done within _ => ?_
  rw [afterwards_of_ok done] at spared
  have divided := divided.after within
  refine (tail divided targets.2 spared.2).bind fun last slots next done within _ => ?_
  exact confined_pure within.closed trivial

mutual

theorem confined_evaluate (guarded : Nat → Prop) (scope : Scope) (e : Expr) : Confines guarded scope e := by
  cases e with
  | literal v => exact .literal v
  | name var => exact .name var
  | member target name => exact (confined_evaluate guarded scope target).member name
  | index target key =>
      exact (confined_evaluate guarded scope target).index (confined_evaluate guarded scope key)
  | call function args => exact .call (confined_evaluateAll guarded scope args) function
  | not operand => exact (confined_evaluate guarded scope operand).not
  | compare op left right =>
      exact .compare op (confined_evaluate guarded scope left) (confined_evaluate guarded scope right)
  | logical op left right =>
      exact .logical op (confined_evaluate guarded scope left) (confined_evaluate guarded scope right)
  | assignMember target name value =>
      exact (confined_evaluate guarded scope target).assignMember (confined_evaluate guarded scope value) name
  | assignIndex target key value =>
      exact (confined_evaluate guarded scope target).assignIndex (confined_evaluate guarded scope key)
        (confined_evaluate guarded scope value)
termination_by sizeOf e

theorem confined_evaluateAll (guarded : Nat → Prop) (scope : Scope) (es : List Expr) :
    ConfinesAll guarded scope es := by
  cases es with
  | nil =>
      intro own heap divided _ _
      rw [evaluateAll]
      exact confined_pure divided.closed_own trivial
  | cons e rest => exact .cons (confined_evaluate guarded scope e) (confined_evaluateAll guarded scope rest)
termination_by sizeOf es

end

/-- What the evaluation of a rule sets properties to. -/
def assignedBySource (scope : Scope) (source : String) (heap : Heap) : List Slot :=
  match compile source with
  | .ok e => assigned scope e heap
  | .error _ => []

/-- What is left when rules were evaluated one after another, however each of them ended. -/
def leftByEach (scope : Scope) : List String → Heap → Heap
  | [], heap => heap
  | source :: rest, heap => leftByEach scope rest (leaves (evaluateSource scope source) heap)

def assignedByEach (scope : Scope) : List String → Heap → List Slot
  | [], _ => []
  | source :: rest, heap =>
    assignedBySource scope source heap ++ assignedByEach scope rest (leaves (evaluateSource scope source) heap)

/-- A rule changes nothing outside of the own part if it assigns nothing of the guarded one. -/
theorem within_evaluateSource (divided : Divided guarded own scope heap) {source : String}
    (spared : Spares guarded (assignedBySource scope source heap)) :
    ∃ later, Within own later heap (leaves (evaluateSource scope source) heap) := by
  rw [assignedBySource] at spared
  simp only [evaluateSource]
  cases compiled : compile source with
  | ok e =>
      rw [compiled] at spared
      have targets := targetsAssignable_of_compile compiled
      obtain ⟨later, within, -⟩ := confined_evaluate guarded scope e divided targets spared
      exact ⟨later, within⟩
  | error reason => exact ⟨own, .refl divided.closed_own⟩

theorem within_leftByEach (divided : Divided guarded own scope heap) {sources : List String}
    (spared : Spares guarded (assignedByEach scope sources heap)) :
    ∃ later, Within own later heap (leftByEach scope sources heap) := by
  induction sources generalizing own heap with
  | nil => exact ⟨own, .refl divided.closed_own⟩
  | cons source rest ih =>
      rw [assignedByEach, spares_append] at spared
      obtain ⟨mid, within⟩ := within_evaluateSource divided spared.1
      obtain ⟨later, within'⟩ := ih (divided.after within) spared.2
      exact ⟨later, within.trans within'⟩

/-- A part is closed if all of it stands in the heap and what is held by it belongs to it. -/
theorem Heap.closed_of_stands (stands : ∀ a, part a → a < heap.nodes.size)
    (holds : ∀ {a b node}, part a → heap.node? a = some node → .shared b ∈ node.slots → part b) :
    heap.Closed part := by
  intro a belongs
  have inside := stands a belongs
  have found : heap.node? a = some heap.nodes[a] := Array.getElem?_eq_getElem inside
  refine ⟨_, found, fun slot member => ?_⟩
  cases slot with
  | plain v => trivial
  | shared b => exact holds belongs found member

/-- What a slot leads to: the list or object that it holds, what stands in this one, and so on. -/
inductive Heap.Reaches (heap : Heap) (slot : Slot) : Nat → Prop
  | here {a : Nat} (holds : slot = .shared a) : Reaches heap slot a
  | inside {a b : Nat} {node : Node} (outer : Reaches heap slot a) (found : heap.node? a = some node)
      (member : .shared b ∈ node.slots) : Reaches heap slot b

theorem Heap.Reaches.mono {a : Nat} (reached : heap.Reaches slot a) (grown : Extends heap left) :
    left.Reaches slot a := by
  induction reached with
  | here holds => exact .here holds
  | inside _ found member ih => exact ih.inside (grown.node? found) member

namespace Heap.Closed

/-- What is reached from a closed part is in the part. -/
theorem of_reaches (closed : heap.Closed part) (among : slot.Among part) {a : Nat}
    (reached : heap.Reaches slot a) : part a := by
  induction reached with
  | here holds => rwa [holds] at among
  | inside _ found member ih =>
      obtain ⟨node, stands, inner⟩ := closed _ ih
      cases found.symm.trans stands
      exact inner _ member

theorem reaches (closed : heap.Closed part) (among : slot.Among part) : heap.Closed (heap.Reaches slot) := by
  intro a reached
  obtain ⟨node, found, -⟩ := closed a (closed.of_reaches among reached)
  refine ⟨node, found, fun inner member => ?_⟩
  cases inner with
  | plain v => trivial
  | shared b => exact reached.inside found member

end Heap.Closed

theorem among_reaches (heap : Heap) (slot : Slot) : slot.Among (heap.Reaches slot) := by
  cases slot with
  | plain v => trivial
  | shared a => exact .here rfl

end GuardedStore.Expression
