import GuardedStore.Proofs.Expression.Confinement
import GuardedStore.Proofs.Request.Frame

/-! # The user that rules see

Rules may set fields of the stored record and of what is to be written. None of these stands in the user, so as
long as rules put nothing of the user into them, every rule of a check sees the same user. A rule that does put
an object of the user there can set its properties from then on, and changes the user for the rules behind it.
-/

namespace GuardedStore

namespace Access

open Expression (Heap Moves Scope Slot Spares Within)

variable {attempt : Attempt} {heap opened left : Heap} {scope : Scope}

/-- A list or object belongs to the stored record or to what is to be written. -/
def Attempt.OfRecords (attempt : Attempt) (heap : Heap) (a : Nat) : Prop :=
  heap.Reaches attempt.data a ∨ ∃ slot, attempt.newData = some slot ∧ heap.Reaches slot a

/-- A list or object belongs to an attribute of the caller. -/
def Attempt.OfCaller (attempt : Attempt) (heap : Heap) (a : Nat) : Prop :=
  ∃ caller, attempt.caller = some caller ∧ ∃ entry ∈ caller.attributes, heap.Reaches entry.2 a

/-- All lists and objects that rules will see stand in the heap, and none belongs both to the caller and to the
records. -/
structure Attempt.SharesNothing (attempt : Attempt) (heap : Heap) : Prop where
  stands : ∀ a, attempt.OfRecords heap a ∨ attempt.OfCaller heap a → a < heap.nodes.size
  apart : ∀ a, attempt.OfCaller heap a → ¬attempt.OfRecords heap a

namespace Attempt.SharesNothing

theorem of_closed {callers records : Nat → Prop} (closed : heap.Closed callers) (closed' : heap.Closed records)
    (apart : ∀ a, callers a → ¬records a)
    (attributes : ∀ caller, attempt.caller = some caller → ∀ entry ∈ caller.attributes, entry.2.Among callers)
    (data : attempt.data.Among records) (newData : ∀ slot, attempt.newData = some slot → slot.Among records) :
    attempt.SharesNothing heap := by
  have ofCaller {a : Nat} : attempt.OfCaller heap a → callers a
    | ⟨caller, known, entry, member, reached⟩ => closed.of_reaches (attributes caller known entry member) reached
  have ofRecords {a : Nat} : attempt.OfRecords heap a → records a
    | .inl reached => closed'.of_reaches data reached
    | .inr ⟨slot, new, reached⟩ => closed'.of_reaches (newData slot new) reached
  constructor
  · rintro a (records | caller)
    · exact closed'.inside (ofRecords records)
    · exact closed.inside (ofCaller caller)
  · intro a caller records
    exact apart a (ofCaller caller) (ofRecords records)

theorem closed_records (apart : attempt.SharesNothing heap) : heap.Closed (attempt.OfRecords heap) := by
  refine Heap.closed_of_stands (fun a belongs => apart.stands a (.inl belongs)) ?_
  rintro a b node (reached | ⟨slot, new, reached⟩) found member
  · exact .inl (reached.inside found member)
  · exact .inr ⟨slot, new, reached.inside found member⟩

theorem closed_caller (apart : attempt.SharesNothing heap) : heap.Closed (attempt.OfCaller heap) := by
  refine Heap.closed_of_stands (fun a belongs => apart.stands a (.inr belongs)) ?_
  rintro a b node ⟨caller, known, entry, among, reached⟩ found member
  exact ⟨caller, known, entry, among, reached.inside found member⟩

theorem among_attributes {caller : Caller} (known : attempt.caller = some caller) {entry : String × Slot}
    (member : entry ∈ caller.attributes) : entry.2.Among (attempt.OfCaller heap) :=
  (Expression.among_reaches heap entry.2).imp fun _ reached => ⟨caller, known, entry, member, reached⟩

end Attempt.SharesNothing

open Attempt.SharesNothing in
theorem exists_part_of_user (apart : attempt.SharesNothing heap) {lookup : Lookup}
    (opens : openScope lookup attempt heap = .ok scope opened) :
    ∃ part, opened.Closed part ∧ scope.user.Among part ∧ ∀ a, part a → ¬attempt.OfRecords heap a := by
  cases known : attempt.caller with
  | none =>
      simp only [openScope, known] at opens
      cases opens
      exact ⟨fun _ => False, fun a inside => inside.elim, trivial, fun a inside => inside.elim⟩
  | some caller =>
      simp only [openScope, known] at opens
      cases opens
      let fields := Entries.set caller.attributes idField (.plain (.str caller.id))
      have grown := Heap.Extends.alloc heap (.object fields)
      refine ⟨fun a => attempt.OfCaller heap a ∨ a = heap.nodes.size, ?_, .inr rfl, ?_⟩
      · rintro a (belongs | rfl)
        · obtain ⟨node, found, inner⟩ := apart.closed_caller a belongs
          exact ⟨node, grown.node? found, fun slot member => (inner slot member).imp fun _ => .inl⟩
        · refine ⟨.object fields, by rw [Heap.node?_alloc, if_pos rfl], fun slot member => ?_⟩
          obtain ⟨entry, set, rfl⟩ := List.mem_map.mp member
          rcases Entries.mem_set set with rfl | before
          · trivial
          · exact (among_attributes known before).imp fun _ => .inl
      · rintro a (belongs | rfl) records
        · exact apart.apart a belongs records
        · exact Nat.lt_irrefl _ (apart.stands _ (.inl records))

theorem scope_of_openScope {lookup : Lookup} (opens : openScope lookup attempt heap = .ok scope opened) :
    scope.data = attempt.data ∧ scope.newData = attempt.newData.getD (.plain .null) := by
  cases known : attempt.caller with
  | none | some caller =>
      simp only [openScope, known] at opens
      cases opens
      exact ⟨rfl, rfl⟩

theorem divided_of_openScope (apart : attempt.SharesNothing heap) {lookup : Lookup}
    (opens : openScope lookup attempt heap = .ok scope opened) (grown : Heap.Extends heap opened) :
    Expression.Divided (opened.Reaches scope.user) (attempt.OfRecords heap) scope opened := by
  obtain ⟨part, closed, user, beside⟩ := exists_part_of_user apart opens
  have sees := scope_of_openScope opens
  refine ⟨closed.reaches user, apart.closed_records.mono grown, ?_, Expression.among_reaches _ _, ?_, ?_⟩
  · intro a reached
    exact beside a (closed.of_reaches user reached)
  · rw [sees.1]
    exact (Expression.among_reaches heap _).imp fun _ => .inl
  · rw [sees.2]
    cases new : attempt.newData with
    | none => trivial
    | some slot => exact (Expression.among_reaches heap _).imp fun _ reached => .inr ⟨slot, new, reached⟩

/-- The user that rules see is as it was, at every depth, and so are the attributes of the caller. What has
changed stands in the stored record or in what is to be written. -/
structure SameUser (attempt : Attempt) (scope : Scope) (opened left : Heap) : Prop where
  user : left.readRecord scope.user = opened.readRecord scope.user
  value : left.read scope.user = opened.read scope.user
  attributes : ∀ caller, attempt.caller = some caller →
    left.record caller.attributes = opened.record caller.attributes
  others : ∀ a < opened.nodes.size, ¬opened.Reaches scope.data a → ¬opened.Reaches scope.newData a →
    left.node? a = opened.node? a

theorem sameUser_of_within {later : Nat → Prop} (apart : attempt.SharesNothing heap) {lookup : Lookup}
    (opens : openScope lookup attempt heap = .ok scope opened) (grown : Heap.Extends heap opened)
    (within : Within (attempt.OfRecords heap) later opened left) : SameUser attempt scope opened left := by
  have divided := divided_of_openScope apart opens grown
  have among := Expression.among_reaches opened scope.user
  have closed := apart.closed_caller.mono grown
  have user : Moves opened (opened.Reaches scope.user) id left := divided.closed.stays fun a reached =>
    within.same a (divided.closed.inside reached) (divided.apart a reached)
  have caller : Moves opened (attempt.OfCaller heap) id left := closed.stays fun a belongs =>
    within.same a (closed.inside belongs) (apart.apart a belongs)
  refine ⟨user.readRecord_eq among, by simpa using user.read_eq among, fun known isKnown => ?_, ?_⟩
  · exact caller.record_eq fun entry member => Attempt.SharesNothing.among_attributes isKnown member
  · intro a inside noData noNewData
    obtain ⟨isData, isNewData⟩ := scope_of_openScope opens
    refine within.same a inside ?_
    rintro (reached | ⟨slot, new, reached⟩)
    · exact noData (isData ▸ reached.mono grown)
    · rw [isNewData, new] at noNewData
      exact noNewData (reached.mono grown)

end Access

namespace Request

open Access (Attempt Caller Principal SameUser)
open Expression (Heap Mirrors Scope Slot Spares assignedByEach leftByEach)

theorem sharesNothing_of_loads {principal : Option Principal} {existing : Record} {payload : Option Fields}
    {caller : Option Caller} {data : Slot} {newData : Option Slot} {heap loaded prepared : Heap}
    (known : loadCaller? principal .empty = .ok caller heap)
    (loads : Access.loadRecord existing heap = .ok data loaded)
    (prepares : loadPayload? payload loaded = .ok newData prepared)
    (action : Access.Action) (collection : Option String) (override : Bool) :
    Attempt.SharesNothing { action, collection, caller, data, newData, override } prepared := by
  obtain ⟨link, m, callers⟩ := mirrors_caller known
  have attributes : ∀ known, caller = some known → ∀ entry ∈ known.attributes,
      entry.2.Among fun a => ∃ b, link a b := by
    rintro _ rfl
    cases callers with
    | some twin => exact twin.attributes.among
  cases loads
  obtain ⟨records, closed, isRecord, behind⟩ := Expression.fresh_of_loadRecord heap existing
  have grown := Heap.loadRecord_extends heap existing
  have beside {a : Nat} (above : heap.nodes.size ≤ a) : ¬∃ b, link a b :=
    fun ⟨b, linked⟩ => Nat.not_lt_of_le above (m.inside linked).1
  cases payload with
  | none =>
      cases prepares
      exact .of_closed (m.closed.mono grown) closed (fun a belongs isNew => beside (behind a isNew) belongs)
        attributes isRecord nofun
  | some payload =>
      cases prepares
      obtain ⟨written, closed', isNew, behind'⟩ := Expression.fresh_of_loadRecord _ (.plain payload)
      have grown' := Heap.loadRecord_extends (heap.loadRecord existing).2 (.plain payload)
      refine .of_closed (m.closed.mono (grown.trans grown')) ((closed.mono grown').or closed') ?_ attributes
        (isRecord.imp fun _ => .inl) ?_
      · rintro a belongs (old | new)
        · exact beside (behind a old) belongs
        · exact beside (grown.1.trans (behind' a new)) belongs
      · rintro _ ⟨⟩
        exact isNew.imp fun _ => .inr

/-- Rules that are evaluated one after another leave the user as it was if they assign nothing of it. -/
theorem rules_leave_user {attempt : Attempt} {heap : Heap} (apart : attempt.SharesNothing heap)
    (lookup : Access.Lookup) :
    ∃ scope opened, Access.openScope lookup attempt heap = .ok scope opened ∧
      ∀ sources, Spares (opened.Reaches scope.user) (assignedByEach scope sources opened) →
        SameUser attempt scope opened (leftByEach scope sources opened) := by
  obtain ⟨scope, opened, opens, grown⟩ := Access.openScope_run lookup attempt heap
  refine ⟨scope, opened, opens, fun sources spared => ?_⟩
  have divided := Access.divided_of_openScope apart opens grown
  obtain ⟨later, within⟩ := Expression.within_leftByEach divided spared
  exact Access.sameUser_of_within apart opens grown within

/-- An attempt to update a note with tags by Bob, whose marks are an object without properties. -/
def taggedUpdate : Attempt where
  action := .update
  collection := some "notes"
  caller := some ⟨"bob", [("marks", .shared 0)]⟩
  data := .shared 2
  newData := some (.shared 3)
  override := false

def heapOfTagged : Heap :=
  ⟨#[.object [], .list [.plain (.str "june")], .object [("tags", .shared 1)], .object []]⟩

/-- The same with the user that the rules see. -/
def openedOfTagged : Heap :=
  ⟨heapOfTagged.nodes.push (.object [("marks", .shared 0), (idField, .plain (.str "bob"))])⟩

def nothingToGet : Access.Lookup :=
  fun _ _ => .error ""

def scopeOfTagged : Scope where
  user := .shared 4
  data := .shared 2
  newData := .shared 3
  lookup := nothingToGet

theorem sharesNothing_taggedUpdate : taggedUpdate.SharesNothing heapOfTagged :=
  sharesNothing_of_loads
    (show loadCaller? (some { id := "bob", attributes := [("marks", .object [])] }) .empty = _ from rfl)
    (show Access.loadRecord (.plain [("tags", .list [.str "june"])]) _ = _ from rfl)
    (show loadPayload? (some []) _ = _ from rfl) _ _ _

theorem openScope_taggedUpdate :
    Access.openScope nothingToGet taggedUpdate heapOfTagged = .ok scopeOfTagged openedOfTagged := rfl

/-- Rules that put the id of the user and the tags of the note into what is to be written. -/
def taggingRules : List String :=
  ["newData.by = user._id", "newData.tags = data.tags"]

theorem taggingRules_leave_user :
    taggedUpdate.SharesNothing heapOfTagged ∧
      Spares (openedOfTagged.Reaches scopeOfTagged.user)
        (assignedByEach scopeOfTagged taggingRules openedOfTagged) ∧
      SameUser taggedUpdate scopeOfTagged openedOfTagged
        (leftByEach scopeOfTagged taggingRules openedOfTagged) := by
  obtain ⟨scope, opened, opens, leave⟩ := rules_leave_user sharesNothing_taggedUpdate nothingToGet
  cases openScope_taggedUpdate.symm.trans opens
  have slots : assignedByEach scopeOfTagged taggingRules openedOfTagged = [.plain (.str "bob"), .shared 1] := by
    decide +kernel
  have closed : openedOfTagged.Closed fun a => a = 0 ∨ a = 4 := by
    rintro a (rfl | rfl)
    · exact ⟨_, rfl, List.forall_mem_nil _⟩
    · exact ⟨_, rfl, List.forall_mem_cons.mpr ⟨.inl rfl, List.forall_mem_singleton.mpr trivial⟩⟩
  have spared : Spares (openedOfTagged.Reaches scopeOfTagged.user)
      (assignedByEach scopeOfTagged taggingRules openedOfTagged) := by
    have among : scopeOfTagged.user.Among fun a => a = 0 ∨ a = 4 := .inr rfl
    rw [slots]
    refine List.forall_mem_cons.mpr ⟨trivial, List.forall_mem_singleton.mpr fun reached => ?_⟩
    rcases closed.of_reaches among reached with same | same <;> cases same
  exact ⟨sharesNothing_taggedUpdate, spared, leave taggingRules spared⟩

/-- A rule that puts the marks of the user into the note and sets a property there. -/
def markingRule : String :=
  "(data.by = user.marks) && (data.by.seen = true)"

/-- The names of what the marks of a user have. -/
def markNames (user : Record) : List String :=
  match Entries.get? user.fields "marks" with
  | some (.object marks) => Entries.names marks
  | _ => []

/-- The rule changes the user. -/
theorem markingRule_changes_user :
    taggedUpdate.SharesNothing heapOfTagged ∧
      Access.openScope nothingToGet taggedUpdate heapOfTagged = .ok scopeOfTagged openedOfTagged ∧
      (leftByEach scopeOfTagged [markingRule] openedOfTagged).readRecord scopeOfTagged.user ≠
        openedOfTagged.readRecord scopeOfTagged.user := by
  refine ⟨sharesNothing_taggedUpdate, openScope_taggedUpdate, fun same => ?_⟩
  have marked : markNames ((leftByEach scopeOfTagged [markingRule] openedOfTagged).readRecord
      scopeOfTagged.user) = ["seen"] := by
    decide +kernel
  rw [same] at marked
  cases marked

end Request

end GuardedStore
