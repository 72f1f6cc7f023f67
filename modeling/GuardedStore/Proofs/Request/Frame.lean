import GuardedStore.Proofs.Expression.Coherence
import GuardedStore.Proofs.Request.Effect
import GuardedStore.Proofs.Request.Gating

/-! # What a check leaves as it was

A check whose rules assign nothing takes denied fields out of what is to be written, as it comes to them, and
changes nothing else. Where it succeeds, what is taken out are the fields that it names as denied; where it ends
early, some fields may be gone already. The record, the attributes of the caller and the stores are the same as
before, as long as what is to be written is an object of its own, which is so for all that is loaded.
-/

namespace GuardedStore

namespace Expression

/-- The record in a slot without some fields. -/
def Heap.readWithout (heap : Heap) (slot : Slot) (names : List String) : Record :=
  heap.record (((heap.fields? slot).getD []).filter fun (name, _) => name ∉ names)

theorem Heap.fields_readWithout (heap : Heap) (slot : Slot) (names : List String) :
    (heap.readWithout slot names).fields = (heap.readRecord slot).fields.filter fun (name, _) => name ∉ names := by
  simp only [Heap.readWithout, Heap.readRecord, Heap.record, List.filter_map]
  rfl

end Expression

namespace Access

open Expression (Heap Moves)

variable {attempt : Attempt} {heap : Heap}

/-- What the rules see of an attempt, but for the object that is to be written, is a closed part of the heap. -/
structure Attempt.ApartFrom (attempt : Attempt) (part : Nat → Prop) (heap : Heap) : Prop where
  closed : heap.Closed part
  data : attempt.data.Among part
  attributes : ∀ caller, attempt.caller = some caller → ∀ entry ∈ caller.attributes, entry.2.Among part
  newData : ∀ slot, attempt.newData = some slot → ∃ address fields, slot = .shared address ∧ ¬ part address ∧
    heap.fields? slot = some fields ∧ ∀ entry ∈ fields, entry.2.Among part

/-- What is to be written is an object of its own, that neither the record nor an attribute of the caller nor
itself holds. -/
def Attempt.Separate (attempt : Attempt) (heap : Heap) : Prop :=
  ∃ part, attempt.ApartFrom part heap

/-- The record and the attributes of the caller are as they were, and what is to be written is without some
fields. -/
structure LeavesBut (names : List String) (attempt : Attempt) (heap left : Heap) : Prop where
  data : left.readRecord attempt.data = heap.readRecord attempt.data
  attributes : ∀ caller, attempt.caller = some caller →
    left.record caller.attributes = heap.record caller.attributes
  newData : ∀ slot, attempt.newData = some slot → left.readRecord slot = heap.readWithout slot names

theorem Attempt.Separate.leavesBut {left : Heap} {denied : List String} (separate : attempt.Separate heap)
    (stripped : StrippedOf attempt denied heap left) : LeavesBut (attempt.taken denied) attempt heap left := by
  obtain ⟨part, apart⟩ := separate
  -- Only the object that is to be written changes, and no part of what is read lies there.
  have stays : Moves heap part id left := by
    refine apart.closed.stays fun a inside => stripped.beside.node? a (apart.closed.inside inside) ?_
    intro same
    obtain ⟨address, fields, new, outside, -⟩ := apart.newData _ (Attempt.newData_of_written same.symm)
    cases new
    exact outside inside
  refine ⟨stays.readRecord_eq apart.data, fun caller known => stays.record_eq (apart.attributes caller known), ?_⟩
  intro slot new
  obtain ⟨address, fields, rfl, outside, found, among⟩ := apart.newData slot new
  rw [StrippedOf, Attempt.written, new, Option.getD_some] at stripped
  rw [Heap.readRecord, stripped.fields? fields found, Heap.readWithout, found]
  exact stays.record_eq fun entry member => among entry (List.mem_of_mem_filter member)

/-- How a check ends that only strips: what it leaves is what was there without fields that it has taken out,
which are the ones that it gives if it succeeds. -/
structure OnlyStrips (names : List String) (attempt : Attempt) (heap : Heap)
    (result : EStateM.Result Fault Heap (List String)) : Prop where
  success : ∀ {denied left}, result = .ok denied left →
    denied.Sublist names ∧ LeavesBut (attempt.taken denied) attempt heap left
  failure : ∀ {fault left}, result = .error fault left →
    ∃ absent, absent.Sublist names ∧ LeavesBut (attempt.taken absent) attempt heap left

end Access

namespace Request

open Access (Attempt Caller OnlyStrips Principal RuleSet ruledFields)
open Expression (Heap Slot)

theorem separate_of_loads {principal : Option Principal} {existing : Record} {payload : Option Fields}
    {caller : Option Caller} {data : Slot} {newData : Option Slot} {heap loaded prepared : Heap}
    (known : loadCaller? principal .empty = .ok caller heap)
    (loads : Access.loadRecord existing heap = .ok data loaded)
    (prepares : loadPayload? payload loaded = .ok newData prepared)
    (action : Access.Action) (collection : Option String) (override : Bool) :
    Attempt.Separate { action, collection, caller, data, newData, override } prepared := by
  obtain ⟨link, m, callers⟩ := mirrors_caller known
  cases loads
  obtain ⟨link', grown, m, data⟩ := m.loadRecord existing
  have callers := Access.rel_mono callers fun twin => twin.mono grown
  cases payload with
  | none =>
      cases prepares
      refine ⟨_, m.closed, data.among, ?_, nofun⟩
      rintro _ rfl
      cases callers with
      | some twin => exact twin.attributes.among
  | some payload =>
      cases prepares
      obtain ⟨link'', grown', m, fields⟩ := m.loadRecordFields (.plain payload)
      have callers := Access.rel_mono callers fun twin => twin.mono grown'
      refine ⟨_, m.closed.mono (.alloc _ _), (data.mono grown').among, ?_, ?_⟩
      · rintro _ rfl
        cases callers with
        | some twin => exact twin.attributes.among
      · rintro _ ⟨⟩
        refine ⟨_, _, rfl, ?_, Heap.fields?_alloc _ _, fields.among⟩
        rintro ⟨b, linked⟩
        exact Nat.lt_irrefl _ (m.inside linked).1

/-- A check whose rules assign nothing strips what is to be written of denied fields and changes nothing else.
Where it succeeds, the denied fields are among those that have rules, in their order. The stores that its rules
look records up in are left as they were, for any check at all: it is given what it may look up, and no store. -/
theorem enforce_only_strips {ruleSet : RuleSet} {attempt : Attempt} {heap : Heap}
    (unassigning : ∀ id, (ruleSet.resolve attempt.action attempt.collection id).Unassigning)
    (separate : attempt.Separate heap) :
    (∀ lookup, OnlyStrips (ruledFields ruleSet attempt heap) attempt heap
      (Access.enforce ruleSet lookup attempt heap)) ∧
    ∀ world : World, leaves (checked do
      set heap
      Access.enforce ruleSet (Access.lookupIn world.records) attempt) world = world := by
  refine ⟨fun lookup => ?_, fun world => still_checked _ world⟩
  obtain ⟨absent, among, stripped, gives⟩ := Access.stripsAmong_enforce unassigning lookup heap
  constructor
  · intro denied left done
    rw [leaves_of_ok done] at stripped
    rw [gives denied left done]
    exact ⟨among, separate.leavesBut stripped⟩
  · intro fault left failed
    rw [leaves_of_error failed] at stripped
    exact ⟨absent, among, separate.leavesBut stripped⟩

/-- Rules for a diary: nobody writes a mood, and only owners write a text. -/
def rulesForDiary : RuleSet where
  collections := [(.str "diary", { fields := [("mood", { update := some (.flag false) }),
    ("text", { update := some (.roles [.owner]) })] })]

/-- An entry of Ann's with tags, and what she wants it to be. -/
def diaryEntry : Record :=
  .plain [(idField, .str "e1"), (ownerField, .str "ann"), ("tags", .list [.str "june"])]

def newDiaryEntry : Fields :=
  [("text", .str "sun"), ("mood", .str "good"), ("tags", .list [.str "july"])]

def annOfDiary : Principal where
  id := "ann"
  attributes := [("friends", .list [.str "bob"])]

def diaryUpdate : Attempt where
  action := .update
  collection := some "diary"
  caller := some ⟨"ann", [("friends", .shared 0)]⟩
  data := .shared 2
  newData := some (.shared 4)
  override := false

def heapOfDiary : Heap :=
  ⟨#[.list [.plain (.str "bob")], .list [.plain (.str "june")],
    .object [(idField, .plain (.str "e1")), (ownerField, .plain (.str "ann")), ("tags", .shared 1)],
    .list [.plain (.str "july")],
    .object [("text", .plain (.str "sun")), ("mood", .plain (.str "good")), ("tags", .shared 3)]]⟩

theorem separate_diaryUpdate : diaryUpdate.Separate heapOfDiary :=
  separate_of_loads (show loadCaller? (some annOfDiary) .empty = _ from rfl)
    (show Access.loadRecord diaryEntry _ = _ from rfl)
    (show loadPayload? (some newDiaryEntry) _ = _ from rfl) _ _ _

/-- Ann's new entry loses its mood and nothing else. -/
theorem enforce_only_strips_mood :
    (∀ id, (rulesForDiary.resolve diaryUpdate.action diaryUpdate.collection id).Unassigning) ∧
      diaryUpdate.Separate heapOfDiary ∧
      ∃ left, Access.enforce rulesForDiary (fun _ _ => .error "") diaryUpdate heapOfDiary = .ok ["mood"] left ∧
        Access.LeavesBut ["mood"] diaryUpdate heapOfDiary left ∧
        (left.readRecord (.shared 4)).fields = [("text", .str "sun"), ("tags", .list [.str "july"])] := by
  have unassigning (id : Option String) :
      (rulesForDiary.resolve diaryUpdate.action diaryUpdate.collection id).Unassigning := by
    have isGroup : rulesForDiary.group? diaryUpdate.collection = some
        { fields := [("mood", { update := some (.flag false) }), ("text", { update := some (.roles [.owner]) })] } :=
      rfl
    rw [Access.resolve_of_no_records isGroup rfl]
    exact ⟨rfl, by decide⟩
  have strips := (enforce_only_strips unassigning separate_diaryUpdate).1 fun _ _ => .error ""
  obtain ⟨left, done⟩ : ∃ left, Access.enforce rulesForDiary (fun _ _ => .error "") diaryUpdate heapOfDiary =
      .ok ["mood"] left := ⟨_, rfl⟩
  have leaves := (strips.success done).2
  refine ⟨unassigning, separate_diaryUpdate, left, done, leaves, ?_⟩
  rw [leaves.newData _ rfl, Heap.fields_readWithout]
  rfl

end Request

end GuardedStore
