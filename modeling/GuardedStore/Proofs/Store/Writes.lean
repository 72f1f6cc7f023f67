import GuardedStore.Proofs.Store.Fields
import GuardedStore.Proofs.Store.History

/-! # Runs of writes

A store is seeded and then written to, by writes that succeed and writes that fail. What its callers
saw is its history: the seeded records, the ids that were handed out for added ones, and the records
that were deleted. Every store keeps its records as its history says.
-/

namespace GuardedStore.Store

theorem toOption_stored (store : Store) (name id : String) :
    (store.stored name id).toOption = Entries.get? (store.entries name) id := by
  cases stored : store.stored name id with
  | ok record => exact (stored_ok_iff.mp stored).symm
  | error refusal =>
      cases found : Entries.get? (store.entries name) id with
      | none => rfl
      | some record =>
          rw [stored_ok_iff.mpr found] at stored
          cases stored

/-- A store with the supply that its writes draw from. -/
structure Supplied where
  store : Store
  supply : Supply

/-- A write with its arguments. -/
inductive Write where
  | add (name : String) (data : Record) (owner : Option String)
  | replace (name id : String) (data : Record)
  | merge (name id : String) (data : Record)
  | delete (name id : String)

namespace Write

def run (state : Supplied) : Write → Except Refusal Written
  | .add name data owner => .ok (state.store.add state.supply name data owner)
  | .replace name id data => state.store.replace state.supply name id data
  | .merge name id data => state.store.merge state.supply name id data
  | .delete name id => state.store.delete state.supply name id

/-- What is there after a write; one that fails leaves all as it was. -/
def leaves (state : Supplied) (write : Write) : Supplied :=
  match write.run state with
  | .ok written => ⟨written.store, written.supply⟩
  | .error _ => state

/-- The id under which a record is handed out. -/
def handedId (record : Record) : String :=
  match record.value idField with
  | .str id => id
  | _ => ""

/-- The collection and the id of the record that a write asks for, if it asks for one. -/
def target? : Write → Option (String × String)
  | .add _ _ _ => none
  | .replace name id _ | .merge name id _ | .delete name id => some (name, id)

/-- The collection and the id of the record that is written by a write with an answer. -/
def key (answer : Record) : Write → String × String
  | .add name _ _ => (name, handedId answer)
  | .replace name id _ | .merge name id _ | .delete name id => (name, id)

/-- The collection and the id of the record that a write writes; one that fails writes none. -/
def written? (state : Supplied) (write : Write) : Option (String × String) :=
  match write.run state with
  | .ok written => some (write.key written.record)
  | .error _ => none

/-- The write hands out the record that is stored. -/
def Stores : Write → Prop
  | .add _ _ _ | .replace _ _ _ | .merge _ _ _ => True
  | .delete _ _ => False

/-- What a caller knows after a write: an added record came in, a deleted one left. -/
def event? (state : Supplied) (write : Write) : Option Event :=
  match write, write.run state with
  | .add name _ _, .ok written => some (.inserted name (handedId written.record))
  | .delete name id, .ok _ => some (.removed name id)
  | _, _ => none

/-- How a write ends, and what it leaves. -/
inductive Effect (state : Supplied) : Write → Prop
  | failed {write : Write} {refusal : Refusal} (ended : write.run state = .error refusal)
      (left : write.leaves state = state) : Effect state write
  | added {name id : String} {data record : Record} {owner : Option String}
      (new : id ∉ Entries.names (state.store.entries name))
      (ended : (Write.add name data owner).run state = .ok ⟨withId id record,
        state.store.put name id record, state.store.restSupply state.supply name⟩)
      (left : (Write.add name data owner).leaves state =
        ⟨state.store.put name id record, state.store.restSupply state.supply name⟩) :
      Effect state (.add name data owner)
  | rewritten {write : Write} {name id : String} {old record : Record}
      (stores : write.Stores) (asks : write.target? = some (name, id))
      (stored : state.store.stored name id = .ok old)
      (ended : write.run state =
        .ok ⟨withId id record, state.store.put name id record, state.supply.tick.2⟩)
      (left : write.leaves state = ⟨state.store.put name id record, state.supply.tick.2⟩) :
      Effect state write
  | deleted {name id : String} {old answer : Record}
      (stored : state.store.stored name id = .ok old)
      (ended : (Write.delete name id).run state =
        .ok ⟨answer, state.store.without name id, state.supply.tick.2⟩)
      (left : (Write.delete name id).leaves state =
        ⟨state.store.without name id, state.supply.tick.2⟩) :
      Effect state (.delete name id)

variable {state : Supplied} {write : Write}

theorem leaves_of_ok {written : Written} (h : write.run state = .ok written) :
    write.leaves state = ⟨written.store, written.supply⟩ := by
  rw [leaves, h]

theorem leaves_of_error {refusal : Refusal} (h : write.run state = .error refusal) :
    write.leaves state = state := by
  rw [leaves, h]

theorem written?_of_ok {written : Written} (h : write.run state = .ok written) :
    write.written? state = some (write.key written.record) := by
  rw [written?, h]

theorem handedId_withId (id : String) (record : Record) : handedId (withId id record) = id := by
  rw [handedId, value_withId]

theorem key_of_target {name id : String} (asks : write.target? = some (name, id)) (answer : Record) :
    write.key answer = (name, id) := by
  cases write with
  | add _ _ _ => cases asks
  | replace _ _ _ | merge _ _ _ | delete _ _ => exact Option.some.inj asks

theorem run_add (state : Supplied) (name : String) (data : Record) (owner : Option String) :
    (Write.add name data owner).run state =
      .ok ⟨withId (state.store.nextId state.supply name) (newRecord data owner state.supply.clock),
        state.store.put name (state.store.nextId state.supply name)
          (newRecord data owner state.supply.clock),
        state.store.restSupply state.supply name⟩ := by
  rw [run, add_eq]

theorem run_of_missing {name id : String} (asks : write.target? = some (name, id))
    {refusal : Refusal} (missing : state.store.stored name id = .error refusal) :
    ∃ refusal, write.run state = .error refusal := by
  cases write with
  | add _ _ _ => cases asks
  | replace _ _ _ | merge _ _ _ =>
      cases asks
      exact ⟨refusal, by simp [run, Store.replace, Store.merge, missing, bind, Except.bind]⟩
  | delete _ _ =>
      cases asks
      cases found : state.store.collection name <;>
        simp [run, Store.delete, missing, found, bind, Except.bind]

theorem effect (differ : state.supply.FreshDiffer) (write : Write) : Effect state write := by
  cases asks : write.target? with
  | none =>
      cases write with
      | replace _ _ _ | merge _ _ _ | delete _ _ => cases asks
      | add name data owner =>
          have ended := run_add state name data owner
          exact .added (nextId_notMem differ _ name) ended (leaves_of_ok ended)
  | some asked =>
      obtain ⟨name, id⟩ := asked
      cases stored : state.store.stored name id with
      | error refusal =>
          obtain ⟨refusal, ended⟩ := run_of_missing asks stored
          exact .failed ended (leaves_of_error ended)
      | ok old =>
          have found := stored_ok_iff.mp stored
          cases write with
          | add _ _ _ => cases asks
          | replace _ _ data =>
              cases asks
              have ended : (Write.replace name id data).run state = _ := replace_of_stored found state.supply data
              exact .rewritten trivial rfl stored ended (leaves_of_ok ended)
          | merge _ _ data =>
              cases asks
              have ended : (Write.merge name id data).run state = _ := merge_of_stored found state.supply data
              exact .rewritten trivial rfl stored ended (leaves_of_ok ended)
          | delete _ _ =>
              cases asks
              have ended : (Write.delete name id).run state = _ := delete_of_stored found state.supply
              exact .deleted stored ended (leaves_of_ok ended)

theorem freshDiffer_leaves (differ : state.supply.FreshDiffer) (write : Write) :
    (write.leaves state).supply.FreshDiffer := by
  cases effect differ write with
  | failed _ left => rwa [left]
  | added _ _ left =>
      rw [left]
      exact (differ.drawId _).tick
  | rewritten _ _ _ _ left | deleted _ _ left =>
      rw [left]
      exact differ.tick

theorem recounts_leaves {history : List Event} (h : Recounts history state.store)
    (differ : state.supply.FreshDiffer) (write : Write) :
    Recounts (history ++ (write.event? state).toList) (write.leaves state).store := by
  cases effect differ write with
  | failed ended left =>
      have silent : write.event? state = none := by
        cases write <;> simp [event?, ended]
      simpa [silent, left] using h
  | @added name id data record owner _ ended left =>
      have told : (Write.add name data owner).event? state = some (.inserted name id) := by
        simp [event?, ended, handedId_withId]
      simpa [told, left] using h.inserted name id record
  | @rewritten _ name id _ record stores asks stored _ left =>
      have silent : write.event? state = none := by
        cases write with
        | add _ _ _ => cases asks
        | replace _ _ _ | merge _ _ _ => rfl
        | delete _ _ => cases stores
      simpa [silent, left] using h.rewritten stored record
  | @deleted name id _ _ stored ended left =>
      have told : (Write.delete name id).event? state = some (.removed name id) := by
        simp [event?, ended]
      simpa [told, left] using h.removed stored

theorem toOption_stored_leaves (differ : state.supply.FreshDiffer) {name id : String}
    (other : write.written? state ≠ some (name, id)) :
    ((write.leaves state).store.stored name id).toOption =
      (state.store.stored name id).toOption := by
  rw [toOption_stored, toOption_stored]
  cases effect differ write with
  | failed _ left => rw [left]
  | added _ ended left =>
      rw [written?_of_ok ended, key, handedId_withId] at other
      rw [left, get?_put, if_neg]
      rintro ⟨rfl, rfl⟩
      exact other rfl
  | rewritten _ asks _ ended left =>
      rw [written?_of_ok ended, key_of_target asks] at other
      rw [left, get?_put, if_neg]
      rintro ⟨rfl, rfl⟩
      exact other rfl
  | deleted _ ended left =>
      rw [written?_of_ok ended, key] at other
      rw [left, get?_without, if_neg]
      rintro ⟨rfl, rfl⟩
      exact other rfl

/-- A stored record stays as it is until a write asks for it: an added record never takes its place. -/
theorem stored_leaves (differ : state.supply.FreshDiffer) {name id : String} {record : Record}
    (stored : state.store.stored name id = .ok record) (other : write.target? ≠ some (name, id)) :
    (write.leaves state).store.stored name id = .ok record := by
  have unwritten : write.written? state ≠ some (name, id) := by
    cases effect differ write with
    | failed ended _ => simp [written?, ended]
    | added new ended _ =>
        rw [written?_of_ok ended, key, handedId_withId]
        intro same
        cases same
        exact new (mem_names_of_stored stored)
    | rewritten _ asks _ ended _ =>
        rw [written?_of_ok ended, key_of_target asks]
        exact fun same => other (asks.trans same)
    | deleted _ ended _ =>
        rw [written?_of_ok ended]
        exact other
  have same := toOption_stored_leaves differ unwritten
  rw [toOption_stored, toOption_stored, stored_ok_iff.mp stored] at same
  exact stored_ok_iff.mpr same

theorem find_of_run (differ : state.supply.FreshDiffer) (stores : write.Stores) {written : Written}
    (h : write.run state = .ok written) :
    (write.leaves state).store.find (write.key written.record).1 (write.key written.record).2 =
      .ok written.record := by
  have found (name id : String) (record : Record) :
      (state.store.put name id record).find name id = .ok (withId id record) :=
    find_of_get? (by simp [get?_put])
  cases effect differ write with
  | failed ended _ => simp [ended] at h
  | @added name id _ record _ _ ended left =>
      cases ended.symm.trans h
      simpa [left, key, handedId_withId] using found name id record
  | @rewritten _ name id _ record _ asks _ ended left =>
      cases ended.symm.trans h
      simpa [left, key_of_target asks] using found name id record
  | deleted _ _ _ => cases stores

end Write

/-- What is there after writes, one after another, whether they succeed or not. -/
def writeAll : List Write → Supplied → Supplied
  | [], state => state
  | write :: rest, state => writeAll rest (write.leaves state)

/-- What a caller learns from writes. -/
def history : List Write → Supplied → List Event
  | [], _ => []
  | write :: rest, state => (write.event? state).toList ++ history rest (write.leaves state)

theorem freshDiffer_writeAll {state : Supplied} (differ : state.supply.FreshDiffer)
    (writes : List Write) : (writeAll writes state).supply.FreshDiffer := by
  induction writes generalizing state with
  | nil => exact differ
  | cons write rest ih => exact ih (Write.freshDiffer_leaves differ write)

theorem recounts_writeAll {past : List Event} {state : Supplied} (h : Recounts past state.store)
    (differ : state.supply.FreshDiffer) (writes : List Write) :
    Recounts (past ++ history writes state) (writeAll writes state).store := by
  induction writes generalizing past state with
  | nil => simpa [history, writeAll] using h
  | cons write rest ih =>
      have first := Write.recounts_leaves h differ write
      simpa [history, writeAll, List.append_assoc] using
        ih first (Write.freshDiffer_leaves differ write)

/-- A record is found as it is as long as no write asks for it. -/
theorem find_writeAll {state : Supplied} (differ : state.supply.FreshDiffer) {name id : String}
    {found : Record} (h : state.store.find name id = .ok found) {writes : List Write}
    (others : ∀ write ∈ writes, write.target? ≠ some (name, id)) :
    (writeAll writes state).store.find name id = .ok found := by
  induction writes generalizing state with
  | nil => exact h
  | cons write rest ih =>
      obtain ⟨record, held, rfl⟩ := get?_of_find h
      have kept := Write.stored_leaves differ (stored_ok_iff.mpr held)
        (others write List.mem_cons_self)
      exact ih (Write.freshDiffer_leaves differ write) (find_of_get? (stored_ok_iff.mp kept))
        fun next later => others next (List.mem_cons_of_mem _ later)

/-- A store has kept its records: what its callers can rely on, given its past. -/
structure Kept (past : List Event) (state : Supplied) : Prop where
  collections : state.store.collectionNames = appeared past
  unknown : ∀ name ∉ appeared past, state.store.all name = .error (.collectionMissing name)
  /-- The listed records are those that came in and did not leave, in their order. -/
  listing : ∀ name ∈ appeared past, ∃ records, state.store.all name = .ok records ∧
    List.Forall₂
      (fun id record => record.value idField = .str id ∧ state.store.find name id = .ok record)
      (present name past) records
  once : ∀ name, (present name past).Nodup
  found : ∀ name id, (∃ record, state.store.find name id = .ok record) ↔
    ∃ before after, past = before ++ .inserted name id :: after ∧ .removed name id ∉ after
  /-- Whatever is written, and be it in vain, all other records stay as they are. -/
  others : ∀ (write : Write) (name id : String), write.written? state ≠ some (name, id) →
    ((write.leaves state).store.stored name id).toOption = (state.store.stored name id).toOption
  /-- A record is added under an id that is not there. -/
  added : ∀ (name : String) (data : Record) (owner : Option String),
    ∃ id ∉ present name past, (Write.add name data owner).written? state = some (name, id)
  /-- The record that a write answers with is found until the next write that asks for it. -/
  answers : ∀ (write : Write) (written : Written), write.Stores → write.run state = .ok written →
    ∀ later : List Write, (∀ next ∈ later, next.target? ≠ some (write.key written.record)) →
      (writeAll later (write.leaves state)).store.find (write.key written.record).1
        (write.key written.record).2 = .ok written.record

theorem forall₂_names {entries : Entries Record} {holds : String → Record → Prop}
    (h : ∀ entry ∈ entries, holds entry.1 (withId entry.1 entry.2)) :
    List.Forall₂ holds (Entries.names entries)
      (entries.map fun (id, record) => withId id record) := by
  induction entries with
  | nil => exact .nil
  | cons entry rest ih =>
      exact .cons (h entry List.mem_cons_self)
        (ih fun later member => h later (List.mem_cons_of_mem _ member))

theorem kept_of_recounts {past : List Event} {state : Supplied} (h : Recounts past state.store)
    (differ : state.supply.FreshDiffer) : Kept past state where
  collections := h.collections
  unknown name missing := by
    rw [← h.collections] at missing
    have none : state.store.collections.get? name = Option.none :=
      Entries.get?_eq_none_iff.mpr missing
    rw [all_eq, none]
  listing name known := by
    rw [← h.collections] at known
    cases found : state.store.collections.get? name with
    | none => exact absurd known (Entries.get?_eq_none_iff.mp found)
    | some collection =>
        refine ⟨_, by rw [all_eq, found], ?_⟩
        rw [← h.ids]
        refine forall₂_names fun entry member => ⟨value_withId _ _, find_of_get? ?_⟩
        exact Entries.get?_of_mem (nodup_entries _ name) member
  once name := h.ids name ▸ nodup_entries state.store name
  found name id := by
    rw [← mem_present_iff, ← h.ids, Entries.mem_names_iff]
    constructor
    · rintro ⟨found, h⟩
      obtain ⟨record, held, -⟩ := get?_of_find h
      exact Entries.mem_names_iff.mp (mem_names_of_stored (stored_ok_iff.mpr held))
    · rintro ⟨record, member⟩
      exact ⟨_, find_of_get? (Entries.get?_of_mem (nodup_entries _ name) member)⟩
  others _ _ _ other := Write.toOption_stored_leaves differ other
  added name data owner := by
    refine ⟨state.store.nextId state.supply name, ?_, ?_⟩
    · rw [← h.ids]
      exact nextId_notMem differ state.store name
    · rw [Write.written?_of_ok (Write.run_add state name data owner), Write.key,
        Write.handedId_withId]
  answers write _ stores ended _ others :=
    find_writeAll (Write.freshDiffer_leaves differ write) (Write.find_of_run differ stores ended)
      others

/-- Every run of writes on a seeded store keeps every record, once and in insertion order. -/
theorem kept_writeAll {supply : Supply} (differ : supply.FreshDiffer) (snapshot : Snapshot)
    (writes : List Write) :
    Kept (seeded snapshot ++ history writes ⟨ofSnapshot snapshot, supply⟩)
      (writeAll writes ⟨ofSnapshot snapshot, supply⟩) :=
  kept_of_recounts (recounts_writeAll (recounts_ofSnapshot snapshot) differ writes)
    (freshDiffer_writeAll differ writes)

/-- Two collections, and a record that is seeded twice. -/
def seedTwice : Snapshot := [("empty", []), ("notes", [("a", []), ("b", []), ("a", [])])]

/-- A record is replaced, deleted, missed, and added again under an id that was drawn before. -/
def writesAgain : List Write :=
  [.replace "notes" "b" (.plain [("text", .null)]), .delete "notes" "a", .delete "notes" "a",
    .add "notes" (.plain [("_id", .null)]) none, .merge "missing" "a" (.plain []),
    .add "new" (.plain []) none]

/-- A record that is added again under its old id is listed last; what fails is no event. -/
theorem kept_writesAgain :
    (Supply.numbered ["b", "a"]).FreshDiffer ∧
      seeded seedTwice ++ history writesAgain ⟨ofSnapshot seedTwice, Supply.numbered ["b", "a"]⟩ =
        [.opened "empty", .opened "notes", .inserted "notes" "a", .inserted "notes" "b",
          .inserted "notes" "a", .removed "notes" "a", .inserted "notes" "a",
          .inserted "new" "id-1"] ∧
      present "notes"
        (seeded seedTwice ++
          history writesAgain ⟨ofSnapshot seedTwice, Supply.numbered ["b", "a"]⟩) = ["b", "a"] ∧
      Kept
        (seeded seedTwice ++ history writesAgain ⟨ofSnapshot seedTwice, Supply.numbered ["b", "a"]⟩)
        (writeAll writesAgain ⟨ofSnapshot seedTwice, Supply.numbered ["b", "a"]⟩) :=
  ⟨Supply.numbered_freshDiffer _, by decide +kernel, by decide +kernel,
    kept_writeAll (Supply.numbered_freshDiffer _) seedTwice writesAgain⟩

end GuardedStore.Store
