import GuardedStore.Proofs.Request.Unshared
import GuardedStore.Proofs.Store.Rewriting
import GuardedStore.Proofs.Value.Range

/-! # Searching a collection

A search hands out the records of a collection that have the expected fields. It looks at the records as
they are stored, and these lack the field under which they are handed out: a search that names any other
fields finds what is among the records of the collection, one that names the field of the id finds nothing,
unless seeds have brought a value there.
-/

namespace GuardedStore

variable {expected actual : Value} {record : Record} {name id : String} {fields : Fields}

/-- A value is the expected one: two texts without regard to case, all else by loose equality. -/
inductive Value.Meets : Value → Value → Prop where
  | text {expected actual : String} (same : Text.foldCase expected = Text.foldCase actual) :
      Meets (.str expected) (.str actual)
  | loose {expected actual : Value} (other : ∀ a b, expected = .str a → actual = .str b → False)
      (equal : looseEquals expected actual = .ok true) : Meets expected actual

/-- A record has a field with an expected value. No value that holds itself is expected. -/
def Record.Has (record : Record) (field : String × Value) : Prop :=
  ∃ actual, Entries.get? record.fields field.1 = some actual ∧ record.isCircularAt field.1 = false ∧
    field.2.Meets actual

/-- A record has every expected field. -/
def Record.Meets (record : Record) (expected : Fields) : Prop :=
  ∀ field ∈ expected, record.Has field

/-- Of a field that is there the value cannot be compared with the expected one, for an integer beyond the
range of the numbers that both are read as. -/
def Record.StopsAt (record : Record) (field : String × Value) : Prop :=
  ∃ actual, Entries.get? record.fields field.1 = some actual ∧ record.isCircularAt field.1 = false ∧
    Value.looseEquals field.2 actual = .error .outOfRange

/-- The first expected field that a record does not have stops the comparison. -/
inductive Record.Stops (record : Record) : Fields → Prop where
  | here {field : String × Value} {rest : Fields} (stops : record.StopsAt field) : Stops record (field :: rest)
  | later {field : String × Value} {rest : Fields} (has : record.Has field) (stops : Stops record rest) :
      Stops record (field :: rest)

theorem Record.meets_cons_iff {field : String × Value} :
    record.Meets (field :: fields) ↔ record.Has field ∧ record.Meets fields :=
  List.forall_mem_cons

namespace Store

theorem matchesValue_ok_iff : matchesValue expected actual = .ok true ↔ expected.Meets actual := by
  fun_cases matchesValue expected actual with
  | case1 a b =>
      rw [Except.ok.injEq, decide_eq_true_iff]
      refine ⟨.text, fun met => ?_⟩
      cases met with
      | text same => exact same
      | loose other => exact (other a b rfl rfl).elim
  | case2 =>
      rename_i other
      refine ⟨.loose other, fun met => ?_⟩
      cases met with
      | text => exact (other _ _ rfl rfl).elim
      | loose _ equal => exact equal

theorem matchesValue_error_iff :
    matchesValue expected actual = .error .outOfRange ↔
      Value.looseEquals expected actual = .error .outOfRange := by
  fun_cases matchesValue expected actual with
  | case1 a b => simp [Value.looseEquals, Value.kind]
  | case2 => rfl

/-- A field that a record has is passed, one that stops the comparison stops it, and behind any other nothing
is compared. -/
theorem matchesFields_cons (record : Record) (field : String × Value) (rest : Fields) :
    (record.Has field ∧ ¬record.StopsAt field ∧
        matchesFields record (field :: rest) = matchesFields record rest) ∨
      (¬record.Has field ∧ record.StopsAt field ∧
        matchesFields record (field :: rest) = .error .outOfRange) ∨
      (¬record.Has field ∧ ¬record.StopsAt field ∧ matchesFields record (field :: rest) = .ok false) := by
  obtain ⟨name, wanted⟩ := field
  rw [matchesFields]
  cases found : Entries.get? record.fields name with
  | none => exact .inr (.inr ⟨by simp [Record.Has, found], by simp [Record.StopsAt, found], rfl⟩)
  | some actual =>
      cases circular : record.isCircularAt name with
      | true =>
          exact .inr (.inr ⟨by simp [Record.Has, circular], by simp [Record.StopsAt, circular], rfl⟩)
      | false =>
          have has : record.Has (name, wanted) ↔ matchesValue wanted actual = .ok true := by
            simp [Record.Has, found, circular, matchesValue_ok_iff]
          have stops : record.StopsAt (name, wanted) ↔ matchesValue wanted actual = .error .outOfRange := by
            simp [Record.StopsAt, found, circular, matchesValue_error_iff]
          rw [has, stops]
          cases tested : matchesValue wanted actual with
          | error fault => exact .inr (.inl ⟨by simp, rfl, by simp only [tested]; rfl⟩)
          | ok passed =>
              cases passed with
              | true => exact .inl ⟨rfl, by simp, by simp only [tested]; rfl⟩
              | false => exact .inr (.inr ⟨by simp, by simp, by simp only [tested]; rfl⟩)

theorem matchesFields_ok_iff : matchesFields record fields = .ok true ↔ record.Meets fields := by
  induction fields with
  | nil => simp [matchesFields_nil, Record.Meets]
  | cons field rest ih =>
      rw [Record.meets_cons_iff]
      rcases matchesFields_cons record field rest with
        ⟨has, -, ends⟩ | ⟨lacks, -, ends⟩ | ⟨lacks, -, ends⟩
      · simp [ends, has, ih]
      · simp [ends, lacks]
      · simp [ends, lacks]

theorem matchesFields_error_iff : matchesFields record fields = .error .outOfRange ↔ record.Stops fields := by
  induction fields with
  | nil => exact ⟨nofun, nofun⟩
  | cons field rest ih =>
      have split : record.Stops (field :: rest) ↔
          record.StopsAt field ∨ record.Has field ∧ record.Stops rest := by
        refine ⟨fun stops => ?_, ?_⟩
        · cases stops with
          | here stops => exact .inl stops
          | later has stops => exact .inr ⟨has, stops⟩
        · rintro (stops | ⟨has, stops⟩)
          · exact .here stops
          · exact .later has stops
      rw [split]
      rcases matchesFields_cons record field rest with
        ⟨has, runs, ends⟩ | ⟨-, stops, ends⟩ | ⟨lacks, runs, ends⟩
      · simp [ends, has, runs, ih]
      · simp [ends, stops]
      · simp [ends, lacks, runs]

instance (record : Record) (expected : Fields) : Decidable (record.Meets expected) :=
  decidable_of_iff (matchesFields record expected = .ok true) matchesFields_ok_iff

theorem matchesFields_withId (id : String) (record : Record) (other : idField ∉ Entries.names fields) :
    matchesFields (withId id record) fields = matchesFields record fields := by
  induction fields with
  | nil => rw [matchesFields_nil, matchesFields_nil]
  | cons field rest ih =>
      have apart : idField ≠ field.1 := fun same => other (same ▸ List.mem_cons_self)
      have circular : (withId id record).isCircularAt field.1 = record.isCircularAt field.1 := by
        rw [withId, Record.isCircularAt_set, if_neg apart]
      have behind := ih fun later => other (List.mem_cons_of_mem _ later)
      simp only [matchesFields, get?_withId id record apart, circular, behind]

theorem filterEntries_error {test : Record → Except OutOfRange Bool} {entries : Entries Record}
    {fault : OutOfRange} (h : filterEntries test entries = .error fault) :
    ∃ entry ∈ entries, test entry.2 = .error fault := by
  induction entries with
  | nil => cases h
  | cons entry rest ih =>
      rcases except_bind_error_iff.mp h with first | ⟨passes, -, h⟩
      · exact ⟨entry, List.mem_cons_self, first⟩
      · rcases except_bind_error_iff.mp h with later | ⟨others, -, ends⟩
        · obtain ⟨other, member, stops⟩ := ih later
          exact ⟨other, List.mem_cons_of_mem _ member, stops⟩
        · cases ends

theorem query_eq (store : Store) (name : String) (expected : Fields) :
    store.query name expected =
      match store.collections.get? name with
      | none => .error (.refused (.collectionMissing name))
      | some _ =>
        match filterEntries (matchesFields · expected) (store.entries name) with
        | .error _ => .error .outOfRange
        | .ok found => .ok (found.map fun (id, record) => withId id record) := by
  simp only [query, collection, entries]
  cases store.collections.get? name with
  | none => rfl
  | some collection =>
      simp only [Option.getD_some]
      cases searched : filterEntries (matchesFields · expected) collection.entries <;>
        simp only [bind, Except.bind, liftM, monadLift, MonadLift.monadLift, Except.mapError, searched,
          pure, Except.pure]

/-- How a search for some fields ends, given the records of the collection as they are handed out: it is
refused as these are, it stops at one of them, or it answers with those that have the fields, in order. -/
inductive Answers (expected : Fields) : Except Refusal (List Record) → Except Fault (List Record) → Prop where
  | refused {refusal : Refusal} : Answers expected (.error refusal) (.error (.refused refusal))
  | stopped {all : List Record} {record : Record} (member : record ∈ all) (stops : record.Stops expected) :
      Answers expected (.ok all) (.error .outOfRange)
  | found {all found : List Record} (total : ∀ record ∈ all, ¬record.Stops expected)
      (picked : found = all.filter fun record => record.Meets expected) : Answers expected (.ok all) (.ok found)

theorem answers_query (store : Store) (name : String) {expected : Fields}
    (other : idField ∉ Entries.names expected) :
    Answers expected (store.all name) (store.query name expected) := by
  rw [all_eq, query_eq]
  cases store.collections.get? name with
  | none => exact .refused
  | some _ =>
      cases searched : filterEntries (matchesFields · expected) (store.entries name) with
      | error fault =>
          obtain ⟨entry, member, stops⟩ := filterEntries_error searched
          refine .stopped (List.mem_map_of_mem member) (matchesFields_error_iff.mp ?_)
          cases fault
          exact (matchesFields_withId entry.1 entry.2 other).trans stops
      | ok found =>
          obtain ⟨passes, tested, rfl⟩ := total_of_filterEntries searched
          have handedOut : ∀ entry ∈ store.entries name,
              matchesFields (withId entry.1 entry.2) expected = .ok (passes entry) := fun entry member =>
            (matchesFields_withId entry.1 entry.2 other).trans (tested entry member)
          refine .found ?_ ?_
          · rw [List.forall_mem_map]
            intro entry member stops
            have fails := matchesFields_error_iff.mpr stops
            rw [handedOut entry member] at fails
            cases fails
          · rw [List.filter_map]
            refine congrArg _ (List.filter_congr fun entry member => ?_)
            have meets : _ ↔ (withId entry.1 entry.2).Meets expected := matchesFields_ok_iff
            rw [handedOut entry member, Except.ok.injEq] at meets
            rw [Function.comp_apply, Bool.eq_iff_iff, meets, decide_eq_true_iff]

/-- No stored record has a field of its own where the id is handed out. -/
def Idless (store : Store) : Prop :=
  Request.StoredAll (fun record => Entries.get? record.fields idField = none) store

theorem Idless.query_eq_nil {store : Store} (idless : store.Idless) {expected : Fields}
    (named : idField ∈ Entries.names expected) {found : List Record}
    (h : store.query name expected = .ok found) : found = [] := by
  rw [query_eq] at h
  cases present : store.collections.get? name with
  | none =>
      rw [present] at h
      cases h
  | some collection =>
      rw [present] at h
      cases searched : filterEntries (matchesFields · expected) (store.entries name) with
      | error fault =>
          rw [searched] at h
          cases h
      | ok entries =>
          rw [searched] at h
          obtain ⟨passes, tested, rfl⟩ := total_of_filterEntries searched
          cases h
          rw [List.map_eq_nil_iff, List.filter_eq_nil_iff]
          intro entry member passed
          have meets := matchesFields_ok_iff.mp ((tested entry member).trans (congrArg _ passed))
          obtain ⟨field, among, isId⟩ := List.mem_map.mp named
          obtain ⟨actual, seeded, -⟩ := meets field among
          rw [isId, idless name entry member] at seeded
          cases seeded

theorem id_newRecord (data : Record) (owner : Option String) (time : Int) :
    Entries.get? (newRecord data owner time).fields idField = none := by
  have notCreated : createdField ≠ idField := by decide
  have notOwner : ownerField ≠ idField := by decide
  have notSet := notMem_withoutSystemFields data (show idField ∈ systemFields by decide)
  simp only [newRecord, Record.set, Record.overlay, Entries.get?_set_of_ne notCreated,
    Entries.get?_overlay_of_notMem notSet]
  cases owner <;> simp [Record.plain, Entries.get?_cons, notOwner]

variable {state : Supplied}

theorem Idless.rewrite (idless : state.store.Idless) (name id : String) (rewrite : Rewrite) :
    ((rewrite.write name id).leaves state).store.Idless := by
  cases stored : state.store.stored name id with
  | error refusal =>
      have asks : (rewrite.write name id).target? = some (name, id) := by cases rewrite <;> rfl
      obtain ⟨_, fails⟩ := Write.run_of_missing asks stored
      rwa [Write.leaves_of_error fails]
  | ok existing =>
      have updated := rewrite.updatedAt_apply existing state.supply.clock
      rw [Write.leaves_of_ok (rewrite.run_write stored)]
      refine Request.StoredAll.put idless ?_ name id
      exact (updated.kept idField (by decide) (by decide)).trans (idless.of_stored (stored_ok_iff.mp stored))

theorem Idless.leaves (idless : state.store.Idless) (write : Write) : (write.leaves state).store.Idless := by
  cases write with
  | add name data owner =>
      rw [Write.leaves_of_ok (Write.run_add state name data owner)]
      exact Request.StoredAll.put idless (id_newRecord data owner _) _ _
  | replace name id data => exact idless.rewrite name id (.replace data)
  | merge name id data => exact idless.rewrite name id (.merge data)
  | delete name id =>
      cases stored : state.store.stored name id with
      | error refusal =>
          have asks : (Write.delete name id).target? = some (name, id) := rfl
          obtain ⟨_, fails⟩ := Write.run_of_missing asks stored
          rwa [Write.leaves_of_error fails]
      | ok existing =>
          have ended : (Write.delete name id).run state = _ := delete_of_stored (stored_ok_iff.mp stored) _
          rw [Write.leaves_of_ok ended]
          exact Request.StoredAll.without idless name id

theorem Idless.writeAll (idless : state.store.Idless) (writes : List Write) :
    (writeAll writes state).store.Idless := by
  induction writes generalizing state with
  | nil => exact idless
  | cons write rest ih => exact ih (idless.leaves write)

/-- A search of a written store, by other fields than the id, finds what is among the records of the collection
as they are handed out. By the id it finds nothing where no seed has a field for it. -/
theorem query_of_written (snapshot : Snapshot) (supply : Supply) (writes : List Write) (name : String)
    (expected : Fields) :
    let store := (Store.writeAll writes ⟨ofSnapshot snapshot, supply⟩).store
    (idField ∉ Entries.names expected → Answers expected (store.all name) (store.query name expected)) ∧
      (idField ∈ Entries.names expected →
        (∀ collection ∈ snapshot, ∀ seed ∈ collection.2, Entries.get? seed.2 idField = none) →
        ∀ found, store.query name expected = .ok found → found = []) := by
  intro store
  refine ⟨answers_query store name, fun named unseeded found ends => ?_⟩
  let state : Supplied := ⟨ofSnapshot snapshot, supply⟩
  have idless : state.store.Idless := Request.storedAll_ofSnapshot unseeded
  exact (idless.writeAll writes).query_eq_nil named ends

/-- Two notes, and a count beyond the range of the numbers that texts are read as. -/
def seededNotesAndCounts : Snapshot :=
  [("notes", [("n1", [("text", .str "Red")]), ("n2", [("text", .str "blue")])]),
    ("counts", [("c1", [("n", .int (10 ^ 400))])])]

def laterWrites : List Write :=
  [.add "notes" (.plain [("text", .str "RED"), ("_id", .str "n1")]) none,
    .merge "notes" "n2" (.plain [("text", .str "green")])]

theorem query_of_written_notes :
    let store := (Store.writeAll laterWrites ⟨ofSnapshot seededNotesAndCounts, Supply.numbered []⟩).store
    Answers [("text", .str "red")] (store.all "notes") (store.query "notes" [("text", .str "red")]) ∧
      ∀ found, store.query "notes" [("_id", .str "n1")] = .ok found → found = [] := by
  intro store
  exact ⟨(query_of_written _ _ _ "notes" [("text", .str "red")]).1 (by decide),
    (query_of_written _ _ _ "notes" [("_id", .str "n1")]).2 (by decide) (by decide)⟩

/-- A note is not found by the id that it is handed out with, and a search for a text stops at a count that it
does not equal. -/
theorem note_and_count_not_found :
    ¬Answers [("_id", .str "n1")] ((ofSnapshot seededNotesAndCounts).all "notes")
        ((ofSnapshot seededNotesAndCounts).query "notes" [("_id", .str "n1")]) ∧
      ¬∃ found, (ofSnapshot seededNotesAndCounts).query "counts" [("n", .str "1")] = .ok found := by
  let red : Record := .plain [("text", .str "Red"), ("_id", .str "n1")]
  constructor
  · have listed : (ofSnapshot seededNotesAndCounts).all "notes" =
        .ok [red, .plain [("text", .str "blue"), ("_id", .str "n2")]] := rfl
    have missed : (ofSnapshot seededNotesAndCounts).query "notes" [("_id", .str "n1")] = .ok [] := rfl
    have met : red.Meets [("_id", .str "n1")] := by decide
    rw [listed, missed]
    intro answers
    cases answers with
    | found total picked => simp [met] at picked
  · rintro ⟨found, ends⟩
    have stopped : ((ofSnapshot seededNotesAndCounts).query "counts" [("n", .str "1")]).toOption.isNone := by
      decide +kernel
    rw [ends] at stopped
    cases stopped

end Store

end GuardedStore
