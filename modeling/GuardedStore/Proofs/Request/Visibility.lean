import GuardedStore.Proofs.Query.Arrangement
import GuardedStore.Proofs.Request.Effect
import GuardedStore.Proofs.Request.Gating

/-! # Listed and attached records

A read lists records of a collection, and may attach others to them. What it lists passes the checks for
reading, and could be read by its id as well. What it attaches is fetched as it is stored, whatever the
rules say.
-/

namespace GuardedStore.Request

open Access (RuleSet)

variable {service : Service} {request : Request} {world world' : World} {answer : Answer}
  {name id : String} {records : List Record}

/-- The records that a read of a collection lists. -/
def listed (service : Service) (request : Request) (world : World) (name : String) :
    Except Fault (List Record) :=
  match Query.given? request.query.filter, request.id with
  | none, some id => ((world.records.find name id).mapError .refused).map ([·])
  | _, _ => do service.engine.arrange (← (world.records.all name).mapError .refused) request.query

/-- A read of several records arranges them and checks them together. It answers how many they are, or with what
is shaped of them without the denied fields. -/
theorem readMany_ok_iff :
    readMany service request name world = .ok answer world' ↔
      ∃ all arranged gated, world.records.all name = .ok all ∧
        service.engine.arrange all request.query = .ok arranged ∧
        checked (gateRecords service (Access.lookupIn world.records) request arranged) world = .ok gated world ∧
        world' = world ∧
        (request.query.wantsCount = true ∧ answer = .count gated.length ∨
          request.query.wantsCount = false ∧ ∃ shaped,
            service.engine.shape (fetchRelated service world) request.query (gated.map (·.record)) = .ok shaped ∧
              answer = .records (List.zipWith redact shaped (gated.map (·.denied)))) := by
  rw [readMany, get_bind]
  constructor
  · intro done
    obtain ⟨all, found, done⟩ := Serve.orRefuse_bind_ok.mp done
    obtain ⟨arranged, arranges, done⟩ := Serve.ofExcept_bind_ok.mp done
    obtain ⟨gated, checks, done⟩ := (still_checked _).bind_ok_iff.mp done
    refine ⟨all, arranged, gated, found, arranges, checks, ?_⟩
    cases wanted : request.query.wantsCount with
    | true =>
        rw [wanted, if_pos rfl] at done
        cases done
        exact ⟨rfl, .inl ⟨rfl, rfl⟩⟩
    | false =>
        rw [wanted, if_neg Bool.false_ne_true] at done
        obtain ⟨shaped, shapes, ends⟩ := Serve.ofExcept_bind_ok.mp done
        cases ends
        exact ⟨rfl, .inr ⟨rfl, shaped, shapes, rfl⟩⟩
  · rintro ⟨all, arranged, gated, found, arranges, checks, rfl, answers⟩
    refine Serve.orRefuse_bind_ok.mpr ⟨all, found, Serve.ofExcept_bind_ok.mpr ⟨arranged, arranges, ?_⟩⟩
    rw [bind_of_ok checks]
    rcases answers with ⟨wanted, rfl⟩ | ⟨unwanted, shaped, shapes, rfl⟩
    · rw [wanted, if_pos rfl]
      rfl
    · rw [unwanted, if_neg Bool.false_ne_true]
      exact Serve.ofExcept_bind_ok.mpr ⟨shaped, shapes, rfl⟩

/-- A read of one record checks it, and answers with what is shaped of it without the denied fields. -/
theorem answer_of_readOne (done : readOne service request name id world = .ok answer world') :
    ∃ record gated shaped, world.records.find name id = .ok record ∧
      checked (gateRecords service (Access.lookupIn world.records) request [record]) world = .ok gated world ∧
      service.engine.shape (fetchRelated service world) request.query (gated.map (·.record)) = .ok shaped ∧
      answer = .record ((List.zipWith redact shaped (gated.map (·.denied))).head?.getD default) := by
  rw [readOne, get_bind] at done
  obtain ⟨record, found, done⟩ := Serve.orRefuse_bind_ok.mp done
  obtain ⟨gated, checks, done⟩ := (still_checked _).bind_ok_iff.mp done
  obtain ⟨shaped, shapes, ends⟩ := Serve.ofExcept_bind_ok.mp done
  cases ends
  exact ⟨record, gated, shaped, found, checks, shapes, rfl⟩

/-- An answer that hands out some listed records: they are checked together, shaped, with stored records
attached to them as the query says, and lose the fields that are denied. -/
inductive HandsOut (service : Service) (request : Request) (world : World) (records : List Record) :
    Answer → Prop
  | count {gated : List Gated} (wanted : request.query.wantsCount = true)
      (checks : checked (gateRecords service (Access.lookupIn world.records) request records) world =
        .ok gated world) :
      HandsOut service request world records (.count gated.length)
  | records {gated : List Gated} {shaped : List Record} (unwanted : request.query.wantsCount = false)
      (checks : checked (gateRecords service (Access.lookupIn world.records) request records) world =
        .ok gated world)
      (shapes : service.engine.shape (fetchRelated service world) request.query
        (gated.map (·.record)) = .ok shaped) :
      HandsOut service request world records
        (.records (List.zipWith redact shaped (gated.map (·.denied))))
  | record {gated : List Gated} {shaped : List Record}
      (checks : checked (gateRecords service (Access.lookupIn world.records) request records) world =
        .ok gated world)
      (shapes : service.engine.shape (fetchRelated service world) request.query
        (gated.map (·.record)) = .ok shaped) :
      HandsOut service request world records
        (.record ((List.zipWith redact shaped (gated.map (·.denied))).head?.getD default))

theorem HandsOut.checks (h : HandsOut service request world records answer) :
    ∃ gated, checked (gateRecords service (Access.lookupIn world.records) request records) world =
      .ok gated world := by
  cases h with
  | count _ checks | records _ checks | record checks => exact ⟨_, checks⟩

theorem readMany_handsOut (many : listed service request world name = do
      service.engine.arrange (← (world.records.all name).mapError .refused) request.query)
    (done : readMany service request name world = .ok answer world') :
    ∃ records, listed service request world name = .ok records ∧
      HandsOut service request world records answer := by
  obtain ⟨all, arranged, gated, found, arranges, checks, -, answers⟩ := readMany_ok_iff.mp done
  refine ⟨arranged, by rw [many, found]; exact arranges, ?_⟩
  rcases answers with ⟨wanted, rfl⟩ | ⟨unwanted, shaped, shapes, rfl⟩
  · exact .count wanted checks
  · exact .records unwanted checks shapes

theorem readOne_handsOut
    (one : listed service request world name =
      ((world.records.find name id).mapError .refused).map ([·]))
    (done : readOne service request name id world = .ok answer world') :
    ∃ records, listed service request world name = .ok records ∧
      HandsOut service request world records answer := by
  obtain ⟨record, gated, shaped, found, checks, shapes, rfl⟩ := answer_of_readOne done
  exact ⟨[record], by rw [one, found]; rfl, .record checks shapes⟩

theorem read_handsOut (named : Query.given? request.collection = some name)
    (done : read service request world = .ok answer world') :
    ∃ records, listed service request world name = .ok records ∧
      HandsOut service request world records answer := by
  simp only [read, named] at done
  cases filter : Query.given? request.query.filter with
  | some text =>
      simp only [filter] at done
      exact readMany_handsOut (by simp only [listed, filter]) done
  | none =>
      cases isId : request.id with
      | none =>
          simp only [filter, isId] at done
          exact readMany_handsOut (by simp only [listed, filter, isId]) done
      | some id =>
          simp only [filter, isId] at done
          exact readOne_handsOut (by simp only [listed, filter, isId]) done

theorem stored_of_listed (h : listed service request world name = .ok records) {record : Record}
    (member : record ∈ records) :
    ∃ id stored, world.records.stored name id = .ok stored ∧ record = withId id stored := by
  unfold listed at h
  split at h
  · rename_i id _ _
    cases found : world.records.find name id with
    | error refusal => simp [found, Except.mapError, Except.map] at h
    | ok one =>
        obtain ⟨stored, holds, rfl⟩ := Store.get?_of_find found
        simp only [found, Except.mapError, Except.map, Except.ok.injEq] at h
        cases h
        exact ⟨id, stored, Store.stored_ok_iff.mpr holds, List.mem_singleton.mp member⟩
  · cases found : world.records.all name with
    | error refusal => simp [found, Except.mapError, bind, Except.bind] at h
    | ok all =>
        simp only [found, Except.mapError, bind, Except.bind] at h
        exact Store.stored_of_all found (Query.Engine.mem_of_arrange h member)

theorem readMany_ne_record {one : Record} :
    readMany service request name world ≠ .ok (.record one) world' := by
  intro done
  obtain ⟨all, arranged, gated, -, -, -, -, answers⟩ := readMany_ok_iff.mp done
  rcases answers with ⟨-, counts⟩ | ⟨-, shaped, -, lists⟩
  · cases counts
  · cases lists

/-- A single record is answered when a single one is listed. -/
theorem listed_of_record {one : Record} (named : Query.given? request.collection = some name)
    (done : read service request world = .ok (.record one) world')
    (lists : listed service request world name = .ok records) : ∃ record, records = [record] := by
  simp only [read, named] at done
  unfold listed at lists
  cases filter : Query.given? request.query.filter with
  | some text =>
      simp only [filter] at done
      exact absurd done readMany_ne_record
  | none =>
      cases isId : request.id with
      | none =>
          simp only [filter, isId] at done
          exact absurd done readMany_ne_record
      | some id =>
          simp only [filter, isId] at lists
          cases found : world.records.find name id with
          | error refusal => simp [found, Except.mapError, Except.map] at lists
          | ok record =>
              simp only [found, Except.mapError, Except.map, Except.ok.injEq] at lists
              exact ⟨record, lists.symm⟩

/-- The read of a record by its id that asks for nothing else. -/
def direct (request : Request) (id : String) : Request :=
  { request with id := some id, query := {} }

/-- The record with an id is handed out to whoever makes a request, when it is asked for directly. -/
def Readable (service : Service) (request : Request) (world : World) (id : String) : Prop :=
  ∃ shown, execute service (request.direct id) world = .ok (.record shown) world

theorem readable_of_gated (action : request.action = .read)
    (named : Query.given? request.collection = some name) {stored : Record}
    (found : world.records.stored name id = .ok stored) {one : Gated} {heap : Expression.Heap}
    (gated : gateRecords service (Access.lookupIn world.records) request [withId id stored] .empty =
      .ok [one] heap) : Readable service request world id := by
  have find := Store.find_of_get? (Store.stored_ok_iff.mp found)
  have checks : checked (gateRecords service (Access.lookupIn world.records) (request.direct id)
      [withId id stored]) world = .ok [one] world :=
    checked_ok_iff.mpr ⟨⟨heap, gated⟩, rfl⟩
  have reads : execute service (request.direct id) world =
      readOne service (request.direct id) name id world := by
    simp only [execute, read, direct, action, named]
    rfl
  refine ⟨redact one.record one.denied, ?_⟩
  rw [reads, readOne, get_bind, Serve.orRefuse_bind_ok]
  refine ⟨_, find, ?_⟩
  rw [bind_of_ok checks]
  rfl

/-- Reads list nothing that cannot be read by its id. Among other records this asks for checks that leave the
attributes of the caller as they are. -/
theorem listed_records_readable (action : request.action = .read)
    (named : Query.given? request.collection = some name)
    (keeps : KeepsCaller service.rules request ∨ ∃ one, answer = .record one)
    (done : execute service request world = .ok answer world') :
    ∃ records, listed service request world name = .ok records ∧
      HandsOut service request world records answer ∧
      ∀ record ∈ records, ∃ id stored, world.records.stored name id = .ok stored ∧
        record = withId id stored ∧ Readable service request world id := by
  rw [execute, action] at done
  obtain ⟨records, lists, hands⟩ := read_handsOut named done
  have keeps : KeepsCaller service.rules request ∨ ∃ record, records = [record] := by
    refine keeps.imp_right ?_
    rintro ⟨one, rfl⟩
    exact listed_of_record named done lists
  refine ⟨records, lists, hands, fun record member => ?_⟩
  obtain ⟨id, stored, found, rfl⟩ := stored_of_listed lists member
  obtain ⟨gated, checks⟩ := hands.checks
  obtain ⟨⟨heap, together⟩, -⟩ := checked_ok_iff.mp checks
  obtain ⟨one, -, left, last, alone⟩ := exists_mem_of_forall₂ (gateRecords_each keeps together) member
  exact ⟨id, stored, found, rfl, readable_of_gated action named found alone⟩

/-- Notes, of which the first refers to a secret. -/
def worldOfSecret : World where
  records := .ofSnapshot
    [("notes", [("n1", [("ref", .str "s1"), (ownerField, .str "bob")]), ("n2", [])]),
      ("secrets", [("s1", [("code", .str "x")])])]
  accounts := .empty
  supply := .numbered []

/-- Secrets are not to be read. Notes are read by a rule. -/
def rulesOfSecret (rule : Access.Rule) : RuleSet where
  collections :=
    [(.str "secrets", { actions := { read := some (.flag false) } }),
      (.str "notes", { actions := { read := some rule } })]

/-- Bob, with an object that rules can change. -/
def bobWithMarks : Access.Principal where
  id := "bob"
  attributes := [("marks", .object [])]

/-- Bob lists the notes with what they refer to. -/
theorem listed_records_readable_by_bob :
    let service : Service := ⟨rulesOfSecret (.roles [.user]), {}⟩
    let request : Request :=
      { action := .read, collection := "notes", principal := some bobWithMarks,
        query := { load := "it=ref:secrets" } }
    Query.given? request.collection = some "notes" ∧ KeepsCaller service.rules request ∧
      ∃ answer records, execute service request worldOfSecret = .ok answer worldOfSecret ∧
        listed service request worldOfSecret "notes" = .ok records ∧
        HandsOut service request worldOfSecret records answer ∧
        ∀ record ∈ records, ∃ id stored, worldOfSecret.records.stored "notes" id = .ok stored ∧
          record = withId id stored ∧ Readable service request worldOfSecret id := by
  intro service request
  have named : Query.given? request.collection = some "notes" := rfl
  have keeps : KeepsCaller service.rules request := by
    refine .inl fun id => ?_
    have resolved : service.rules.resolve .read request.collection id = ⟨.roles [.user], []⟩ := by
      cases given : Access.nonEmpty? id <;> simp only [RuleSet.resolve, given] <;> rfl
    rw [resolved]
    exact ⟨rfl, nofun⟩
  obtain ⟨answer, done⟩ : ∃ answer, execute service request worldOfSecret =
      .ok answer worldOfSecret := ⟨_, rfl⟩
  obtain ⟨records, lists, hands, readable⟩ := listed_records_readable rfl named (.inl keeps) done
  exact ⟨named, keeps, answer, records, done, lists, hands, readable⟩

theorem not_readable_of_fault
    (failed : (match execute service (request.direct id) world with
      | .ok _ _ => false
      | .error _ _ => true) = true) : ¬ Readable service request world id := by
  rintro ⟨shown, done⟩
  rw [done] at failed
  cases failed

/-- Whether two notes are listed, of which the second one has nothing but its id. -/
def listsBareNote : Except Fault Answer → Bool
  | .ok (.records [_, ⟨[("_id", .str "n2")], _⟩]) => true
  | _ => false

/-- A secret that Bob may not read is attached to a note of his. And where a rule marks Bob as it checks
the first note, the second one is listed as well, which he may not read. -/
theorem unreadable_records_handed_out :
    let attaching : Service := ⟨rulesOfSecret (.roles [.user]), {}⟩
    let marking : Service :=
      ⟨rulesOfSecret (.expression
        "data.ref && (data.by = user.marks) && (data.by.seen = true) || user.marks.seen"), {}⟩
    let notes : Request := { action := .read, collection := "notes", principal := some bobWithMarks }
    let secrets : Request := { notes with collection := "secrets" }
    let note : Request := { notes with id := some "n1", query := { load := "it=ref:secrets" } }
    (∃ shown, execute attaching note worldOfSecret = .ok (.record shown) worldOfSecret ∧
        Entries.get? shown.fields "it" = some (.object [("code", .str "x"), (idField, .str "s1")]) ∧
        ¬ Readable attaching secrets worldOfSecret "s1") ∧
      ∃ first second, outcome (execute marking notes) worldOfSecret = .ok (.records [first, second]) ∧
        second.fields = [(idField, .str "n2")] ∧ ¬ Readable marking notes worldOfSecret "n2" := by
  intro attaching marking notes secrets note
  refine ⟨⟨_, rfl, rfl, not_readable_of_fault rfl⟩, ?_⟩
  have second : listsBareNote (outcome (execute marking notes) worldOfSecret) = true := by decide +kernel
  generalize outcome (execute marking notes) worldOfSecret = answered at second ⊢
  unfold listsBareNote at second
  split at second
  · exact ⟨_, _, rfl, rfl, not_readable_of_fault (by decide +kernel)⟩
  · cases second

end GuardedStore.Request
