import GuardedStore.Proofs.Query.Relations
import GuardedStore.Proofs.Request.Visibility

/-! # Redacted answers

What a read shows of a record has none of the fields that the check for reading the record denies, whatever
was selected and attached. A record that was created or updated is answered as it is stored, with
everything that its writer may not read.
-/

namespace GuardedStore.Request

open Access (Guarded)

variable {service : Service} {request : Request} {world world' : World} {answer : Answer}
  {name id : String} {record : Record} {records shown : List Record} {denied : List String}

/-- What the check for reading a record ends with when nothing else is read: the fields that it denies
to the caller. -/
def readVerdict (service : Service) (request : Request) (world : World) (record : Record) :
    Except Fault (List String) :=
  outcome (do
    let caller ← loadCaller? request.principal
    let slot ← Access.loadRecord record
    Access.enforce service.rules (Access.lookupIn world.records) (readAttempt request caller slot))
    .empty

/-- The records that an answer shows, if it shows records. -/
def Answer.shown? : Answer → Option (List Record)
  | .record one => some [one]
  | .records list => some list
  | .names _ | .count _ => none

/-- A record of an answer, without the fields of a stored record that the check for reading denies. -/
structure Redacted (service : Service) (request : Request) (world : World) (name : String)
    (listed shown : Record) : Prop where
  stored : ∃ id record, world.records.stored name id = .ok record ∧ listed = withId id record
  hidden : ∃ denied, readVerdict service request world listed = .ok denied ∧
    ∀ field ∈ denied, field ∉ Entries.names shown.fields

theorem notMem_redact {field : String} (h : field ∈ denied) (record : Record) :
    field ∉ Entries.names (redact record denied).fields := by
  intro member
  obtain ⟨value, member⟩ := Entries.mem_names_iff.mp member
  simp [redact, Record.without, h] at member

theorem gateRecords_one {gated : List Gated} {heap : Expression.Heap}
    (done : gateRecords service (Access.lookupIn world.records) request [record] .empty =
      .ok gated heap) :
    ∃ left denied, gated = [⟨left, denied⟩] ∧ readVerdict service request world record = .ok denied := by
  obtain ⟨caller, alone, slots, loaded, lists, known, loads, checks, rfl⟩ := gateRecords_ok_iff.mp done
  rw [loadRecords] at loads
  obtain ⟨slot, next, load, loads⟩ := bind_ok_iff.mp loads
  cases loads
  rw [gateSlots] at checks
  obtain ⟨names, final, check, checks⟩ := bind_ok_iff.mp checks
  cases checks
  refine ⟨_, names, rfl, ?_⟩
  rw [readVerdict, outcome, bind_of_ok known, bind_of_ok load, readAttempt, check]

/-- Each of several records loses what it would lose alone. -/
theorem verdicts_of_checks {gated : List Gated}
    (keeps : KeepsCaller service.rules request ∨ ∃ record, records = [record])
    (checks : checked (gateRecords service (Access.lookupIn world.records) request records) world =
      .ok gated world) :
    List.Forall₂ (fun record (one : Gated) => readVerdict service request world record = .ok one.denied)
      records gated := by
  obtain ⟨⟨heap, together⟩, -⟩ := checked_ok_iff.mp checks
  refine (gateRecords_each keeps together).imp fun record one alone => ?_
  obtain ⟨left, heap', alone⟩ := alone
  obtain ⟨left', denied, same, verdict⟩ := gateRecords_one alone
  cases same
  exact verdict

theorem redacted_of_checks {gated : List Gated} {shaped : List Record}
    (lists : listed service request world name = .ok records)
    (keeps : KeepsCaller service.rules request ∨ ∃ record, records = [record])
    (checks : checked (gateRecords service (Access.lookupIn world.records) request records) world =
      .ok gated world)
    (shapes : service.engine.shape (fetchRelated service world) request.query
      (gated.map (·.record)) = .ok shaped) :
    List.Forall₂ (Redacted service request world name) records
      (List.zipWith redact shaped (gated.map (·.denied))) := by
  have verdicts := verdicts_of_checks keeps checks
  have same : shaped.length = records.length := by
    rw [Query.Engine.length_shape shapes, List.length_map, verdicts.length_eq]
  rw [List.zipWith_map_right]
  refine forall₂_zipWith ((List.forall₂_and_left _ _).mpr ⟨fun record => stored_of_listed lists, verdicts⟩)
    same ?_
  rintro record one left ⟨⟨id, stored, found, isRecord⟩, verdict⟩
  exact ⟨⟨id, stored, found, isRecord⟩, one.denied, verdict, fun _ denied => notMem_redact denied left⟩

/-- What a read shows of a record has no field that the check for reading it denies. Among other
records this asks for checks that leave the attributes of the caller as they are. -/
theorem read_redacted (action : request.action = .read)
    (done : execute service request world = .ok answer world') (isShown : answer.shown? = some shown)
    (keeps : KeepsCaller service.rules request ∨ ∃ one, answer = .record one) :
    ∃ name records, Query.given? request.collection = some name ∧
      listed service request world name = .ok records ∧
      HandsOut service request world records answer ∧
      List.Forall₂ (Redacted service request world name) records shown := by
  rw [execute, action] at done
  cases named : Query.given? request.collection with
  | none =>
      simp only [read, named, listCollections, get_bind, (still_checked _).bind_ok_iff] at done
      obtain ⟨gated, -, done⟩ := done
      cases done
      cases isShown
  | some name =>
      obtain ⟨records, lists, hands⟩ := read_handsOut named done
      refine ⟨name, records, rfl, lists, hands, ?_⟩
      cases hands with
      | count => cases isShown
      | records _ checks shapes =>
          cases isShown
          rcases keeps with keeps | ⟨one, same⟩
          · exact redacted_of_checks lists (.inl keeps) checks shapes
          · cases same
      | record checks shapes =>
          cases isShown
          obtain ⟨record, rfl⟩ := listed_of_record named done lists
          have redacted := redacted_of_checks lists (.inr ⟨record, rfl⟩) checks shapes
          generalize List.zipWith redact _ _ = all at redacted ⊢
          cases redacted with
          | cons first none =>
              cases none
              exact .cons first .nil

/-- Notes with secrets, of which the first one refers to something. -/
def worldOfSecrets : World where
  records := .ofSnapshot
    [("notes", [("n1", [("ref", .str "x"), ("secret", .str "s")]), ("n2", [("secret", .str "t")])])]
  accounts := .empty
  supply := .numbered []

/-- A rule for reading the secrets of notes. -/
def rulesOfSecrets (rule : Access.Rule) : Access.RuleSet where
  collections := [(.str "notes", { fields := [("secret", { read := some rule })] })]

/-- Bob lists the notes, without their secrets. -/
theorem read_redacted_notes_for_bob :
    let service : Service := ⟨rulesOfSecrets (.roles [.owner]), {}⟩
    let request : Request := { action := .read, collection := "notes", principal := some bobWithMarks }
    KeepsCaller service.rules request ∧
      ∃ shown records, execute service request worldOfSecrets = .ok (.records shown) worldOfSecrets ∧
        listed service request worldOfSecrets "notes" = .ok records ∧
        List.Forall₂ (Redacted service request worldOfSecrets "notes") records shown := by
  intro service request
  have keeps : KeepsCaller service.rules request := by
    refine .inl fun id => ?_
    have resolved : service.rules.resolve .read request.collection id =
        ⟨.flag true, [("secret", .roles [.owner])]⟩ := by
      cases given : Access.nonEmpty? id <;> simp only [Access.RuleSet.resolve, given] <;> rfl
    rw [resolved]
    exact ⟨rfl, by simp [Access.Rule.assigns]⟩
  obtain ⟨shown, done⟩ : ∃ shown, execute service request worldOfSecrets =
      .ok (.records shown) worldOfSecrets := ⟨_, rfl⟩
  obtain ⟨name, records, named, lists, -, redacted⟩ := read_redacted rfl done rfl (.inl keeps)
  cases named
  exact ⟨keeps, shown, records, done, lists, redacted⟩

/-- Whether two notes are listed, the second one with its secret. -/
def listsSecret : Except Fault Answer → Bool
  | .ok (.records [_, ⟨("secret", .str "t") :: _, _⟩]) => true
  | _ => false

/-- Whoever adds or updates a note is answered with its secret, which nobody may read. And where a rule
marks Bob as it checks the first note, the second one is listed with its secret as well. -/
theorem denied_secrets_answered :
    let keeping : Service := ⟨rulesOfSecrets (.flag false), {}⟩
    let marking : Service :=
      ⟨rulesOfSecrets (.expression
        "data.ref && (data.by = user.marks) && (data.by.seen = true) || user.marks.seen"), {}⟩
    let reading : Request := { action := .read, collection := "notes", principal := some bobWithMarks }
    let adding : Request := { reading with action := .create, payload := [("secret", .str "u")] }
    let updating : Request := { reading with action := .update, id := some "n1", merge := true }
    (∃ shown world', execute keeping adding worldOfSecrets = .ok (.record shown) world' ∧
        world'.records.find "notes" "id-1" = .ok shown ∧
        readVerdict keeping reading world' shown = .ok ["secret"] ∧
        Entries.get? shown.fields "secret" = some (.str "u")) ∧
      (∃ shown world', execute keeping updating worldOfSecrets = .ok (.record shown) world' ∧
        world'.records.find "notes" "n1" = .ok shown ∧
        readVerdict keeping reading world' shown = .ok ["secret"] ∧
        Entries.get? shown.fields "secret" = some (.str "s")) ∧
      ∃ first second stored,
        outcome (execute marking reading) worldOfSecrets = .ok (.records [first, second]) ∧
          worldOfSecrets.records.find "notes" "n2" = .ok stored ∧
          readVerdict marking reading worldOfSecrets stored = .ok ["secret"] ∧
          Entries.get? second.fields "secret" = some (.str "t") := by
  intro keeping marking reading adding updating
  refine ⟨⟨_, _, rfl, rfl, rfl, rfl⟩, ⟨_, _, rfl, rfl, rfl, rfl⟩, ?_⟩
  have second : listsSecret (outcome (execute marking reading) worldOfSecrets) = true := by decide +kernel
  have verdict : (readVerdict marking reading worldOfSecrets
      (withId "n2" (.plain [("secret", .str "t")]))).toOption = some ["secret"] := by decide +kernel
  generalize outcome (execute marking reading) worldOfSecrets = answered at second ⊢
  unfold listsSecret at second
  split at second
  · refine ⟨_, _, _, rfl, rfl, ?_, rfl⟩
    generalize readVerdict marking reading worldOfSecrets _ = ended at verdict ⊢
    cases ended with
    | error => cases verdict
    | ok denied =>
        cases verdict
        rfl
  · cases second

end GuardedStore.Request
