import GuardedStore.Proofs.Query.Relations
import GuardedStore.Proofs.Request.Redaction
import GuardedStore.Proofs.Value.Likeness

/-! # Lists of records

A read of a collection that answers with a list shows the arranged records of the whole collection, one
for one and in their order. The checks for reading run on all of them before anything is selected or
attached; each record loses the fields that its own check denies. With a count, the same read answers how
many records it would list.
-/

namespace GuardedStore.Request

open Access (Caller Lookup)
open Expression (Heap Slot)

variable {service : Service} {lookup : Lookup} {request : Request} {world world' : World}
  {caller : Option Caller} {heap last : Heap} {slots : List Slot} {denied : List (List String)}
  {records shown : List Record}

/-- The checks for reading loaded records, one after another: which fields each of them denies, and the
heap that they leave. -/
inductive ChecksInTurn (service : Service) (lookup : Lookup) (request : Request)
    (caller : Option Caller) : Heap → List Slot → List (List String) → Heap → Prop
  | nil {heap : Heap} : ChecksInTurn service lookup request caller heap [] [] heap
  | cons {heap next last : Heap} {slot : Slot} {slots : List Slot} {names : List String}
      {denied : List (List String)}
      (check : Access.enforce service.rules lookup (readAttempt request caller slot) heap =
        .ok names next)
      (rest : ChecksInTurn service lookup request caller next slots denied last) :
      ChecksInTurn service lookup request caller heap (slot :: slots) (names :: denied) last

/-- Records that are loaded behind the caller and then checked in turn. A rule may change what others
read, also in a record that was checked before: what is left of the records is read off the heap that all
checks together leave. -/
inductive GatedTogether (service : Service) (request : Request) (world : World)
    (records : List Record) : List Gated → Prop
  | intro {caller : Option Caller} {own loaded last : Heap} {slots : List Slot}
      {denied : List (List String)}
      (known : loadCaller? request.principal .empty = .ok caller own)
      (loads : loadRecords records own = .ok slots loaded)
      (checks : ChecksInTurn service (Access.lookupIn world.records) request caller loaded slots denied
        last) :
      GatedTogether service request world records
        (List.zipWith (fun slot names => ⟨last.readRecord slot, names⟩) slots denied)

/-- What is shown of a record that was checked: what is selected and attached for the record as it was
left, without the fields that its check denies. -/
structure ShownAs (service : Service) (request : Request) (world : World) (gated : Gated)
    (shown : Record) : Prop where
  hidden : ∀ field ∈ gated.denied, field ∉ Entries.names shown.fields
  others : ∃ shaped, service.engine.shape (fetchRelated service world) request.query
    [gated.record] = .ok [shaped] ∧ shown.AlikeBut gated.denied shaped

/-- The same read with a count. -/
def counting (request : Request) (text : String) : Request :=
  { request with query := { request.query with count := some text } }

theorem checksInTurn_of_gateSlots (done : gateSlots service lookup request caller slots heap =
      .ok denied last) : ChecksInTurn service lookup request caller heap slots denied last := by
  induction slots generalizing heap denied with
  | nil =>
      cases done
      exact .nil
  | cons slot rest ih =>
      rw [gateSlots] at done
      obtain ⟨names, next, check, done⟩ := bind_ok_iff.mp done
      obtain ⟨others, _, done, ends⟩ := bind_ok_iff.mp done
      cases ends
      exact .cons check (ih done)

theorem ChecksInTurn.length_eq (checks : ChecksInTurn service lookup request caller heap slots denied
      last) : denied.length = slots.length := by
  induction checks with
  | nil => rfl
  | cons _ _ ih => simp only [List.length_cons, ih]

theorem length_loadRecords {heap' : Heap} (done : loadRecords records heap = .ok slots heap') :
    slots.length = records.length := by
  induction records generalizing heap slots with
  | nil =>
      cases done
      rfl
  | cons record rest ih =>
      rw [loadRecords] at done
      obtain ⟨slot, next, loaded, done⟩ := bind_ok_iff.mp done
      obtain ⟨others, _, done, ends⟩ := bind_ok_iff.mp done
      cases ends
      simp only [List.length_cons, ih done]

theorem gatedTogether_of_gateRecords {gated : List Gated}
    (done : gateRecords service (Access.lookupIn world.records) request records .empty =
      .ok gated heap) :
    GatedTogether service request world records gated ∧ gated.length = records.length := by
  obtain ⟨caller, own, slots, loaded, denied, known, loads, checks, rfl⟩ := gateRecords_ok_iff.mp done
  have turns := checksInTurn_of_gateSlots checks
  refine ⟨.intro known loads turns, ?_⟩
  rw [List.length_zipWith, turns.length_eq, length_loadRecords loads, Nat.min_self]

theorem readMany_counting {name text : String} (named : text ≠ "") {all arranged : List Record}
    (found : world.records.all name = .ok all)
    (arranges : service.engine.arrange all request.query = .ok arranged) {gated : List Gated}
    (checks : checked (gateRecords service (Access.lookupIn world.records) request arranged) world =
      .ok gated world) :
    readMany service (counting request text) name world = .ok (.count gated.length) world := by
  have wanted : (counting request text).query.wantsCount = true := by
    simp [counting, Query.Parameters.wantsCount, Query.given?, named]
  have same : gateRecords service (Access.lookupIn world.records) (counting request text) arranged =
      gateRecords service (Access.lookupIn world.records) request arranged :=
    gateRecords_congr rfl rfl rfl
  exact readMany_ok_iff.mpr
    ⟨all, arranged, gated, found, arranges, same ▸ checks, rfl, .inl ⟨wanted, rfl⟩⟩

theorem many_of_records (done : read service request world = .ok (.records shown) world') :
    ∃ name, Query.given? request.collection = some name ∧
      (Query.given? request.query.filter ≠ none ∨ request.id = none) ∧
      readMany service request name world = .ok (.records shown) world' := by
  rw [read] at done
  cases named : Query.given? request.collection with
  | none =>
      simp only [named, listCollections, get_bind, (still_checked _).bind_ok_iff] at done
      obtain ⟨gated, -, ends⟩ := done
      cases ends
  | some name =>
      simp only [named] at done
      refine ⟨name, rfl, ?_⟩
      cases filter : Query.given? request.query.filter with
      | some text =>
          simp only [filter] at done
          exact ⟨.inl (Option.some_ne_none text), done⟩
      | none =>
          cases isId : request.id with
          | none =>
              simp only [filter, isId] at done
              exact ⟨.inr rfl, done⟩
          | some id =>
              simp only [filter, isId] at done
              obtain ⟨record, gated, shaped, -, -, -, single⟩ := answer_of_readOne done
              cases single

theorem read_many {name : String} (named : Query.given? request.collection = some name)
    (many : Query.given? request.query.filter ≠ none ∨ request.id = none) :
    read service request = readMany service request name := by
  simp only [read, named]
  cases filter : Query.given? request.query.filter with
  | some text => rfl
  | none =>
      rcases many with given | unnamed
      · exact absurd filter given
      · simp only [unnamed]

theorem shownAs_of_shape {gated : Gated} {shaped : Record}
    (shapes : service.engine.shape (fetchRelated service world) request.query [gated.record] =
      .ok [shaped]) :
    ShownAs service request world gated (redact shaped gated.denied) where
  hidden _ listed := notMem_redact listed shaped
  others := by
    refine ⟨shaped, shapes, ?_, fun field seen => ?_⟩
    · simp [redact, Record.without, List.filter_filter]
    · rw [redact, Record.isCircularAt_without, if_neg seen]

theorem shownAs_redact {gated : List Gated} {shaped : List Record}
    (shapes : service.engine.shape (fetchRelated service world) request.query
      (gated.map (·.record)) = .ok shaped) :
    List.Forall₂ (ShownAs service request world) gated
      (List.zipWith redact shaped (gated.map (·.denied))) := by
  have each := List.forall₂_map_left_iff.mp (Query.Engine.shape_each shapes)
  clear shapes
  induction each with
  | nil => exact .nil
  | cons first _ ih => exact .cons (shownAs_of_shape first) ih

/-- A read that answers with a list shows every arranged record of the collection, redacted by its own
check; and it lists as many as it counts. -/
theorem read_lists (action : request.action = .read)
    (done : execute service request world = .ok (.records shown) world') :
    ∃ name all arranged gated, Query.given? request.collection = some name ∧
      world.records.all name = .ok all ∧
      service.engine.arrange all request.query = .ok arranged ∧
      GatedTogether service request world arranged gated ∧
      shown.length = arranged.length ∧
      List.Forall₂ (ShownAs service request world) gated shown ∧
      ∀ text, text ≠ "" →
        execute service (counting request text) world = .ok (.count shown.length) world := by
  rw [execute, action] at done
  obtain ⟨name, named, many, done⟩ := many_of_records done
  rw [readMany, get_bind] at done
  obtain ⟨all, found, done⟩ := Serve.orRefuse_bind_ok.mp done
  obtain ⟨arranged, arranges, done⟩ := Serve.ofExcept_bind_ok.mp done
  obtain ⟨gated, checks, done⟩ := (still_checked _).bind_ok_iff.mp done
  obtain ⟨⟨heap, gating⟩, -⟩ := checked_ok_iff.mp checks
  obtain ⟨together, same⟩ := gatedTogether_of_gateRecords gating
  obtain ⟨shaped, shapes, ends⟩ : ∃ shaped, service.engine.shape (fetchRelated service world)
      request.query (gated.map (·.record)) = .ok shaped ∧
      shown = List.zipWith redact shaped (gated.map (·.denied)) := by
    cases wanted : request.query.wantsCount with
    | true =>
        rw [wanted, if_pos rfl] at done
        cases done
    | false =>
        rw [wanted, if_neg Bool.false_ne_true] at done
        obtain ⟨shaped, shapes, ends⟩ := Serve.ofExcept_bind_ok.mp done
        simp only [pure_run, EStateM.Result.ok.injEq, Answer.records.injEq] at ends
        exact ⟨shaped, shapes, ends.1.symm⟩
  have shows : List.Forall₂ (ShownAs service request world) gated shown := ends ▸ shownAs_redact shapes
  refine ⟨name, all, arranged, gated, named, found, arranges, together, ?_, shows, ?_⟩
  · rw [← shows.length_eq, same]
  · intro text given
    have sameRead : execute service (counting request text) =
        read service (counting request text) := by
      rw [execute]
      simp only [counting, action]
    have sameMany : read service (counting request text) =
        readMany service (counting request text) name := read_many named many
    rw [sameRead, sameMany, ← shows.length_eq]
    exact readMany_counting given found arranges checks

/-- Whether an answer lists two records. -/
def listsTwo : Except Fault Answer → Bool
  | .ok (.records [_, _]) => true
  | _ => false

/-- Bob lists the last two notes, of which he may not see the secrets. -/
theorem read_lists_notes_for_bob :
    let service : Service := ⟨rulesOfSecrets (.roles [.owner]), {}⟩
    let request : Request :=
      { action := .read, collection := "notes", principal := some bobWithMarks
        query := { offset := some "-2", select := some "secret,_id" } }
    request.action = .read ∧
      ∃ shown name all arranged gated, execute service request worldOfSecrets =
          .ok (.records shown) worldOfSecrets ∧
        Query.given? request.collection = some name ∧
        worldOfSecrets.records.all name = .ok all ∧
        service.engine.arrange all request.query = .ok arranged ∧
        GatedTogether service request worldOfSecrets arranged gated ∧ arranged.length = 2 ∧
        List.Forall₂ (ShownAs service request worldOfSecrets) gated shown ∧
        execute service (counting request "yes") worldOfSecrets = .ok (.count 2) worldOfSecrets := by
  intro service request
  have two : listsTwo (outcome (execute service request) worldOfSecrets) = true := by decide +kernel
  cases done : execute service request worldOfSecrets with
  | error fault world =>
      rw [outcome_of_error done] at two
      cases two
  | ok answer world =>
      rw [outcome_of_ok done] at two
      unfold listsTwo at two
      split at two
      · rename_i first second same
        cases same
        cases (still_read service request).of_ok done
        obtain ⟨name, all, arranged, gated, named, found, arranges, together, same, shows, counts⟩ :=
          read_lists rfl done
        exact ⟨rfl, _, name, all, arranged, gated, rfl, named, found, arranges, together, same.symm,
          shows, counts "yes" (by decide)⟩
      · cases two

end GuardedStore.Request
