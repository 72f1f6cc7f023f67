import GuardedStore.Proofs.Expression.Addresses
import GuardedStore.Proofs.Request.HiddenFields
import GuardedStore.Proofs.Request.Listing

/-! # Reading records one by one

A read of a whole collection loads all its records side by side, checks them on one heap, and shapes and
redacts them together. Where no rule assigns anything, no record notices the others: the read succeeds
exactly when each record could be read by its id, and shows of each what the read by its id shows.
-/

namespace GuardedStore.Request

open Access (Caller Lookup)
open Expression (Grows Heap Link Mirrors Slot Twin)
open Expression.Heap (Extends)
open Query (AlikeRows)
open Record (AlikeBut)

variable {service : Service} {lookup : Lookup} {request : Request} {world : World}
  {caller : Option Caller} {alone heap heap' last : Heap} {first beyond : Nat} {slot : Slot}
  {slots : List Slot} {record one other : Record} {records shaped : List Record}
  {names : List String} {denied : List (List String)} {gated : List Gated}

/-- A record among others passes the check that it passes alone. -/
theorem Stands.passes_iff (stands : Stands caller alone heap first beyond slot record) :
    (∃ next, Access.enforce service.rules lookup (readAttempt request caller slot) heap =
        .ok names next) ↔
      PassesAlone service lookup request caller alone record names := by
  cases stands with
  | @intro link slot' alone' loaded mirrors known twin _ =>
      have same : Access.AttemptTwin link (readAttempt request caller slot)
          (readAttempt request caller slot') := ⟨rfl, rfl, known, twin, .none, rfl⟩
      rw [(Access.blind_enforce service.rules lookup same).ok_iff mirrors]
      constructor
      · rintro ⟨last, checks⟩
        exact ⟨slot', alone', last, loaded, checks⟩
      · rintro ⟨_, _, last, loaded', checks⟩
        cases loaded.symm.trans loaded'
        exact ⟨last, checks⟩

section

variable (unassigning : ∀ key, (service.rules.resolve .read request.collection key).Unassigning)
include unassigning

theorem enforce_extends
    (checks : Access.enforce service.rules lookup (readAttempt request caller slot) heap =
      .ok names heap') : Extends heap heap' :=
  (Access.grows_enforce rfl unassigning lookup).of_ok checks

/-- Records in a row pass their checks exactly when each of them does alone. -/
theorem gateSlots_ok_iff (row : Row caller alone heap first slots records) :
    (∃ last, gateSlots service lookup request caller slots heap = .ok denied last) ↔
      List.Forall₂ (PassesAlone service lookup request caller alone) records denied := by
  induction records generalizing heap first slots denied with
  | nil =>
      cases row
      simp [gateSlots, pure_run, eq_comm]
  | cons record rest ih =>
      cases row with
      | cons ordered behind stands row =>
          rename_i beyond slot slots
          have later {names : List String} {next : Heap}
              (checks : Access.enforce service.rules lookup (readAttempt request caller slot) heap =
                .ok names next) : Row caller alone next beyond slots rest :=
            row.mono fun a inside _ => (enforce_extends unassigning checks).2 a inside
          simp only [gateSlots, bind_ok_iff]
          constructor
          · rintro ⟨last, names, next, checks, others, _, done, ends⟩
            cases ends
            exact .cons (stands.passes_iff.mp ⟨next, checks⟩) ((ih (later checks)).mp ⟨_, done⟩)
          · intro passed
            cases passed with
            | cons passes passed =>
                obtain ⟨next, checks⟩ := stands.passes_iff.mpr passes
                obtain ⟨last, done⟩ := (ih (later checks)).mpr passed
                exact ⟨last, _, next, checks, _, last, done, rfl⟩

theorem gateSlots_extends (done : gateSlots service lookup request caller slots heap = .ok denied last) :
    Extends heap last := by
  induction slots generalizing heap denied with
  | nil =>
      cases done
      exact .refl _
  | cons slot rest ih =>
      rw [gateSlots] at done
      obtain ⟨names, next, checks, done⟩ := bind_ok_iff.mp done
      obtain ⟨others, _, done, ends⟩ := bind_ok_iff.mp done
      cases ends
      exact (enforce_extends unassigning checks).trans (ih done)

end

theorem loadRecords_run (records : List Record) (heap : Heap) :
    ∃ slots heap', loadRecords records heap = .ok slots heap' := by
  induction records generalizing heap with
  | nil => exact ⟨[], heap, rfl⟩
  | cons record rest ih =>
      obtain ⟨slots, heap', loaded⟩ := ih (heap.loadRecord record).2
      have load : Access.loadRecord record heap = .ok _ _ := rfl
      refine ⟨(heap.loadRecord record).1 :: slots, heap', ?_⟩
      rw [loadRecords, bind_of_ok load]
      exact bind_of_ok loaded

/-- A record as it is read when it was loaded behind its caller. -/
def loadedBack (alone : Heap) (record : Record) : Record :=
  (alone.loadRecord record).2.readRecord (alone.loadRecord record).1

/-- A record among others is read as it is alone. -/
theorem Stands.readRecord_alike (stands : Stands caller alone heap first beyond slot record)
    (grown : Extends heap last) : AlikeBut [] (last.readRecord slot) (loadedBack alone record) := by
  obtain ⟨loaded, mirrors, -, twin, -⟩ := stands
  cases loaded
  have later : Mirrors (fun _ => none) _ last _ :=
    mirrors.rebase (fun linked => grown.2 _ (mirrors.inside linked).1) nofun
  exact later.readRecord_alike twin

/-- A record came out of its check, with nothing changed, as it does alone. -/
structure GatedAs (service : Service) (lookup : Lookup) (request : Request) (caller : Option Caller)
    (alone : Heap) (record : Record) (gated : Gated) : Prop where
  passes : PassesAlone service lookup request caller alone record gated.denied
  left : AlikeBut [] gated.record (loadedBack alone record)

theorem gatedAs_of_row (row : Row caller alone heap first slots records) (grown : Extends heap last)
    (passed : List.Forall₂ (PassesAlone service lookup request caller alone) records denied) :
    List.Forall₂ (GatedAs service lookup request caller alone) records
      (List.zipWith (fun slot names => ⟨last.readRecord slot, names⟩) slots denied) := by
  induction row generalizing denied with
  | nil =>
      cases passed
      exact .nil
  | cons _ _ stands _ ih =>
      cases passed with
      | cons passes passed => exact .cons ⟨passes, stands.readRecord_alike grown⟩ (ih passed)

section

variable (unassigning : ∀ key, (service.rules.resolve .read request.collection key).Unassigning)
  (known : loadCaller? request.principal .empty = .ok caller alone)
include unassigning known

theorem gatedAs_of_gateRecords
    (done : gateRecords service lookup request records .empty = .ok gated heap) :
    List.Forall₂ (GatedAs service lookup request caller alone) records gated := by
  obtain ⟨caller, alone, slots, loaded, denied, known', loads, checks, rfl⟩ := gateRecords_ok_iff.mp done
  cases known.symm.trans known'
  obtain ⟨link, m, callers⟩ := mirrors_caller known
  obtain ⟨row, -⟩ := row_of_loadRecords callers m (.refl alone) loads
  exact gatedAs_of_row row (gateSlots_extends unassigning checks)
    ((gateSlots_ok_iff unassigning row).mp ⟨_, checks⟩)

theorem gateRecords_of_passes
    (passed : List.Forall₂ (PassesAlone service lookup request caller alone) records denied) :
    ∃ gated heap, gateRecords service lookup request records .empty = .ok gated heap := by
  obtain ⟨slots, loaded, loads⟩ := loadRecords_run records alone
  obtain ⟨link, m, callers⟩ := mirrors_caller known
  obtain ⟨row, -⟩ := row_of_loadRecords callers m (.refl alone) loads
  obtain ⟨last, checks⟩ := (gateSlots_ok_iff unassigning row).mpr passed
  exact ⟨_, last, gateRecords_ok_iff.mpr ⟨caller, alone, slots, loaded, denied, known, loads, checks, rfl⟩⟩

end

/-- What a read of a record by its id shows, once the record is found. -/
def shownAlone (service : Service) (request : Request) (world : World) (record : Record) :
    Except Fault Record := do
  let gated ← outcome (gateRecords service (Access.lookupIn world.records) request [record]) .empty
  let shaped ← service.engine.shape (fetchRelated service world) request.query
    (gated.map (·.record))
  return (List.zipWith redact shaped (gated.map (·.denied))).head?.getD default

theorem PassesAlone.unique {names' : List String}
    (h : PassesAlone service lookup request caller alone record names)
    (h' : PassesAlone service lookup request caller alone record names') : names = names' := by
  obtain ⟨_, _, _, loaded, checks⟩ := h
  obtain ⟨_, _, _, loaded', checks'⟩ := h'
  cases loaded.symm.trans loaded'
  cases checks.symm.trans checks'
  rfl

theorem shape_single_alike (alike : AlikeBut [] one other) :
    ResultsAlike (fun shaped shaped' => ∃ s s', shaped = [s] ∧ shaped' = [s'] ∧ AlikeBut [] s s')
      (service.engine.shape (fetchRelated service world) request.query [one])
      (service.engine.shape (fetchRelated service world) request.query [other]) := by
  have rows : AlikeRows [] [[]] [one] [other] := .cons (List.nil_subset []) alike .nil
  have overlooks : request.query.Overlooks [] := by
    constructor <;> exact fun _ _ => List.not_mem_nil
  refine (Query.Engine.shape_alike rows overlooks fun _ _ _ _ _ _ => rfl).imp fun _ _ shaped => ?_
  cases shaped with
  | cons _ first rest =>
      cases rest
      exact ⟨_, _, rfl, rfl, first⟩

theorem exists_forall₂ {α β : Type} {P : α → β → Prop} {as : List α} (h : ∀ a ∈ as, ∃ b, P a b) :
    ∃ bs, List.Forall₂ P as bs := by
  induction as with
  | nil => exact ⟨[], .nil⟩
  | cons a rest ih =>
      obtain ⟨b, first⟩ := h a List.mem_cons_self
      obtain ⟨bs, later⟩ := ih fun a member => h a (List.mem_cons_of_mem _ member)
      exact ⟨b :: bs, .cons first later⟩

section

variable (unassigning : ∀ key, (service.rules.resolve .read request.collection key).Unassigning)
  (known : loadCaller? request.principal .empty = .ok caller alone)
include unassigning known

/-- A record that came out of its check among others is shaped as it would be alone, and loses the same
fields. -/
theorem GatedAs.shown {one : Gated}
    (h : GatedAs service (Access.lookupIn world.records) request caller alone record one) :
    ResultsAlike
      (fun shaped shown => ∃ single, shaped = [single] ∧ AlikeBut [] (redact single one.denied) shown)
      (service.engine.shape (fetchRelated service world) request.query [one.record])
      (shownAlone service request world record) := by
  obtain ⟨gated, heap, gates⟩ := gateRecords_of_passes unassigning known (.cons h.passes .nil)
  have same := gatedAs_of_gateRecords unassigning known gates
  rw [shownAlone, outcome_of_ok gates]
  cases same with
  | @cons _ other _ _ first rest =>
      cases rest
      have denied : one.denied = other.denied := h.passes.unique first.passes
      have alike := @shape_single_alike service request world _ _ (h.left.trans first.left.symm)
      change ResultsAlike _ _ (service.engine.shape (fetchRelated service world) request.query
        [other.record] >>= fun shaped =>
          .ok ((List.zipWith redact shaped [other.denied]).head?.getD default))
      generalize service.engine.shape (fetchRelated service world) request.query [one.record] = x,
        service.engine.shape (fetchRelated service world) request.query [other.record] = y at alike ⊢
      cases alike with
      | error fault => exact .error fault
      | ok both =>
          obtain ⟨single, single', rfl, rfl, looks⟩ := both
          exact .ok ⟨single, rfl, denied ▸ looks.without (List.nil_subset _)⟩

theorem shown_each {gated : List Gated}
    (gates : gateRecords service (Access.lookupIn world.records) request records .empty = .ok gated heap)
    (shapes : service.engine.shape (fetchRelated service world) request.query (gated.map (·.record)) =
      .ok shaped) :
    List.Forall₂ (fun record shown => ∃ one, shownAlone service request world record = .ok one ∧
        AlikeBut [] shown one)
      records (List.zipWith redact shaped (gated.map (·.denied))) := by
  have same := gatedAs_of_gateRecords unassigning known gates
  have each := List.forall₂_map_left_iff.mp (Query.Engine.shape_each shapes)
  clear gates shapes
  induction same generalizing shaped with
  | nil =>
      cases each
      exact .nil
  | cons here _ ih =>
      cases each with
      | cons shape rest =>
          refine .cons ?_ (ih rest)
          obtain ⟨one, shows, _, single, looks⟩ := (here.shown unassigning known).ok_left shape
          cases single
          exact ⟨one, shows, looks⟩

theorem gateRecords_of_shown
    (each : ∀ record ∈ records, ∃ shown, shownAlone service request world record = .ok shown) :
    ∃ gated heap, gateRecords service (Access.lookupIn world.records) request records .empty =
      .ok gated heap := by
  have passes : ∀ record ∈ records, ∃ names,
      PassesAlone service (Access.lookupIn world.records) request caller alone record names := by
    intro record member
    obtain ⟨shown, shows⟩ := each record member
    obtain ⟨gated, ended, -⟩ := except_bind_ok_iff.mp shows
    obtain ⟨heap, gates⟩ := outcome_ok_iff.mp ended
    cases gatedAs_of_gateRecords unassigning known gates with
    | cons first _ => exact ⟨_, first.passes⟩
  obtain ⟨denied, passed⟩ := exists_forall₂ passes
  exact gateRecords_of_passes unassigning known passed

/-- Records can be read together exactly when each of them can be read alone. -/
theorem shown_iff (nonempty : records ≠ []) :
    (∃ gated heap shaped, gateRecords service (Access.lookupIn world.records) request records .empty =
        .ok gated heap ∧
      service.engine.shape (fetchRelated service world) request.query (gated.map (·.record)) =
        .ok shaped) ↔
    ∀ record ∈ records, ∃ shown, shownAlone service request world record = .ok shown := by
  constructor
  · rintro ⟨gated, heap, shaped, gates, shapes⟩ record member
    obtain ⟨_, -, one, shows, -⟩ :=
      exists_mem_of_forall₂ (shown_each unassigning known gates shapes) member
    exact ⟨one, shows⟩
  · intro each
    obtain ⟨gated, heap, gates⟩ := gateRecords_of_shown unassigning known each
    have same := gatedAs_of_gateRecords unassigning known gates
    have shapes : ∀ one ∈ gated, ∃ shaped,
        service.engine.shape (fetchRelated service world) request.query [one.record] = .ok [shaped] := by
      intro one member
      obtain ⟨record, among, here⟩ := exists_mem_of_forall₂ same.flip member
      obtain ⟨shown, shows⟩ := each record among
      obtain ⟨_, done, single, rfl, -⟩ := (here.shown unassigning known).ok_right shows
      exact ⟨single, done⟩
    obtain ⟨shaped, shaping⟩ := exists_forall₂ shapes
    refine ⟨gated, heap, shaped, gates, ?_⟩
    have filled : gated.map (·.record) ≠ [] := by
      rw [ne_eq, List.map_eq_nil_iff, ← List.length_eq_zero_iff, ← same.length_eq,
        List.length_eq_zero_iff]
      exact nonempty
    exact (Query.Engine.shape_ok_iff filled).mpr (List.forall₂_map_left_iff.mpr shaping)

end

/-- The read of a collection with nothing given but what to select and what to load. -/
def collectionRead (name : String) (select load : Option String)
    (principal : Option Access.Principal) (override : Bool) : Request :=
  { action := .read, collection := some name, query := { select, load }, principal, override }

/-- The same read for one of the records. -/
def recordRead (name : String) (select load : Option String) (principal : Option Access.Principal)
    (override : Bool) (id : String) : Request :=
  { collectionRead name select load principal override with id := some id }

variable {name : String} {select load : Option String} {principal : Option Access.Principal}
  {override : Bool}

theorem arrange_unarranged (engine : Query.Engine) (records : List Record) (select load : Option String) :
    engine.arrange records { select, load } = .ok records := by
  have keys : Query.SortKey.ofParameter none = [] := by decide +kernel
  have sorted : Query.sortRecords records [] = .ok records := by
    simp [Query.sortRecords, Query.anyCircular, Query.sort]
  rw [Query.Engine.arrange, keys]
  exact except_bind_ok_iff.mpr ⟨records, rfl, except_bind_ok_iff.mpr ⟨records, sorted, rfl⟩⟩

theorem outcome_collectionRead (nonempty : name ≠ "") :
    outcome (execute service (collectionRead name select load principal override)) world = do
      let all ← (world.records.all name).mapError .refused
      let gated ← outcome (gateRecords service (Access.lookupIn world.records)
        (collectionRead name select load principal override) all) .empty
      let shaped ← service.engine.shape (fetchRelated service world) { select, load }
        (gated.map (·.record))
      return .records (List.zipWith redact shaped (gated.map (·.denied))) := by
  have many : read service (collectionRead name select load principal override) = _ :=
    read_many (Query.given?_of_ne nonempty) (.inr rfl)
  rw [execute]
  refine (congrArg (outcome · world) many).trans ?_
  rw [outcome_readMany]
  simp only [collectionRead, arrange_unarranged]
  rfl

theorem outcome_recordRead (nonempty : name ≠ "") (id : String) :
    outcome (execute service (recordRead name select load principal override id)) world = do
      let record ← (world.records.find name id).mapError .refused
      return .record
        (← shownAlone service (collectionRead name select load principal override) world record) := by
  have one : read service (recordRead name select load principal override id) =
      readOne service (recordRead name select load principal override id) name id := by
    simp only [read, recordRead, collectionRead, Query.given?_of_ne nonempty]
    rfl
  rw [execute]
  refine (congrArg (outcome · world) one).trans ?_
  rw [outcome_readOne]
  congr 1
  funext record
  have same : gateRecords service (Access.lookupIn world.records)
        (recordRead name select load principal override id) [record] =
      gateRecords service (Access.lookupIn world.records)
        (collectionRead name select load principal override) [record] :=
    gateRecords_congr rfl rfl rfl
  simp only [shownAlone, same, bind_assoc, pure_bind]
  rfl

theorem found_bind {α β : Type} (a : α) (f : α → Except Fault β) :
    ((Except.ok a : Except Refusal α).mapError Fault.refused >>= f) = f a := rfl

theorem recordRead_ok_iff (nonempty : name ≠ "") {id : String}
    (stored : (id, record) ∈ world.records.entries name) {answer : Answer} :
    outcome (execute service (recordRead name select load principal override id)) world = .ok answer ↔
      ∃ one, shownAlone service (collectionRead name select load principal override) world
        (withId id record) = .ok one ∧ answer = .record one := by
  have found := Store.find_of_get? (Entries.get?_of_mem (world.records.nodup_entries name) stored)
  rw [outcome_recordRead nonempty, found, found_bind]
  refine except_bind_ok_iff.trans (exists_congr fun one => and_congr_right fun _ => ?_)
  simp [pure, Except.pure, eq_comm]

theorem collectionRead_ok_iff (nonempty : name ≠ "") {all : List Record}
    (lists : world.records.all name = .ok all) {answer : Answer} :
    outcome (execute service (collectionRead name select load principal override)) world = .ok answer ↔
      ∃ gated heap shaped, (gateRecords service (Access.lookupIn world.records)
          (collectionRead name select load principal override) all .empty = .ok gated heap ∧
        service.engine.shape (fetchRelated service world) { select, load } (gated.map (·.record)) =
          .ok shaped) ∧
        answer = .records (List.zipWith redact shaped (gated.map (·.denied))) := by
  rw [outcome_collectionRead nonempty, lists, found_bind]
  refine except_bind_ok_iff.trans (exists_congr fun gated => ?_)
  rw [outcome_ok_iff, ← exists_and_right]
  refine exists_congr fun heap => ?_
  rw [except_bind_ok_iff, ← exists_and_left]
  refine exists_congr fun shaped => ?_
  simp [pure, Except.pure, eq_comm, and_assoc]

theorem lists_of_holds (holds : Entries.names (world.records.entries name) ≠ []) :
    world.records.all name =
        .ok ((world.records.entries name).map fun (id, record) => withId id record) ∧
      (world.records.entries name).map (fun (id, record) => withId id record) ≠ [] := by
  constructor
  · rw [Store.all_eq]
    cases found : world.records.collections.get? name with
    | none => simp [Store.entries, found, Table.empty, Entries.names] at holds
    | some collection => rfl
  · simpa [Entries.names] using holds

/-- Where no rule assigns anything, a collection can be read exactly when each of its records can be read
by its id; and what is listed of a record is what the read by its id shows. -/
theorem collection_read_singly (nonempty : name ≠ "")
    (holds : Entries.names (world.records.entries name) ≠ [])
    (unassigning : ∀ key, (service.rules.resolve .read (some name) key).Unassigning) :
    ((∃ answer, outcome (execute service (collectionRead name select load principal override)) world =
        .ok answer) ↔
      ∀ id ∈ Entries.names (world.records.entries name), ∃ answer,
        outcome (execute service (recordRead name select load principal override id)) world =
          .ok answer) ∧
    ∀ answer,
      outcome (execute service (collectionRead name select load principal override)) world =
        .ok answer →
      ∃ shown, answer = .records shown ∧
        List.Forall₂ (fun id listed => ∃ one,
          outcome (execute service (recordRead name select load principal override id)) world =
            .ok (.record one) ∧
          listed.fields = one.fields ∧ ∀ field, listed.isCircularAt field = one.isCircularAt field)
          (Entries.names (world.records.entries name)) shown := by
  obtain ⟨caller, alone, known, -⟩ := loadCaller?_run principal .empty
  obtain ⟨lists, filled⟩ := lists_of_holds holds
  have iff := @shown_iff service
    (collectionRead name select load principal override) world caller alone _ unassigning known filled
  constructor
  · constructor
    · rintro ⟨answer, done⟩ id listed
      obtain ⟨gated, heap, shaped, ends, -⟩ := (collectionRead_ok_iff nonempty lists).mp done
      obtain ⟨record, stored⟩ := Entries.mem_names_iff.mp listed
      obtain ⟨one, shows⟩ := iff.mp ⟨gated, heap, shaped, ends⟩ _
        (List.mem_map.mpr ⟨(id, record), stored, rfl⟩)
      exact ⟨_, (recordRead_ok_iff nonempty stored).mpr ⟨one, shows, rfl⟩⟩
    · intro each
      obtain ⟨gated, heap, shaped, ends⟩ := iff.mpr fun record member => by
        obtain ⟨⟨id, record⟩, stored, rfl⟩ := List.mem_map.mp member
        obtain ⟨answer, done⟩ := each id (Entries.mem_names_iff.mpr ⟨record, stored⟩)
        obtain ⟨one, shows, -⟩ := (recordRead_ok_iff nonempty stored).mp done
        exact ⟨one, shows⟩
      exact ⟨_, (collectionRead_ok_iff nonempty lists).mpr ⟨gated, heap, shaped, ends, rfl⟩⟩
  · intro answer done
    obtain ⟨gated, heap, shaped, ⟨gates, shapes⟩, rfl⟩ := (collectionRead_ok_iff nonempty lists).mp done
    refine ⟨_, rfl, ?_⟩
    have each := List.forall₂_map_left_iff.mp (shown_each unassigning known gates shapes)
    rw [Entries.names, List.forall₂_map_left_iff]
    have among := (List.forall₂_and_left _ _).mpr
      ⟨fun entry (stored : entry ∈ world.records.entries name) => stored, each⟩
    refine among.imp fun entry listed both => ?_
    obtain ⟨stored, one, shows, looks⟩ := both
    exact ⟨one, (recordRead_ok_iff nonempty stored).mpr ⟨one, shows, rfl⟩, looks.fields_eq,
      fun field => looks.circular field List.not_mem_nil⟩

/-- Secrets of notes are shown where the notes have a kind. -/
def showingKinds : Service := ⟨rulesOfSecrets (.expression "data.kind"), {}⟩

theorem unassigning_showingKinds (key : Option String) :
    (showingKinds.rules.resolve .read (some "notes") key).Unassigning := by
  have resolved : showingKinds.rules.resolve .read (some "notes") key =
      ⟨.flag true, [("secret", .expression "data.kind")]⟩ := by
    cases given : Access.nonEmpty? key <;> simp only [Access.RuleSet.resolve, given] <;> rfl
  rw [resolved]
  exact ⟨rfl, List.forall_mem_singleton.mpr (by decide +kernel)⟩

/-- Two notes with their tags are listed as they can be read one by one. -/
theorem notes_read_singly :
    "notes" ≠ "" ∧ Entries.names ((worldOfTags "c").records.entries "notes") = ["n1", "n2"] ∧
      (∀ key, (showingKinds.rules.resolve .read (some "notes") key).Unassigning) ∧
      ∃ shown,
        outcome (execute showingKinds (collectionRead "notes" none (some "tag=kind:tags") none false))
          (worldOfTags "c") = .ok (.records shown) ∧
        List.Forall₂ (fun id listed => ∃ one,
          outcome (execute showingKinds
            (recordRead "notes" none (some "tag=kind:tags") none false id)) (worldOfTags "c") =
              .ok (.record one) ∧
          listed.fields = one.fields ∧ ∀ field, listed.isCircularAt field = one.isCircularAt field)
          ["n1", "n2"] shown := by
  have named : "notes" ≠ "" := by decide
  have ids : Entries.names ((worldOfTags "c").records.entries "notes") = ["n1", "n2"] := rfl
  have each := @collection_read_singly showingKinds (worldOfTags "c") "notes" none
    (some "tag=kind:tags") none false named (by rw [ids]; decide) unassigning_showingKinds
  rw [ids] at each
  have done : (outcome (execute showingKinds
      (collectionRead "notes" none (some "tag=kind:tags") none false)) (worldOfTags "c")).isOk = true := by
    decide +kernel
  cases ended : outcome (execute showingKinds
      (collectionRead "notes" none (some "tag=kind:tags") none false)) (worldOfTags "c") with
  | error fault =>
      rw [ended] at done
      cases done
  | ok answer =>
      obtain ⟨shown, rfl, same⟩ := each.2 answer ended
      exact ⟨named, ids, unassigning_showingKinds, shown, rfl, same⟩

end GuardedStore.Request
