import GuardedStore.Proofs.Request.Disguise
import GuardedStore.Proofs.Request.Redaction
import GuardedStore.Proofs.Request.Unshared

/-! # Fields that stay hidden

A field that nobody may read is taken out of records at the end of a read. Until then it takes part in
filters, sorting, repetitions and relations, so that it stays hidden only from queries that do not look at
it and do not attach its record to others.
-/

namespace GuardedStore.Request

open Access (Lookup)
open Expression.Heap (Settled)
open Query (AlikeRows MayRefer Relation)
open Record (AlikeBut)

/-- Two answers that show the same. -/
structure Answer.Alike (one other : Answer) : Prop where
  value : one.toValue = other.toValue
  circular : one.isCircular = other.isCircular

/-- Two worlds whose records are the same but for one field of one record. -/
def OneFieldApart (name id field : String) (one other : World) : Prop :=
  ∃ record record', one.records.stored name id = .ok record ∧ AlikeBut [field] record record' ∧
    other = { one with records := one.records.put name id record' }

variable {rules : Access.RuleSet} {collection : Option String} {service : Service} {request : Request}
  {one other : World} {name id field : String} {overlooked : List String}

theorem disguised_self {record : Record} (settled : Settled (withId id record)) :
    Disguised rules collection overlooked (withId id record) (withId id record) where
  settled := ⟨settled, settled⟩
  alike := ⟨id, [], Store.value_withId id record, Store.value_withId id record,
    List.nil_subset overlooked, .refl [] _, nofun⟩

theorem disguised_withId {record record' : Record} (alike : AlikeBut [field] record record')
    (settled : Settled (withId id record)) (settled' : Settled (withId id record'))
    (unread : (field, .flag false) ∈ (rules.resolve .read collection (some id)).fields) :
    Disguised rules collection [field] (withId id record) (withId id record') where
  settled := ⟨settled, settled'⟩
  alike := ⟨id, [field], Store.value_withId id record, Store.value_withId id record', List.Subset.refl _,
    alike.set idField (.str id), List.forall_mem_singleton.mpr unread⟩

theorem forall₂_set {α : Type} {R : String × α → String × α → Prop} {entries : Entries α} {old value : α}
    (same : ∀ entry ∈ entries, R entry entry) (found : Entries.get? entries id = some old)
    (new : R (id, old) (id, value)) : List.Forall₂ R entries (Entries.set entries id value) := by
  induction entries with
  | nil => cases found
  | cons entry rest ih =>
      obtain ⟨key, first⟩ := entry
      have later : ∀ entry ∈ rest, R entry entry :=
        fun entry member => same entry (List.mem_cons_of_mem _ member)
      rw [Entries.get?_cons] at found
      by_cases here : key = id
      · subst here
        rw [if_pos rfl, Option.some.injEq] at found
        subst found
        rw [Entries.set, if_pos rfl]
        exact .cons new (List.forall₂_same.mpr later)
      · rw [if_neg here] at found
        rw [Entries.set, if_neg here]
        exact .cons (same _ List.mem_cons_self) (ih later found)

section

variable (apart : OneFieldApart name id field one other) (settled : SettledIn one.records name)
  (settled' : SettledIn other.records name)
  (unread : (field, .flag false) ∈ (rules.resolve .read collection (some id)).fields)
include apart settled settled' unread

theorem find_alike (key : String) :
    ResultsAlike (Disguised rules collection [field]) (one.records.find name key)
      (other.records.find name key) := by
  obtain ⟨record, record', stored, alike, rfl⟩ := apart
  have found := Store.find_of_get? (Store.stored_ok_iff.mp stored)
  have found' : (one.records.put name id record').find name id = .ok (withId id record') :=
    Store.find_of_get? (by rw [Store.get?_put, if_pos ⟨rfl, rfl⟩])
  by_cases same : id = key
  · subst same
    rw [found, found']
    exact .ok (disguised_withId alike (settled _ _ found) (settled' _ _ found') unread)
  · rw [Store.find_put_of_ne stored record' fun h => same h.2]
    cases finds : one.records.find name key with
    | error refusal => exact .error refusal
    | ok other =>
        obtain ⟨other, -, rfl⟩ := Store.get?_of_find finds
        exact .ok (disguised_self (settled _ _ finds))

theorem all_alike :
    ResultsAlike (List.Forall₂ (Disguised rules collection [field])) (one.records.all name)
      (other.records.all name) := by
  obtain ⟨record, record', stored, alike, rfl⟩ := apart
  have found := Store.stored_ok_iff.mp stored
  have found' : (one.records.put name id record').find name id = .ok (withId id record') :=
    Store.find_of_get? (by rw [Store.get?_put, if_pos ⟨rfl, rfl⟩])
  obtain ⟨_, present⟩ := Store.exists_of_stored stored
  rw [Store.all_eq, Store.all_eq, Store.collections_put, if_pos rfl, present, Store.entries_put,
    if_pos rfl]
  refine .ok ?_
  rw [List.forall₂_map_left_iff, List.forall₂_map_right_iff]
  refine forall₂_set (fun entry member => ?_) found ?_
  · have finds : one.records.find name entry.1 = .ok (withId entry.1 entry.2) :=
      Store.find_of_get? (Entries.get?_of_mem (Store.nodup_entries _ _) member)
    exact disguised_self (settled _ _ finds)
  · exact disguised_withId alike (settled _ _ (Store.find_of_get? found)) (settled' _ _ found') unread

end

theorem mem_all_of_find {store : Store} {key : String} {record : Record}
    (h : store.find name key = .ok record) : ∃ all, store.all name = .ok all ∧ record ∈ all := by
  obtain ⟨stored, held, rfl⟩ := Store.get?_of_find h
  obtain ⟨collection, found⟩ := Store.exists_of_stored (Store.stored_ok_iff.mpr held)
  rw [Store.all_eq, found]
  exact ⟨_, rfl, List.mem_map.mpr ⟨(key, stored), Entries.mem_of_get? held, rfl⟩⟩

/-- No relation of a request leads from a record of a collection to the one under an id. The collection of
users is of no account, since relations find users elsewhere. -/
def PassesBy (service : Service) (request : Request) (store : Store) (name id : String) : Prop :=
  name = service.engine.identityCollection ∨
    ∀ earlier relation later, request.query.relations = earlier ++ relation :: later →
      relation.collection = name → ∀ all reference, store.all name = .ok all →
        MayRefer earlier relation all reference → reference.plainText ≠ id

theorem related_eq (apart : OneFieldApart name id field one other) {relation : Relation} {reference : Value}
    (elsewhere : relation.collection = name → name = service.engine.identityCollection ∨
      reference.plainText ≠ id) :
    service.engine.related (fetchRelated service one) relation reference =
      service.engine.related (fetchRelated service other) relation reference := by
  obtain ⟨record, record', stored, -, rfl⟩ := apart
  have fetched : fetchRelated service one relation.collection reference.plainText =
      fetchRelated service { one with records := one.records.put name id record' } relation.collection
        reference.plainText := by
    simp only [fetchRelated]
    by_cases users : relation.collection = service.engine.identityCollection
    · rw [if_pos users, if_pos users]
    · rw [if_neg users, if_neg users, Store.find_put_of_ne stored]
      rintro ⟨same, here⟩
      rcases elsewhere same.symm with identities | away
      · exact users (same.symm.trans identities)
      · exact away here.symm
  simp only [Query.Engine.related, fetched]

/-- Rows that differ in denied fields show the same without these. -/
theorem redact_alike {denied : List (List String)} {shaped shaped' : List Record}
    (rows : AlikeRows overlooked (denied.map (overlooked ∩ ·)) shaped shaped') :
    List.Forall₂ (AlikeBut []) (List.zipWith redact shaped denied)
      (List.zipWith redact shaped' denied) := by
  induction denied generalizing shaped shaped' with
  | nil =>
      rw [List.zipWith_nil_right, List.zipWith_nil_right]
      exact .nil
  | cons names rest ih =>
      cases rows with
      | cons _ alike rows => exact .cons (alike.without List.inter_subset_right) (ih rows)

theorem alike_record {shown shown' : List Record} (h : List.Forall₂ (AlikeBut []) shown shown') :
    Answer.Alike (.record (shown.head?.getD default)) (.record (shown'.head?.getD default)) := by
  have first : AlikeBut [] (shown.head?.getD default) (shown'.head?.getD default) := by
    cases h with
    | nil => exact .refl [] default
    | cons first _ => exact first
  exact ⟨congrArg Value.object first.fields_eq, first.isCircular_eq⟩

theorem alike_records {shown shown' : List Record} (h : List.Forall₂ (AlikeBut []) shown shown') :
    Answer.Alike (.records shown) (.records shown') where
  value := by
    simp only [Answer.toValue, Value.list.injEq]
    induction h with
    | nil => rfl
    | cons first _ ih => rw [List.map_cons, List.map_cons, first.fields_eq, ih]
  circular := by
    simp only [Answer.isCircular]
    induction h with
    | nil => rfl
    | cons first _ ih => rw [List.any_cons, List.any_cons, first.isCircular_eq, ih]

theorem shape_alike (apart : OneFieldApart name id field one other)
    (overlooks : request.query.Overlooks overlooked)
    (elsewhere : PassesBy service request one.records name id) {all listed : List Record}
    (listing : one.records.all name = .ok all) (among : listed ⊆ all) {gated gated' : List Gated}
    (alike : GatedAlike overlooked listed gated gated') :
    ResultsAlike (fun shaped shaped' => List.Forall₂ (AlikeBut [])
        (List.zipWith redact shaped (gated.map (·.denied)))
        (List.zipWith redact shaped' (gated'.map (·.denied))))
      (service.engine.shape (fetchRelated service one) request.query (gated.map (·.record)))
      (service.engine.shape (fetchRelated service other) request.query (gated'.map (·.record))) := by
  refine (Query.Engine.shape_alike alike.rows overlooks ?_).imp fun shaped shaped' rows => ?_
  · intro earlier relation later split reference refers
    refine related_eq apart fun here => elsewhere.imp_right fun away => ?_
    refine away earlier relation later split here all reference listing ?_
    refine refers.mono fun record shown => ?_
    obtain ⟨before, went, same⟩ := exists_mem_of_forall₂ alike.unchanged shown
    exact ⟨before, among went, .inl (same.value List.not_mem_nil)⟩
  · rw [← alike.denied]
    exact redact_alike rows

theorem ownerField_notMem (own : field ∉ systemFields) : ownerField ∉ [field] := by
  rw [List.mem_singleton]
  rintro rfl
  exact own (by decide)

theorem outcome_ofExcept {α : Type} (result : Except Fault α) (world : World) :
    outcome (Serve.ofExcept result) world = result := by
  cases result <;> rfl

theorem outcome_checked {α : Type} (check : Access.Guarded α) (world : World) :
    outcome (checked check) world = outcome check .empty := by
  simp only [outcome, checked, EStateM.run]
  cases check .empty <;> rfl

/-- How a read of records ends: what is listed is checked, shaped and redacted. -/
theorem outcome_readMany (service : Service) (request : Request) (name : String) (world : World) :
    outcome (readMany service request name) world = do
      let all ← (world.records.all name).mapError .refused
      let arranged ← service.engine.arrange all request.query
      let gated ← outcome (gateRecords service (Access.lookupIn world.records) request arranged) .empty
      if request.query.wantsCount then return .count gated.length
      let shaped ← service.engine.shape (fetchRelated service world) request.query
        (gated.map (·.record))
      return .records (List.zipWith redact shaped (gated.map (·.denied))) := by
  rw [readMany]
  refine ((Serve.still_orRefuse _).outcome_bind _ world).trans ?_
  rw [Serve.orRefuse, outcome_ofExcept]
  congr 1
  funext all
  rw [(Serve.still_ofExcept _).outcome_bind, outcome_ofExcept]
  congr 1
  funext arranged
  rw [(still_checked _).outcome_bind, outcome_checked]
  congr 1
  funext gated
  split
  · rfl
  · rw [(Serve.still_ofExcept _).outcome_bind, outcome_ofExcept]
    rfl

theorem outcome_readOne (service : Service) (request : Request) (name key : String) (world : World) :
    outcome (readOne service request name key) world = do
      let record ← (world.records.find name key).mapError .refused
      let gated ← outcome (gateRecords service (Access.lookupIn world.records) request [record]) .empty
      let shaped ← service.engine.shape (fetchRelated service world) request.query
        (gated.map (·.record))
      return .record ((List.zipWith redact shaped (gated.map (·.denied))).head?.getD default) := by
  rw [readOne]
  refine ((Serve.still_orRefuse _).outcome_bind _ world).trans ?_
  rw [Serve.orRefuse, outcome_ofExcept]
  congr 1
  funext record
  rw [(still_checked _).outcome_bind, outcome_checked]
  congr 1
  funext gated
  rw [(Serve.still_ofExcept _).outcome_bind, outcome_ofExcept]
  rfl

section

variable (apart : OneFieldApart name id field one other) (settled : SettledIn one.records name)
  (settled' : SettledIn other.records name)
  (plain : ∀ key, (service.rules.resolve .read request.collection key).Expressionless)
  (unread : (field, .flag false) ∈ (service.rules.resolve .read request.collection (some id)).fields)
  (own : field ∉ systemFields) (overlooks : request.query.Overlooks [field])
  (elsewhere : PassesBy service request one.records name id)
include apart settled settled' plain unread own overlooks elsewhere

theorem readMany_alike :
    ResultsAlike Answer.Alike (outcome (readMany service request name) one)
      (outcome (readMany service request name) other) := by
  rw [outcome_readMany, outcome_readMany]
  refine ((all_alike apart settled settled' unread).known.mapError Fault.refused).bind
    fun all all' ended => ?_
  obtain ⟨listing, same⟩ := ended
  -- That the records are listed goes along: what they refer to decides what is attached.
  have same : List.Forall₂ (fun record record' => record ∈ all ∧ Disguised service.rules
      request.collection [field] record record') all all' :=
    (List.forall₂_and_left all all').mpr ⟨fun _ listed => listed, same⟩
  refine (service.engine.arrange_alike (fun h => h.2.alikeBut) same overlooks).bind
    fun arranged arranged' same => ?_
  obtain ⟨among, same⟩ := (List.forall₂_and_left arranged arranged').mp same
  refine (gateRecords_alike plain (ownerField_notMem own) (Access.lookupIn one.records)
    (Access.lookupIn other.records) same).bind fun gated gated' alike => ?_
  split
  · have count : gated.length = gated'.length := by
      simpa using congrArg List.length alike.denied
    rw [count]
    exact .ok ⟨rfl, rfl⟩
  · exact (shape_alike apart overlooks elsewhere listing among alike).bind
      fun shaped shaped' shown => .ok (alike_records shown)

theorem readOne_alike (key : String) :
    ResultsAlike Answer.Alike (outcome (readOne service request name key) one)
      (outcome (readOne service request name key) other) := by
  rw [outcome_readOne, outcome_readOne]
  refine ((find_alike apart settled settled' unread key).known.mapError Fault.refused).bind
    fun record record' ended => ?_
  obtain ⟨found, same⟩ := ended
  obtain ⟨all, listing, among⟩ := mem_all_of_find found
  refine (gateRecords_alike plain (ownerField_notMem own) (Access.lookupIn one.records)
    (Access.lookupIn other.records) (.cons same .nil)).bind fun gated gated' alike => ?_
  have among : [record] ⊆ all := List.forall_mem_singleton.mpr among
  exact (shape_alike apart overlooks elsewhere listing among alike).bind
    fun shaped shaped' shown => .ok (alike_record shown)

end

/-- What nobody may read of a record is hidden from reads that neither look at it nor attach the record
to others: whatever it is, they end alike. -/
theorem hidden_field_unseen (apart : OneFieldApart name id field one other)
    (settled : SettledIn one.records name) (settled' : SettledIn other.records name)
    (action : request.action = .read) (named : Query.given? request.collection = some name)
    (plain : ∀ key, (service.rules.resolve .read request.collection key).Expressionless)
    (unread : (field, .flag false) ∈ (service.rules.resolve .read request.collection (some id)).fields)
    (own : field ∉ systemFields) (overlooks : request.query.Overlooks [field])
    (elsewhere : PassesBy service request one.records name id) :
    ResultsAlike Answer.Alike (outcome (execute service request) one)
      (outcome (execute service request) other) := by
  rw [execute, action]
  simp only [read, named]
  split
  · exact readOne_alike apart settled settled' plain unread own overlooks elsewhere _
  · exact readMany_alike apart settled settled' plain unread own overlooks elsewhere

/-- Notes of which the second one refers to the first one, and tags. The first note has a secret. -/
def worldOfTags (secret : String) : World where
  records := .ofSnapshot
    [("notes",
        [("n1", [("secret", .str secret)]),
          ("n2", [("ref", .str "n1"), ("kind", .str "b"), ("secret", .str "b")])]),
      ("tags", [("b", [("text", .str "red")])])]
  accounts := .empty
  supply := .numbered []

def readNotes (query : Query.Parameters) : Request where
  action := .read
  collection := "notes"
  query

/-- Nobody may read the secrets of notes. -/
def keepingSecrets : Service := ⟨rulesOfSecrets (.flag false), {}⟩

theorem resolve_keepingSecrets (key : Option String) :
    keepingSecrets.rules.resolve .read (some "notes") key = ⟨.flag true, [("secret", .flag false)]⟩ := by
  cases given : Access.nonEmpty? key <;> simp only [Access.RuleSet.resolve, given] <;> rfl

theorem expressionless_keepingSecrets (key : Option String) :
    (keepingSecrets.rules.resolve .read (some "notes") key).Expressionless := by
  rw [resolve_keepingSecrets]
  exact ⟨rfl, by decide⟩

theorem unread_keepingSecrets (key : Option String) :
    ("secret", .flag false) ∈ (keepingSecrets.rules.resolve .read (some "notes") key).fields := by
  rw [resolve_keepingSecrets]
  exact List.mem_cons_self

theorem oneFieldApart_worldOfTags (secret secret' : String) :
    OneFieldApart "notes" "n1" "secret" (worldOfTags secret) (worldOfTags secret') :=
  ⟨.plain [("secret", .str secret)], .plain [("secret", .str secret')], rfl, ⟨rfl, fun _ _ => rfl⟩, rfl⟩

def firstNote (secret : String) : Record :=
  withId "n1" (.plain [("secret", .str secret)])

def secondNote : Record :=
  withId "n2" (.plain [("ref", .str "n1"), ("kind", .str "b"), ("secret", .str "b")])

/-- Asks for the notes that refer to the first one, with their tags and mates. -/
def readMates : Request := readNotes
  { filter := "ref=\"n1\"", sort := "ref", distinct := "ref", load := "tag=kind:tags,mate=next:notes" }

theorem relations_readMates :
    readMates.query.relations = [⟨"tag", "kind", "tags"⟩, ⟨"mate", "next", "notes"⟩] := by
  decide +kernel

theorem passesBy_readMates (secret : String) :
    PassesBy keepingSecrets readMates (worldOfTags secret).records "notes" "n1" := by
  rw [PassesBy, relations_readMates]
  refine .inr fun earlier relation later split here all reference listing refers => ?_
  have listed : [firstNote secret, secondNote] = all := Except.ok.inj listing
  obtain ⟨rfl, rfl⟩ : earlier = [⟨"tag", "kind", "tags"⟩] ∧ relation = ⟨"mate", "next", "notes"⟩ := by
    rcases earlier with _ | ⟨first, _ | ⟨second, others⟩⟩
    · cases split
      exact absurd here (by decide)
    · cases split
      exact ⟨rfl, rfl⟩
    · simp at split
  cases refers with
  | held among holds known =>
      have nowhere : ∀ note ∈ [firstNote secret, secondNote], note.value "next" = .null :=
        List.forall_mem_cons.mpr ⟨rfl, List.forall_mem_singleton.mpr rfl⟩
      exact absurd (holds.symm.trans (nowhere _ (listed ▸ among))) known
  | attached loaded field =>
      cases List.mem_singleton.mp loaded
      exact absurd field (by decide)

/-- Whoever reads the notes that refer to the first one sees the same whatever its secret is. -/
theorem hidden_field_unseen_of_first_note :
    OneFieldApart "notes" "n1" "secret" (worldOfTags "c") (worldOfTags "b") ∧
      (∀ key, (keepingSecrets.rules.resolve .read readMates.collection key).Expressionless) ∧
      readMates.query.Overlooks ["secret"] ∧
      PassesBy keepingSecrets readMates (worldOfTags "c").records "notes" "n1" ∧
      ResultsAlike Answer.Alike (outcome (execute keepingSecrets readMates) (worldOfTags "c"))
        (outcome (execute keepingSecrets readMates) (worldOfTags "b")) := by
  have apart := oneFieldApart_worldOfTags "c" "b"
  have overlooks : readMates.query.Overlooks ["secret"] := by
    constructor <;> decide +kernel
  have settled (secret : String) : SettledIn (worldOfTags secret).records "notes" :=
    settledIn_of_plain (isPlain_ofSnapshot _) "notes"
  have elsewhere := passesBy_readMates "c"
  refine ⟨apart, expressionless_keepingSecrets, overlooks, elsewhere, ?_⟩
  exact hidden_field_unseen apart (settled "c") (settled "b") rfl rfl expressionless_keepingSecrets
    (unread_keepingSecrets _) (by decide) overlooks elsewhere

theorem Answer.Alike.passes_eq {result result' : Except Fault Answer}
    (alike : ResultsAlike Answer.Alike result result') (test : Value → Bool) :
    result.toOption.any (test ·.toValue) = result'.toOption.any (test ·.toValue) := by
  cases alike with
  | ok same => simp [Except.toOption, same.value]
  | error => rfl

def isSingle : Value → Bool
  | .list [_] => true
  | _ => false

def listsReferenceFirst : Value → Bool
  | .list (.object (("ref", _) :: _) :: _) => true
  | _ => false

/-- Whether the second note comes with the first one and its secret. -/
def attachesSecret : Value → Bool
  | .list [_, .object [_, _, _, ("it", .object (("secret", .str "c") :: _))]] => true
  | _ => false

theorem sortByKey_pair (key : Query.SortKey) (one other : Record) :
    Query.sortByKey [one, other] key = if key.mayPrecede one other then [one, other] else [other, one] := by
  simp [Query.sortByKey, List.mergeSort, List.cons_merge_cons]

theorem arrange_notes (secret : String) :
    keepingSecrets.engine.arrange [firstNote secret, secondNote] { sort := "secret" } =
      .ok (if Query.SortKey.mayPrecede ⟨"secret", false⟩ (firstNote secret) secondNote then
        [firstNote secret, secondNote] else [secondNote, firstNote secret]) := by
  have key : Query.SortKey.ofParameter (some "secret") = [⟨"secret", false⟩] := by decide +kernel
  have straight : Query.anyCircular ["secret"] [firstNote secret, secondNote] = false := rfl
  have kept : Query.filterRecords none [firstNote secret, secondNote] =
      .ok [firstNote secret, secondNote] := rfl
  have sorted : Query.sortRecords [firstNote secret, secondNote] [⟨"secret", false⟩] =
      .ok (Query.sortByKey [firstNote secret, secondNote] ⟨"secret", false⟩) := by
    rw [Query.sortRecords, List.map_singleton, straight, Bool.and_false]
    rfl
  rw [← sortByKey_pair, Query.Engine.arrange, key]
  simp only [kept, bind, Except.bind, sorted]
  rfl

theorem sorted_notes_tell :
    ¬ResultsAlike Answer.Alike
      (outcome (execute keepingSecrets (readNotes { sort := "secret" })) (worldOfTags "c"))
      (outcome (execute keepingSecrets (readNotes { sort := "secret" })) (worldOfTags "b")) := by
  intro alike
  have shown (secret : String) :
      outcome (execute keepingSecrets (readNotes { sort := "secret" })) (worldOfTags secret) =
        outcome (readMany keepingSecrets (readNotes { sort := "secret" }) "notes") (worldOfTags secret) :=
    rfl
  have all (secret : String) : ((worldOfTags secret).records.all "notes").mapError Fault.refused =
      .ok [firstNote secret, secondNote] := rfl
  have arranged (secret : String) : keepingSecrets.engine.arrange [firstNote secret, secondNote]
      (readNotes { sort := "secret" }).query = _ := arrange_notes secret
  rw [shown, shown, outcome_readMany, outcome_readMany, all, all] at alike
  simp only [bind, Except.bind, arranged] at alike
  have same := Answer.Alike.passes_eq alike listsReferenceFirst
  revert same
  decide +kernel

/-- A filter, a sort key, a distinct field or a relation tells of the secret of the first note, which
nobody may read; and so does the note itself when it is attached to the second one. -/
theorem hidden_secret_betrayed :
    OneFieldApart "notes" "n1" "secret" (worldOfTags "c") (worldOfTags "b") ∧
      (∀ key, (keepingSecrets.rules.resolve .read (some "notes") key).Expressionless) ∧
      ("secret", .flag false) ∈ (keepingSecrets.rules.resolve .read (some "notes") (some "n1")).fields ∧
      "secret" ∉ systemFields ∧
      ∀ query ∈ ([{ filter := "secret=\"b\"" }, { sort := "secret" }, { distinct := "secret" },
          { load := "tag=secret:tags" }, { load := "it=ref:notes" }] : List Query.Parameters),
        ¬ResultsAlike Answer.Alike (outcome (execute keepingSecrets (readNotes query)) (worldOfTags "c"))
          (outcome (execute keepingSecrets (readNotes query)) (worldOfTags "b")) := by
  refine ⟨oneFieldApart_worldOfTags "c" "b", expressionless_keepingSecrets, unread_keepingSecrets _,
    by decide, ?_⟩
  simp only [List.forall_mem_cons]
  refine ⟨fun filtered => ?_, sorted_notes_tell, fun distinct => ?_, fun tagged => ?_,
    fun attached => ?_, nofun⟩
  · have same := Answer.Alike.passes_eq filtered isSingle
    revert same
    decide +kernel
  · have same := Answer.Alike.passes_eq distinct isSingle
    revert same
    decide +kernel
  · have same := Answer.Alike.passes_eq tagged fun _ => true
    revert same
    decide +kernel
  · have same := Answer.Alike.passes_eq attached attachesSecret
    revert same
    decide +kernel

end GuardedStore.Request
