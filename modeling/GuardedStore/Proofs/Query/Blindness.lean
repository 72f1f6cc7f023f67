import GuardedStore.Proofs.Agreement
import GuardedStore.Proofs.Query.Relations
import GuardedStore.Proofs.Value.Likeness
import GuardedStore.Query.Arrangement

/-! # Fields that queries do not look at

Where no clause, sort key or distinct field names some fields, records that look alike but for these are
arranged in the same way; and where no relation is loaded by them, the same records are attached.
-/

namespace GuardedStore.Query

open Record (AlikeBut)

/-- The clauses of a filter. -/
def Filter.clauses : Filter → List Clause
  | .all clauses => clauses
  | .any clauses => clauses

/-- The clauses that a query filters by. -/
def Parameters.clauses (parameters : Parameters) : List Clause :=
  match (given? parameters.filter).map Filter.ofText with
  | some (.ok filter) => filter.clauses
  | _ => []

/-- The fields by which a query leaves out repetitions. -/
def Parameters.distinctFields (parameters : Parameters) : List String :=
  match given? parameters.distinct with
  | some text => listItems (some text)
  | none => []

/-- The relations that a query loads. -/
def Parameters.relations (parameters : Parameters) : List Relation :=
  match (given? parameters.load).map (Relation.ofParameter ∘ some) with
  | some (.ok relations) => relations
  | _ => []

/-- A query that does not decide by some fields. -/
structure Parameters.Overlooks (hidden : List String) (parameters : Parameters) : Prop where
  filter : ∀ clause ∈ parameters.clauses, clause.field ∉ hidden
  sort : ∀ key ∈ SortKey.ofParameter parameters.sort, key.field ∉ hidden
  distinct : ∀ field ∈ parameters.distinctFields, field ∉ hidden
  load : ∀ relation ∈ parameters.relations, relation.idField ∉ hidden

variable {hidden : List String} {one other : Record} {records others : List Record}
  {Like : Record → Record → Prop}

theorem Clause.holds_alike {clause : Clause} (h : AlikeBut hidden one other)
    (seen : clause.field ∉ hidden) : clause.holds one = clause.holds other := by
  simp only [Clause.holds, h.value seen, h.circular _ seen, h.has seen]

theorem Filter.keeps_alike {filter : Filter} (h : AlikeBut hidden one other)
    (seen : ∀ clause ∈ filter.clauses, clause.field ∉ hidden) :
    filter.keeps one = filter.keeps other := by
  cases filter with
  | all clauses =>
      simp only [Filter.keeps]
      induction clauses with
      | nil => rfl
      | cons clause rest ih =>
          simp only [Clause.allHold, Clause.holds_alike h (seen clause List.mem_cons_self),
            ih fun clause later => seen clause (List.mem_cons_of_mem _ later)]
  | any clauses =>
      simp only [Filter.keeps]
      induction clauses with
      | nil => rfl
      | cons clause rest ih =>
          simp only [Clause.someHolds, Clause.holds_alike h (seen clause List.mem_cons_self),
            ih fun clause later => seen clause (List.mem_cons_of_mem _ later)]

section Lists

variable (alike : ∀ {one other}, Like one other → AlikeBut hidden one other)
  (h : List.Forall₂ Like records others)
include alike h

theorem Filter.apply_alike {filter : Filter}
    (seen : ∀ clause ∈ filter.clauses, clause.field ∉ hidden) :
    ResultsAlike (List.Forall₂ Like) (filter.apply records) (filter.apply others) := by
  induction h with
  | nil => exact .ok .nil
  | @cons one other _ _ first _ ih =>
      rw [Filter.apply, Filter.apply, Filter.keeps_alike (alike first) seen]
      refine (ResultsAlike.of_eq rfl).bind fun kept kept' same => ?_
      subst same
      refine ih.bind fun rest rest' later => .ok ?_
      cases kept with
      | true => exact .cons first later
      | false => exact later

theorem filterRecords_alike {parameters : Parameters} (overlooks : parameters.Overlooks hidden) :
    ResultsAlike (List.Forall₂ Like) (filterRecords parameters.filter records)
      (filterRecords parameters.filter others) := by
  unfold filterRecords
  split
  · exact .ok h
  · rename_i text given
    cases read : Filter.ofText text with
    | error fault => exact .error _
    | ok filter =>
        have clauses : parameters.clauses = filter.clauses := by
          simp only [Parameters.clauses, given, Option.map_some, read]
        exact Filter.apply_alike alike h (clauses ▸ overlooks.filter)

theorem sortByKey_alike {key : SortKey} (seen : key.field ∉ hidden) :
    List.Forall₂ Like (sortByKey records key) (sortByKey others key) := by
  obtain ⟨same, paired⟩ := List.forall₂_iff_zip.mp h
  let pairs := records.zip others
  have precedes : ∀ pair ∈ pairs, ∀ pair' ∈ pairs,
      key.mayPrecede pair.1 pair'.1 = key.mayPrecede pair.2 pair'.2 := by
    intro pair member pair' member'
    have first := (alike (paired member)).value seen
    have second := (alike (paired member')).value seen
    simp only [SortKey.mayPrecede, fieldOrder, first, second]
  -- Both lists are sides of one list of pairs, which is sorted.
  let sorted := pairs.mergeSort fun pair pair' => key.mayPrecede pair.1 pair'.1
  have left : sorted.map Prod.fst = sortByKey records key := by
    have mapped := List.map_mergeSort (f := Prod.fst) (l := pairs) (s := key.mayPrecede)
      fun _ _ _ _ => rfl
    rwa [List.map_fst_zip same.le] at mapped
  have right : sorted.map Prod.snd = sortByKey others key := by
    have mapped := List.map_mergeSort precedes
    rwa [List.map_snd_zip same.ge] at mapped
  rw [← left, ← right, List.forall₂_map_left_iff, List.forall₂_map_right_iff, List.forall₂_same]
  exact fun pair member => paired (List.mem_mergeSort.mp member)

end Lists

theorem sort_alike (alike : ∀ {one other}, Like one other → AlikeBut hidden one other)
    (h : List.Forall₂ Like records others) {keys : List SortKey}
    (seen : ∀ key ∈ keys, key.field ∉ hidden) :
    List.Forall₂ Like (sort records keys) (sort others keys) := by
  have seen : ∀ key ∈ keys.reverse, key.field ∉ hidden :=
    fun key member => seen key (List.mem_reverse.mp member)
  rw [sort, sort]
  generalize keys.reverse = keys at seen
  induction keys generalizing records others with
  | nil => exact h
  | cons key rest ih =>
      exact ih (sortByKey_alike alike h (seen key List.mem_cons_self)) fun key later =>
        seen key (List.mem_cons_of_mem _ later)

section Lists

variable (alike : ∀ {one other}, Like one other → AlikeBut hidden one other)
  (h : List.Forall₂ Like records others)
include alike h

theorem anyCircular_alike {fields : List String} (seen : ∀ field ∈ fields, field ∉ hidden) :
    anyCircular fields records = anyCircular fields others := by
  induction h with
  | nil => rfl
  | @cons one other _ _ first _ ih =>
      have here : fields.any one.isCircularAt = fields.any other.isCircularAt := by
        refine Bool.eq_iff_iff.mpr ?_
        simp only [List.any_eq_true]
        refine exists_congr fun field => and_congr_right fun member => ?_
        rw [(alike first).circular field (seen field member)]
      simp only [anyCircular, List.any_cons, here] at ih ⊢
      rw [ih]

theorem sortRecords_alike {keys : List SortKey} (seen : ∀ key ∈ keys, key.field ∉ hidden) :
    ResultsAlike (List.Forall₂ Like) (sortRecords records keys)
      (sortRecords others keys) := by
  have fields : ∀ field ∈ keys.map (·.field), field ∉ hidden := by
    simpa using seen
  rw [sortRecords, sortRecords, h.length_eq, anyCircular_alike alike h fields]
  split
  · exact .error _
  · exact .ok (sort_alike alike h seen)

omit alike in
theorem paginate_alike (defaultSize : Int) (offset pageSize : Option String) :
    List.Forall₂ Like (paginate defaultSize records offset pageSize)
      (paginate defaultSize others offset pageSize) := by
  have dropped (offset : Int) : List.Forall₂ Like (dropTo records offset) (dropTo others offset) := by
    rw [dropTo, dropTo, h.length_eq]
    exact List.forall₂_drop _ h
  have taken {rest rest' : List Record} (later : List.Forall₂ Like rest rest') (size : Int) :
      List.Forall₂ Like (takeUpTo rest size) (takeUpTo rest' size) := by
    rw [takeUpTo, takeUpTo, later.length_eq]
    exact List.forall₂_take _ later
  unfold paginate
  cases given? offset <;> cases given? pageSize
  · exact h
  · exact taken h _
  · exact dropped _
  · exact taken (dropped _) _

theorem firstsBy_alike {fields : List String} (seen : ∀ field ∈ fields, field ∉ hidden)
    (met : List String) :
    List.Forall₂ Like (firstsBy (combinedText fields) met records)
      (firstsBy (combinedText fields) met others) := by
  induction h generalizing met with
  | nil => exact .nil
  | @cons one other _ _ first _ ih =>
      have text : combinedText fields one = combinedText fields other := by
        simp only [combinedText]
        congr 1
        refine List.map_congr_left fun field member => ?_
        rw [(alike first).value (seen field member)]
      rw [firstsBy, firstsBy, text]
      split
      · exact ih met
      · exact .cons first (ih _)

theorem distinctRecords_alike {parameters : Parameters} (overlooks : parameters.Overlooks hidden) :
    ResultsAlike (List.Forall₂ Like) (distinctRecords parameters.distinct records)
      (distinctRecords parameters.distinct others) := by
  unfold distinctRecords
  split
  · exact .ok h
  · rename_i text given
    have fields : parameters.distinctFields = listItems (some text) := by
      simp only [Parameters.distinctFields, given]
    have seen := fields ▸ overlooks.distinct
    rw [anyCircular_alike alike h seen]
    split
    · exact .error _
    · exact .ok (firstsBy_alike alike h seen [])

/-- Records that look alike but for overlooked fields are arranged in the same way. -/
theorem Engine.arrange_alike (engine : Engine) {parameters : Parameters}
    (overlooks : parameters.Overlooks hidden) :
    ResultsAlike (List.Forall₂ Like) (engine.arrange records parameters)
      (engine.arrange others parameters) := by
  rw [Engine.arrange, Engine.arrange]
  refine (filterRecords_alike alike h overlooks).bind fun kept kept' h => ?_
  refine (sortRecords_alike alike h overlooks.sort).bind fun sorted sorted' h => ?_
  exact distinctRecords_alike alike (paginate_alike h _ _ _) overlooks

end Lists

/-- Records side by side look alike but for fields that are hidden in each of them, among others. -/
inductive AlikeRows (others : List String) : List (List String) → List Record → List Record → Prop
  | nil : AlikeRows others [] [] []
  | cons {hidden : List String} {hiddens : List (List String)} {one other : Record}
      {records records' : List Record} (among : hidden ⊆ others) (alike : AlikeBut hidden one other)
      (rest : AlikeRows others hiddens records records') :
      AlikeRows others (hidden :: hiddens) (one :: records) (other :: records')

variable {overlooked : List String} {hiddens : List (List String)} {records' : List Record}
  {engine : Engine} {fetch fetch' : Fetch} {relation : Relation}

theorem AlikeRows.selected (rows : AlikeRows overlooked hiddens records records')
    (parameters : Parameters) :
    AlikeRows overlooked hiddens (Engine.selected parameters records)
      (Engine.selected parameters records') := by
  unfold Engine.selected
  split
  · induction rows with
    | nil => exact .nil
    | cons among alike _ ih => exact .cons among (alike.only _) ih
  · exact rows

/-- What a relation may refer to that is loaded after others: what its id field holds in one of the records,
or anything where one of the others puts a record into that field. -/
inductive MayRefer (earlier : List Relation) (relation : Relation) (records : List Record) (id : Value) :
    Prop
  | held {record : Record} (listed : record ∈ records) (holds : record.value relation.idField = id)
      (known : id ≠ .null)
  | attached {other : Relation} (loaded : other ∈ earlier) (field : other.field = relation.idField)

variable {earlier : List Relation} {id : Value}

theorem MayRefer.mono {records' : List Record} (h : MayRefer earlier relation records id)
    (same : ∀ record ∈ records, ∃ record' ∈ records',
      record.value relation.idField = record'.value relation.idField ∨
        record.value relation.idField = .null) : MayRefer earlier relation records' id := by
  cases h with
  | held listed holds known =>
      obtain ⟨record', listed', value | missing⟩ := same _ listed
      · exact .held listed' (value.symm.trans holds) known
      · exact absurd (holds.symm.trans missing) known
  | attached loaded field => exact .attached loaded field

theorem MayRefer.of_selected {parameters : Parameters}
    (h : MayRefer earlier relation (Engine.selected parameters records) id) :
    MayRefer earlier relation records id := by
  unfold Engine.selected at h
  split at h
  · refine h.mono fun record listed => ?_
    obtain ⟨whole, among, rfl⟩ := List.mem_map.mp listed
    refine ⟨whole, among, ?_⟩
    rw [Record.value_only]
    split
    · exact .inl rfl
    · exact .inr rfl
  · exact h

theorem Engine.attach_alike (h : AlikeBut hidden one other) (seen : relation.idField ∉ hidden)
    (same : one.value relation.idField ≠ .null →
      engine.related fetch relation (one.value relation.idField) =
        engine.related fetch' relation (one.value relation.idField)) :
    ResultsAlike (AlikeBut hidden) (engine.attach fetch relation one)
      (engine.attach fetch' relation other) := by
  rw [attach, attach, ← h.circular _ seen, ← h.value seen]
  split
  · exact .error _
  · split
    · exact .ok (h.set _ _)
    · rename_i known
      refine (ResultsAlike.of_eq (same known)).bind fun attached attached' equal => ?_
      subst equal
      exact .ok (h.embed _ _)

theorem Engine.attachAll_alike (rows : AlikeRows overlooked hiddens records records')
    (seen : relation.idField ∉ overlooked)
    (same : ∀ id, MayRefer [] relation records id →
      engine.related fetch relation id = engine.related fetch' relation id) :
    ResultsAlike (AlikeRows overlooked hiddens) (engine.attachAll fetch relation records)
      (engine.attachAll fetch' relation records') := by
  induction rows with
  | nil => exact .ok .nil
  | cons among alike _ ih =>
      rw [attachAll, attachAll]
      refine (attach_alike alike (fun listed => seen (among listed))
        fun known => same _ (.held List.mem_cons_self rfl known)).bind fun one other first => ?_
      have later := ih fun id refers => same id (refers.mono fun record listed =>
        ⟨record, List.mem_cons_of_mem _ listed, .inl rfl⟩)
      exact later.bind fun rest rest' later => .ok (.cons among first later)

theorem Engine.value_of_attach {attached : Record}
    (h : engine.attach fetch relation one = .ok attached) {name : String} (ne : relation.field ≠ name) :
    attached.value name = one.value name := by
  rw [attach] at h
  split at h
  · cases h
  · split at h
    · cases h
      exact Record.value_set_of_ne one ne _
    · cases found : engine.related fetch relation (one.value relation.idField) with
      | error fault => simp [found, bind, Except.bind] at h
      | ok related =>
          simp only [found, bind, Except.bind, pure, Except.pure, Except.ok.injEq] at h
          subst h
          exact Record.value_embed_of_ne one related ne

theorem Engine.value_of_attachAll {attached : List Record}
    (h : engine.attachAll fetch relation records = .ok attached) {name : String}
    (ne : relation.field ≠ name) :
    ∀ record ∈ attached, ∃ before ∈ records, record.value name = before.value name := by
  induction records generalizing attached with
  | nil =>
      cases h
      exact List.forall_mem_nil _
  | cons first rest ih =>
      rw [attachAll] at h
      cases one : engine.attach fetch relation first with
      | error fault => simp [one, bind, Except.bind] at h
      | ok record =>
          cases later : engine.attachAll fetch relation rest with
          | error fault => simp [one, later, bind, Except.bind] at h
          | ok others =>
              simp only [one, later, bind, Except.bind, pure, Except.pure, Except.ok.injEq] at h
              subst h
              refine List.forall_mem_cons.mpr ⟨⟨first, List.mem_cons_self, value_of_attach one ne⟩, ?_⟩
              intro record listed
              obtain ⟨before, listed, value⟩ := ih later record listed
              exact ⟨before, List.mem_cons_of_mem _ listed, value⟩

theorem MayRefer.of_attachAll {loaded : Relation} {attached : List Record}
    (done : engine.attachAll fetch loaded records = .ok attached)
    (h : MayRefer earlier relation attached id) : MayRefer (loaded :: earlier) relation records id := by
  cases h with
  | held listed holds known =>
      by_cases same : loaded.field = relation.idField
      · exact .attached List.mem_cons_self same
      · obtain ⟨before, listed, value⟩ := Engine.value_of_attachAll done same _ listed
        exact .held listed (value.symm.trans holds) known
  | attached among field => exact .attached (List.mem_cons_of_mem _ among) field

theorem Engine.attachRelations_alike (rows : AlikeRows overlooked hiddens records records')
    {relations : List Relation} (seen : ∀ relation ∈ relations, relation.idField ∉ overlooked)
    (same : ∀ earlier relation later, relations = earlier ++ relation :: later →
      ∀ id, MayRefer earlier relation records id →
        engine.related fetch relation id = engine.related fetch' relation id) :
    ResultsAlike (AlikeRows overlooked hiddens) (engine.attachRelations fetch records relations)
      (engine.attachRelations fetch' records' relations) := by
  induction relations generalizing records records' with
  | nil => exact .ok rows
  | cons relation rest ih =>
      rw [attachRelations, attachRelations]
      have first := attachAll_alike rows (seen relation List.mem_cons_self) (same [] relation rest rfl)
      refine first.known.bind fun next next' ended => ?_
      obtain ⟨done, rows⟩ := ended
      refine ih rows (fun later member => seen later (List.mem_cons_of_mem _ member)) ?_
      rintro earlier later others rfl id refers
      exact same (relation :: earlier) later others rfl id (refers.of_attachAll done)

/-- Where relations find the same in whatever they may refer to, records are shaped alike. -/
theorem Engine.shape_alike (rows : AlikeRows overlooked hiddens records records')
    {parameters : Parameters} (overlooks : parameters.Overlooks overlooked)
    (same : ∀ earlier relation later, parameters.relations = earlier ++ relation :: later →
      ∀ id, MayRefer earlier relation records id →
        engine.related fetch relation id = engine.related fetch' relation id) :
    ResultsAlike (AlikeRows overlooked hiddens) (engine.shape fetch parameters records)
      (engine.shape fetch' parameters records') := by
  rw [shape_eq, shape_eq]
  cases given : given? parameters.load with
  | none => exact .ok (rows.selected parameters)
  | some text =>
      cases read : Relation.ofParameter (some text) with
      | error refusal => simp only [read]; exact .error _
      | ok relations =>
          have loaded : parameters.relations = relations := by
            simp only [Parameters.relations, given, Option.map_some, Function.comp_apply, read]
          subst loaded
          simp only [read]
          exact attachRelations_alike (rows.selected parameters) overlooks.load
            fun earlier relation later split id refers =>
              same earlier relation later split id refers.of_selected

end GuardedStore.Query
