import GuardedStore.Proofs.Store.Supply

/-! # What a store holds

A store is seen through the entries of its collections: the ids with the stored records, in order; a
missing collection has none. Every write changes the entries of one collection under one id.
-/

namespace GuardedStore.Store

/-- The stored records of a collection under their ids; none when there is no collection. -/
def entries (store : Store) (name : String) : Entries Record :=
  ((store.collections.get? name).getD .empty).entries

@[simp]
theorem entries_empty (name : String) : empty.entries name = [] := rfl

theorem nodup_entries (store : Store) (name : String) :
    (Entries.names (store.entries name)).Nodup :=
  ((store.collections.get? name).getD .empty).nodup

theorem stored_ok_iff {store : Store} {name id : String} {record : Record} :
    store.stored name id = .ok record ↔ Entries.get? (store.entries name) id = some record := by
  simp only [stored, collection, entries]
  cases store.collections.get? name with
  | none => simp [bind, Except.bind, Table.empty]
  | some collection =>
      simp only [bind, Except.bind, Option.getD_some, Table.get?]
      cases Entries.get? collection.entries id with
      | none => simp [throw, throwThe, MonadExceptOf.throw]
      | some stored => simp [pure, Except.pure]

theorem find_eq (store : Store) (name id : String) :
    store.find name id =
      match store.collections.get? name with
      | none => .error (.collectionMissing name)
      | some _ =>
        match Entries.get? (store.entries name) id with
        | none => .error (.entryMissing id)
        | some record => .ok (withId id record) := by
  simp only [find, stored, collection, entries]
  cases store.collections.get? name with
  | none => rfl
  | some collection =>
      simp only [bind, Except.bind, Option.getD_some, Table.get?]
      cases Entries.get? collection.entries id <;> rfl

theorem find_of_get? {store : Store} {name id : String} {record : Record}
    (h : Entries.get? (store.entries name) id = some record) :
    store.find name id = .ok (withId id record) := by
  simp only [find, stored_ok_iff.mpr h]
  rfl

theorem find_of_missing {store : Store} {name id : String}
    (h : Entries.get? (store.entries name) id = none) : ∃ refusal, store.find name id = .error refusal := by
  cases found : store.stored name id with
  | error refusal =>
      refine ⟨refusal, ?_⟩
      simp only [find, found]
      rfl
  | ok record =>
      rw [stored_ok_iff.mp found] at h
      cases h

theorem get?_of_find {store : Store} {name id : String} {found : Record}
    (h : store.find name id = .ok found) :
    ∃ record, Entries.get? (store.entries name) id = some record ∧ found = withId id record := by
  simp only [find] at h
  cases stored : store.stored name id with
  | error refusal => simp [stored, bind, Except.bind] at h
  | ok record =>
      refine ⟨record, stored_ok_iff.mp stored, ?_⟩
      simpa [stored, bind, Except.bind, pure, Except.pure, eq_comm] using h

theorem all_eq (store : Store) (name : String) :
    store.all name =
      match store.collections.get? name with
      | none => .error (.collectionMissing name)
      | some _ => .ok ((store.entries name).map fun (id, record) => withId id record) := by
  simp only [Store.all, collection, entries]
  cases store.collections.get? name <;> rfl

/-- In no stored record a list or object stands twice. -/
def IsPlain (store : Store) : Prop :=
  ∀ name, ∀ entry ∈ store.entries name, entry.2.identities = []

theorem identities_withId (id : String) {record : Record} (plain : record.identities = []) :
    (withId id record).identities = [] := by
  rw [withId, Record.set, plain]
  rfl

theorem IsPlain.of_stored {store : Store} (plain : store.IsPlain) {name id : String} {record : Record}
    (stored : Entries.get? (store.entries name) id = some record) : record.identities = [] :=
  plain name (id, record) (Entries.mem_of_get? stored)

theorem IsPlain.of_find {store : Store} (plain : store.IsPlain) {name id : String} {found : Record}
    (there : store.find name id = .ok found) : found.identities = [] := by
  obtain ⟨record, stored, rfl⟩ := get?_of_find there
  exact identities_withId id (plain.of_stored stored)

theorem IsPlain.of_all {store : Store} (plain : store.IsPlain) {name : String} {records : List Record}
    (there : store.all name = .ok records) : ∀ record ∈ records, record.identities = [] := by
  rw [all_eq] at there
  split at there
  · cases there
  · cases there
    intro record member
    obtain ⟨⟨id, stored⟩, entry, rfl⟩ := List.mem_map.mp member
    exact identities_withId id (plain name _ entry)

/-- A collection in which a record is stored exists. -/
theorem exists_of_stored {store : Store} {name id : String} {record : Record}
    (h : store.stored name id = .ok record) :
    ∃ collection, store.collections.get? name = some collection := by
  cases found : store.collections.get? name with
  | none =>
      rw [stored_ok_iff, entries, found] at h
      cases h
  | some collection => exact ⟨collection, rfl⟩

/-- The records of a collection are those that are stored in it. -/
theorem stored_of_all {store : Store} {name : String} {all : List Record}
    (h : store.all name = .ok all) {record : Record} (member : record ∈ all) :
    ∃ id stored, store.stored name id = .ok stored ∧ record = withId id stored := by
  simp only [stored_ok_iff, entries, Store.all, collection] at h ⊢
  cases found : store.collections.get? name with
  | none => simp [found, bind, Except.bind] at h
  | some collection =>
      simp only [found, bind, Except.bind, pure, Except.pure, Except.ok.injEq] at h
      subst h
      obtain ⟨⟨id, stored⟩, held, rfl⟩ := List.mem_map.mp member
      exact ⟨id, stored, Entries.get?_of_mem collection.nodup held, rfl⟩

theorem filterEntries_of_total {test : Record → Except OutOfRange Bool}
    {passes : String × Record → Bool} {entries : Entries Record}
    (h : ∀ entry ∈ entries, test entry.2 = .ok (passes entry)) :
    filterEntries test entries = .ok (entries.filter passes) := by
  induction entries with
  | nil => rfl
  | cons entry rest ih =>
      obtain ⟨id, record⟩ := entry
      have first := h (id, record) List.mem_cons_self
      have others := ih fun entry member => h entry (List.mem_cons_of_mem _ member)
      cases passed : passes (id, record) <;>
        simp [filterEntries, first, others, passed, bind, Except.bind, pure, Except.pure]

/-- A search that ends has tested every entry, and found those that pass. -/
theorem total_of_filterEntries {test : Record → Except OutOfRange Bool}
    {entries found : Entries Record} (h : filterEntries test entries = .ok found) :
    ∃ passes : String × Record → Bool, (∀ entry ∈ entries, test entry.2 = .ok (passes entry)) ∧
      found = entries.filter passes := by
  let passes (entry : String × Record) : Bool := (test entry.2).toOption.getD false
  have tested : ∀ entry ∈ entries, test entry.2 = .ok (passes entry) := by
    induction entries generalizing found with
    | nil => simp
    | cons entry rest ih =>
        obtain ⟨id, record⟩ := entry
        cases first : test record with
        | error fault => simp [filterEntries, first, bind, Except.bind] at h
        | ok passed =>
            cases later : filterEntries test rest with
            | error fault => simp [filterEntries, first, later, bind, Except.bind] at h
            | ok others =>
                intro entry member
                rcases List.mem_cons.mp member with rfl | member
                · simp [passes, first, Except.toOption]
                · exact ih later entry member
  refine ⟨passes, tested, ?_⟩
  rw [filterEntries_of_total tested] at h
  cases h
  rfl

/-- What is found stands in the collection. -/
theorem filterEntries_sublist {test : Record → Except OutOfRange Bool}
    {entries found : Entries Record} (h : filterEntries test entries = .ok found) :
    found.Sublist entries := by
  induction entries generalizing found with
  | nil =>
      cases h
      exact List.Sublist.slnil
  | cons entry rest ih =>
      obtain ⟨id, record⟩ := entry
      cases tested : test record with
      | error fault => simp [filterEntries, tested, bind, Except.bind] at h
      | ok passed =>
          cases later : filterEntries test rest with
          | error fault => simp [filterEntries, tested, later, bind, Except.bind] at h
          | ok others =>
              simp only [filterEntries, tested, later, bind, Except.bind, pure, Except.pure,
                Except.ok.injEq] at h
              cases h
              cases passed with
              | true => exact (ih later).cons_cons _
              | false => exact (ih later).cons _

theorem entries_put (store : Store) (name id : String) (record : Record) (other : String) :
    (store.put name id record).entries other =
      if name = other then Entries.set (store.entries name) id record else store.entries other := by
  by_cases same : name = other
  · subst same
    simp [put, entries, Table.get?_set]
  · simp [put, entries, Table.get?_set, same]

theorem get?_put (store : Store) (name id : String) (record : Record) (other otherId : String) :
    Entries.get? ((store.put name id record).entries other) otherId =
      if name = other ∧ id = otherId then some record
      else Entries.get? (store.entries other) otherId := by
  rw [entries_put]
  by_cases same : name = other
  · subst same
    simp [Entries.get?_set]
  · simp [same]

theorem collections_put (store : Store) (name id : String) (record : Record) (other : String) :
    (store.put name id record).collections.get? other =
      if name = other then some (((store.collections.get? name).getD .empty).set id record)
      else store.collections.get? other :=
  Table.get?_set _ _ _ _

theorem find_put_of_ne {store : Store} {name id : String} {old : Record}
    (h : store.stored name id = .ok old) (record : Record) {other key : String}
    (ne : ¬(name = other ∧ id = key)) :
    (store.put name id record).find other key = store.find other key := by
  rw [find_eq, find_eq, get?_put, if_neg ne, collections_put]
  by_cases same : name = other
  · subst same
    obtain ⟨collection, found⟩ := exists_of_stored h
    rw [if_pos rfl, found]
  · rw [if_neg same]

theorem put_put (store : Store) (name id : String) (first second : Record) :
    (store.put name id first).put name id second = store.put name id second := by
  have rewritten (table : Collection) : (table.set id first).set id second = table.set id second :=
    Table.ext (Entries.set_set table.entries id first second)
  have twice (table : Table Collection) (one other : Collection) :
      (table.set name one).set name other = table.set name other :=
    Table.ext (Entries.set_set table.entries name one other)
  simp only [put, Table.get?_set, if_pos, Option.getD_some, rewritten, twice]

/-- The store without the record under an id of a collection. -/
def without (store : Store) (name id : String) : Store :=
  ⟨store.collections.set name (((store.collections.get? name).getD .empty).erase id)⟩

theorem entries_without (store : Store) (name id other : String) :
    (store.without name id).entries other =
      if name = other then Entries.erase (store.entries name) id else store.entries other := by
  by_cases same : name = other
  · subst same
    simp [without, entries, Table.get?_set]
  · simp [without, entries, Table.get?_set, same]

theorem get?_without (store : Store) (name id other otherId : String) :
    Entries.get? ((store.without name id).entries other) otherId =
      if name = other ∧ id = otherId then none
      else Entries.get? (store.entries other) otherId := by
  rw [entries_without]
  by_cases same : name = other
  · subst same
    simp [Entries.get?_erase]
  · simp [same]

/-- The store without the records under some ids of a collection. -/
def withoutAll (store : Store) (name : String) : List String → Store
  | [] => store
  | id :: ids => (store.without name id).withoutAll name ids

theorem entries_withoutAll (store : Store) (name : String) (ids : List String) (other : String) :
    (store.withoutAll name ids).entries other =
      if name = other then (store.entries name).filter fun entry => entry.1 ∉ ids
      else store.entries other := by
  induction ids generalizing store with
  | nil => by_cases same : name = other <;> simp [withoutAll, same]
  | cons id ids ih =>
      rw [withoutAll, ih, entries_without, entries_without, if_pos rfl]
      by_cases same : name = other
      · rw [if_pos same, if_pos same, Entries.erase, List.filter_filter]
        refine List.filter_congr fun entry _ => ?_
        by_cases first : entry.1 = id <;> simp [first]
      · rw [if_neg same, if_neg same, if_neg same]

/-- The id that an added record gets. -/
def nextId (store : Store) (supply : Supply) (name : String) : String :=
  (supply.drawId (Entries.names (store.entries name))).1

/-- The supply that is left when a record was added. -/
def restSupply (store : Store) (supply : Supply) (name : String) : Supply :=
  (supply.drawId (Entries.names (store.entries name))).2.tick.2

theorem add_eq (store : Store) (supply : Supply) (name : String) (data : Record)
    (owner : Option String) :
    store.add supply name data owner =
      ⟨withId (store.nextId supply name) (newRecord data owner supply.clock),
        store.put name (store.nextId supply name) (newRecord data owner supply.clock),
        store.restSupply supply name⟩ := by
  rw [← supply.drawId_clock (Entries.names (store.entries name))]
  rfl

theorem nextId_notMem {supply : Supply} (h : supply.FreshDiffer) (store : Store) (name : String) :
    store.nextId supply name ∉ Entries.names (store.entries name) :=
  Supply.drawId_notMem h _

theorem follows_restSupply {supply : Supply} (h : supply.NeverRepeats) (store : Store) (name : String) :
    supply.Follows (store.restSupply supply name) :=
  (h.follows_drawId _).trans (Supply.follows_tick _)

theorem spent_nextId {supply : Supply} (h : supply.NeverRepeats) (store : Store) (name : String) :
    (store.restSupply supply name).Spent (store.nextId supply name) :=
  (Supply.follows_tick _).spent (h.spent_drawId _)

/-- An added record comes last. -/
theorem entries_put_nextId {supply : Supply} (h : supply.FreshDiffer) (store : Store) (name : String)
    (record : Record) :
    (store.put name (store.nextId supply name) record).entries name =
      store.entries name ++ [(store.nextId supply name, record)] := by
  rw [entries_put, if_pos rfl, Entries.set_of_notMem (nextId_notMem h store name)]

theorem replace_of_stored {store : Store} {name id : String} {existing : Record}
    (h : Entries.get? (store.entries name) id = some existing) (supply : Supply) (data : Record) :
    store.replace supply name id data =
      .ok ⟨withId id (replacedRecord existing data supply.clock),
        store.put name id (replacedRecord existing data supply.clock), supply.tick.2⟩ := by
  simp only [replace, stored_ok_iff.mpr h]
  rfl

theorem merge_of_stored {store : Store} {name id : String} {existing : Record}
    (h : Entries.get? (store.entries name) id = some existing) (supply : Supply) (data : Record) :
    store.merge supply name id data =
      .ok ⟨withId id (mergedRecord existing data supply.clock),
        store.put name id (mergedRecord existing data supply.clock), supply.tick.2⟩ := by
  simp only [merge, stored_ok_iff.mpr h]
  rfl

theorem delete_of_stored {store : Store} {name id : String} {existing : Record}
    (h : Entries.get? (store.entries name) id = some existing) (supply : Supply) :
    store.delete supply name id =
      .ok ⟨.plain [(deletedField, .int supply.clock)], store.without name id, supply.tick.2⟩ := by
  have stored := stored_ok_iff.mpr h
  simp only [delete, stored]
  cases found : store.collections.get? name with
  | none => simp [Store.stored, collection, found, bind, Except.bind] at stored
  | some collection =>
      simp [Store.collection, found, without, bind, Except.bind, pure, Except.pure, Supply.tick]

end GuardedStore.Store
