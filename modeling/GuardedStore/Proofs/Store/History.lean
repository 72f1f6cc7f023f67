import GuardedStore.Proofs.Store.Contents

/-! # The history of a store

A history tells which collections and records came into a store and which records left it, one event
after another. It decides which collections there are, which ids each of them has, and in which order
they are listed.
-/

namespace GuardedStore.Store

/-- What came into a store, or left it. -/
inductive Event where
  /-- A collection came in, maybe without records. -/
  | opened (name : String)
  /-- A record came into a collection. -/
  | inserted (name id : String)
  /-- A record left a collection. -/
  | removed (name id : String)
  deriving DecidableEq

/-- The collection that an event brings in when it is new. -/
def Event.opens? : Event → Option String
  | .opened name | .inserted name _ => some name
  | .removed _ _ => none

/-- The collections of a history, in order of first appearance. -/
def appeared (history : List Event) : List String :=
  (history.filterMap Event.opens?).eraseDups

/-- The ids that came into a collection and did not leave it since, each where it came in. -/
def present (name : String) : List Event → List String
  | [] => []
  | .inserted other id :: later =>
    if other = name ∧ .removed name id ∉ later then id :: (present name later).filter (· ≠ id)
    else present name later
  | .opened _ :: later | .removed _ _ :: later => present name later

/-- An id is present when it came in at some time and did not leave since. -/
theorem mem_present_iff {name id : String} {history : List Event} :
    id ∈ present name history ↔
      ∃ before after, history = before ++ .inserted name id :: after ∧ .removed name id ∉ after := by
  induction history with
  | nil => simp [present]
  | cons event later ih =>
      have behind : (∃ before after, event :: later = before ++ .inserted name id :: after ∧
            .removed name id ∉ after) ↔
          (event = .inserted name id ∧ .removed name id ∉ later) ∨ id ∈ present name later := by
        rw [ih]
        constructor
        · rintro ⟨before, after, split, kept⟩
          cases before with
          | nil =>
              cases split
              exact .inl ⟨rfl, kept⟩
          | cons first before =>
              cases split
              exact .inr ⟨before, after, rfl, kept⟩
        · rintro (⟨rfl, kept⟩ | ⟨before, after, rfl, kept⟩)
          · exact ⟨[], later, rfl, kept⟩
          · exact ⟨event :: before, after, rfl, kept⟩
      rw [behind]
      cases event with
      | opened _ | removed _ _ => simp [present]
      | inserted other first =>
          by_cases stays : other = name ∧ .removed name first ∉ later
          · obtain ⟨rfl, kept⟩ := stays
            by_cases same : id = first
            · subst same
              simp [present, kept]
            · simp [present, kept, same, Ne.symm same]
          · have elsewhere : ¬(Event.inserted other first = .inserted name id ∧
                .removed name id ∉ later) := by
              rintro ⟨same, kept⟩
              cases same
              exact stays ⟨rfl, kept⟩
            simp only [present, if_neg stays, elsewhere, false_or]

theorem eraseDups_concat (names : List String) (name : String) :
    (names ++ [name]).eraseDups =
      if name ∈ names.eraseDups then names.eraseDups else names.eraseDups ++ [name] := by
  rw [List.eraseDups_append]
  by_cases known : name ∈ names
  · simp [List.removeAll, known]
  · simp [List.removeAll, known, List.eraseDups_cons]

theorem appeared_concat (history : List Event) (event : Event) :
    appeared (history ++ [event]) =
      match event.opens? with
      | none => appeared history
      | some name =>
        if name ∈ appeared history then appeared history else appeared history ++ [name] := by
  cases brought : event.opens? with
  | none => simp [appeared, List.filterMap_append, brought]
  | some name =>
      have last : (history ++ [event]).filterMap Event.opens? =
          history.filterMap Event.opens? ++ [name] := by
        simp [List.filterMap_append, brought]
      rw [appeared, last]
      exact eraseDups_concat _ name

/-- An id that comes in is the last one, unless it is there. -/
theorem present_inserted (name : String) (history : List Event) (other id : String) :
    present name (history ++ [.inserted other id]) =
      if other = name ∧ id ∉ present name history then present name history ++ [id]
      else present name history := by
  by_cases same : other = name
  · subst same
    induction history with
    | nil => simp [present]
    | cons event later ih =>
        cases event with
        | opened _ | removed _ _ => simpa [present] using ih
        | inserted collection first =>
            by_cases stays : collection = other ∧ .removed other first ∉ later
            · obtain ⟨rfl, kept⟩ := stays
              by_cases again : first = id
              · subst again
                by_cases known : first ∈ present collection later <;>
                  simp_all [present, List.filter_append]
              · by_cases known : id ∈ present collection later <;>
                  simp_all [present, List.filter_append, Ne.symm]
            · have unmoved : ¬(collection = other ∧
                  .removed other first ∉ later ++ [.inserted other id]) := by
                simpa using stays
              simp only [List.cons_append, present, if_neg stays, if_neg unmoved, ih]
  · rw [if_neg fun here => same here.1]
    induction history with
    | nil => simp [present, same]
    | cons event later ih => cases event <;> simp [present, ih]

theorem present_removed (name : String) (history : List Event) (other id : String) :
    present name (history ++ [.removed other id]) =
      if other = name then (present name history).filter (· ≠ id) else present name history := by
  by_cases same : other = name
  · subst same
    rw [if_pos rfl]
    induction history with
    | nil => rfl
    | cons event later ih =>
        cases event with
        | opened _ | removed _ _ => simpa [present] using ih
        | inserted collection first =>
            by_cases here : collection = other
            · subst here
              by_cases left : .removed collection first ∈ later
              · simp [present, left, ih]
              · by_cases again : first = id
                · subst again
                  simp [present, left, ih]
                · simp [present, left, again, ih, List.filter_filter, Bool.and_comm]
            · simpa [present, here] using ih
  · rw [if_neg same]
    induction history with
    | nil => simp [present]
    | cons event later ih =>
        cases event with
        | opened _ | removed _ _ => simpa [present] using ih
        | inserted collection first => simp [present, ih, Ne.symm same]

theorem present_opened (name : String) (history : List Event) (other : String) :
    present name (history ++ [.opened other]) = present name history := by
  induction history with
  | nil => rfl
  | cons event later ih => cases event <;> simp [present, ih]

/-- The collections of a store and their ids are those of a history. -/
structure Recounts (history : List Event) (store : Store) : Prop where
  collections : store.collectionNames = appeared history
  ids : ∀ name, Entries.names (store.entries name) = present name history

theorem recounts_empty : Recounts [] empty where
  collections := rfl
  ids _ := rfl

/-- The store with a collection that may be new. -/
def withCollection (store : Store) (name : String) (collection : Collection) : Store :=
  ⟨store.collections.set name collection⟩

theorem names_withCollection (store : Store) (name : String) (collection : Collection) :
    (store.withCollection name collection).collectionNames =
      if name ∈ store.collectionNames then store.collectionNames
      else store.collectionNames ++ [name] :=
  Entries.names_set _ _ _

theorem mem_collectionNames_of_stored {store : Store} {name id : String} {record : Record}
    (h : store.stored name id = .ok record) : name ∈ store.collectionNames := by
  obtain ⟨collection, found⟩ := exists_of_stored h
  by_contra missing
  rw [Table.get?, Entries.get?_eq_none_iff.mpr missing] at found
  cases found

theorem mem_names_of_stored {store : Store} {name id : String} {record : Record}
    (h : store.stored name id = .ok record) : id ∈ Entries.names (store.entries name) := by
  by_contra missing
  rw [stored_ok_iff, Entries.get?_eq_none_iff.mpr missing] at h
  cases h

theorem Recounts.opened {history : List Event} {store : Store} (h : Recounts history store)
    (name : String) :
    Recounts (history ++ [.opened name])
      (store.withCollection name ((store.collections.get? name).getD .empty)) where
  collections := by
    rw [names_withCollection, appeared_concat, h.collections]
    rfl
  ids other := by
    rw [present_opened, ← h.ids]
    by_cases same : name = other
    · subst same
      simp [withCollection, entries, Table.get?_set]
    · simp [withCollection, entries, Table.get?_set, same]

theorem Recounts.inserted {history : List Event} {store : Store} (h : Recounts history store)
    (name id : String) (record : Record) :
    Recounts (history ++ [.inserted name id]) (store.put name id record) where
  collections := by
    rw [appeared_concat, ← h.collections]
    exact names_withCollection store name _
  ids other := by
    rw [entries_put, present_inserted, ← h.ids]
    by_cases same : name = other
    · subst same
      rw [if_pos rfl, Entries.names_set]
      by_cases known : id ∈ Entries.names (store.entries name) <;> simp [known]
    · simp [same]

theorem Recounts.rewritten {history : List Event} {store : Store} (h : Recounts history store)
    {name id : String} {old : Record} (stored : store.stored name id = .ok old) (record : Record) :
    Recounts history (store.put name id record) := by
  have appearedBefore := h.collections ▸ mem_collectionNames_of_stored stored
  have presentBefore := h.ids name ▸ mem_names_of_stored stored
  have again := h.inserted name id record
  constructor
  · rw [again.collections, appeared_concat]
    simp [Event.opens?, appearedBefore]
  · intro other
    rw [again.ids, present_inserted]
    by_cases same : name = other
    · subst same
      simp [presentBefore]
    · simp [same]

theorem Recounts.removed {history : List Event} {store : Store} (h : Recounts history store)
    {name id : String} {old : Record} (stored : store.stored name id = .ok old) :
    Recounts (history ++ [.removed name id]) (store.without name id) where
  collections := by
    rw [appeared_concat]
    refine (names_withCollection store name _).trans ?_
    rw [if_pos (mem_collectionNames_of_stored stored), h.collections]
    rfl
  ids other := by
    rw [entries_without, present_removed, ← h.ids]
    by_cases same : name = other
    · subst same
      simp [Entries.names, Entries.erase, List.filter_map, Function.comp_def]
    · simp [same]

/-- The events of a snapshot that is loaded. -/
def seeded (snapshot : Snapshot) : List Event :=
  snapshot.flatMap fun (name, records) =>
    .opened name :: records.map fun (id, _) => .inserted name id

theorem put_withCollection (store : Store) (name : String) (collection : Collection) (id : String)
    (record : Record) :
    (store.withCollection name collection).put name id record =
      store.withCollection name (collection.set id record) := by
  have twice : (store.collections.set name collection).set name (collection.set id record) =
      store.collections.set name (collection.set id record) :=
    Table.ext (Entries.set_set _ _ _ _)
  simp [put, withCollection, Table.get?_set, twice]

theorem Recounts.overlaid {history : List Event} {store : Store} {name : String}
    (records : List (String × Fields)) {collection : Collection}
    (h : Recounts history (store.withCollection name collection)) :
    Recounts (history ++ records.map fun (id, _) => .inserted name id)
      (store.withCollection name (collection.overlay (plainRecords records))) := by
  induction records generalizing history collection with
  | nil =>
      rw [List.map_nil, List.append_nil]
      exact h
  | cons entry rest ih =>
      obtain ⟨id, fields⟩ := entry
      have first := h.inserted name id (.plain fields)
      rw [put_withCollection] at first
      rw [List.map_cons, List.append_cons]
      exact ih first

theorem Recounts.load {history : List Event} {store : Store} (h : Recounts history store)
    (snapshot : Snapshot) : Recounts (history ++ seeded snapshot) (store.load snapshot) := by
  induction snapshot generalizing history store with
  | nil =>
      rw [seeded, List.flatMap_nil, List.append_nil]
      exact h
  | cons group rest ih =>
      obtain ⟨name, records⟩ := group
      have first := (h.opened name).overlaid records
      rw [seeded, List.flatMap_cons, ← List.append_assoc, List.append_cons]
      exact ih first

theorem recounts_ofSnapshot (snapshot : Snapshot) :
    Recounts (seeded snapshot) (ofSnapshot snapshot) :=
  recounts_empty.load snapshot

end GuardedStore.Store
