import GuardedStore.Proofs.Store.History

/-! # Adding a record

A record is added under the first id of the supply that its collection does not have. The ids before it are
gone, and so is the id itself; what else was in the store stays as it was.
-/

namespace GuardedStore.Store

/-- The second store has one record more than the first one: it comes last in its collection, which may be
new. -/
structure Gains (store grown : Store) (name id : String) (record : Record) : Prop where
  new : id ∉ Entries.names (store.entries name)
  entries : grown.entries name = store.entries name ++ [(id, record)]
  others : ∀ other, other ≠ name → grown.collections.get? other = store.collections.get? other
  collectionNames : grown.collectionNames =
    if name ∈ store.collectionNames then store.collectionNames else store.collectionNames ++ [name]

theorem gains_put {store : Store} {name id : String} (new : id ∉ Entries.names (store.entries name))
    (record : Record) : store.Gains (store.put name id record) name id record where
  new := new
  entries := by rw [entries_put, if_pos rfl, Entries.set_of_notMem new]
  others other ne := by rw [collections_put, if_neg (Ne.symm ne)]
  collectionNames := names_withCollection store name _

/-- Adding a record passes over some ids that the collection has, and stores the record under the next one. -/
structure AddsBehind (store : Store) (supply : Supply) (name : String) (data : Record) (owner : Option String)
    (passed : Nat) : Prop where
  ends : supply.Loops (Entries.names (store.entries name)) passed
    (supply.nth passed, supply.after (passed + 1))
  known : ∀ earlier < passed, supply.nth earlier ∈ Entries.names (store.entries name)
  handed : (store.add supply name data owner).record =
    withId (supply.nth passed) (newRecord data owner supply.clock)
  /-- No id behind the one of the record is taken from the supply. -/
  rest : (store.add supply name data owner).supply = (supply.after (passed + 1)).tick.2
  gains : store.Gains (store.add supply name data owner).store name (supply.nth passed)
    (newRecord data owner supply.clock)

/-- Adding a record ends, with the first id that the collection does not have, if all but finitely many ids of
the supply are different. -/
theorem adds_under_first_free_id {supply : Supply} (differ : supply.FreshDiffer) (store : Store)
    (name : String) (data : Record) (owner : Option String) :
    ∃ passed ≤ supply.queued.length + (store.entries name).length,
      store.AddsBehind supply name data owner passed := by
  obtain ⟨passed, few, run⟩ := Supply.drawId_loops differ (Entries.names (store.entries name))
  have drawn := run.drawn_eq
  have draw := run.draws
  rw [drawn] at run draw
  have added : store.add supply name data owner =
      ⟨withId (supply.nth passed) (newRecord data owner supply.clock),
        store.put name (supply.nth passed) (newRecord data owner supply.clock),
        (supply.after (passed + 1)).tick.2⟩ := by
    rw [add_eq, nextId, restSupply, drawn]
  refine ⟨passed, by simpa [Entries.names] using few, ?_⟩
  exact {
    ends := run
    known := draw.skipped
    handed := by rw [added]
    rest := by rw [added]
    gains := by rw [added]; exact gains_put draw.new _ }

/-- The queued ids come again or are taken, and so is the first fresh one. -/
theorem adds_note_behind_taken_ids :
    let store := ofSnapshot [("notes", [("n1", []), ("id-1", [("text", .str "red")])])]
    let supply := Supply.numbered ["n1", "id-1", "n1"]
    supply.FreshDiffer ∧
      (∃ passed ≤ 5, store.AddsBehind supply "notes" (.plain []) none passed) ∧
      Entries.names ((store.add supply "notes" (.plain []) none).store.entries "notes") =
        ["n1", "id-1", "id-2"] := by
  intro store supply
  have differ : supply.FreshDiffer := Supply.numbered_freshDiffer _
  exact ⟨differ, adds_under_first_free_id differ store "notes" (.plain []) none, by decide +kernel⟩

end GuardedStore.Store
