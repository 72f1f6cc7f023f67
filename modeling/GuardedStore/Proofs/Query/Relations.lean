import GuardedStore.Proofs.Run
import GuardedStore.Query.Shape

/-! # Loaded relations

Relations see the records that they are loaded from only as they are attached: whatever is left out of
a record before that, as the password hash is of a user, cannot tell two sources apart. Records are
shaped one by one: what becomes of one of them does not depend on the others.
-/

namespace GuardedStore.Query.Engine

variable {engine : Engine} {fetch fetch' : Fetch}

/-- Two sources give the same records to attach. -/
def SameRelated (engine : Engine) (fetch fetch' : Fetch) : Prop :=
  ∀ relation id, engine.related fetch relation id = engine.related fetch' relation id

theorem SameRelated.attachAll_eq (same : engine.SameRelated fetch fetch') (relation : Relation)
    (records : List Record) :
    engine.attachAll fetch relation records = engine.attachAll fetch' relation records := by
  induction records with
  | nil => rfl
  | cons record rest ih =>
      have attached : engine.attach fetch relation record = engine.attach fetch' relation record := by
        simp only [attach, same relation]
      simp only [attachAll, attached, ih]

theorem SameRelated.attachRelations_eq (same : engine.SameRelated fetch fetch')
    (relations : List Relation) (records : List Record) :
    engine.attachRelations fetch records relations =
      engine.attachRelations fetch' records relations := by
  induction relations generalizing records with
  | nil => rfl
  | cons relation rest ih => simp only [attachRelations, same.attachAll_eq, ih]

theorem SameRelated.shape_eq (same : engine.SameRelated fetch fetch') (parameters : Parameters)
    (records : List Record) :
    engine.shape fetch parameters records = engine.shape fetch' parameters records := by
  simp only [shape, same.attachRelations_eq]

theorem length_attachAll {relation : Relation} {records attached : List Record}
    (h : engine.attachAll fetch relation records = .ok attached) :
    attached.length = records.length := by
  induction records generalizing attached with
  | nil =>
      cases h
      rfl
  | cons record rest ih =>
      rw [attachAll] at h
      cases first : engine.attach fetch relation record with
      | error fault => simp [first, bind, Except.bind] at h
      | ok one =>
          cases later : engine.attachAll fetch relation rest with
          | error fault => simp [first, later, bind, Except.bind] at h
          | ok others =>
              simp only [first, later, bind, Except.bind, pure, Except.pure, Except.ok.injEq] at h
              cases h
              simp [ih later]

theorem length_attachRelations {relations : List Relation} {records attached : List Record}
    (h : engine.attachRelations fetch records relations = .ok attached) :
    attached.length = records.length := by
  induction relations generalizing records with
  | nil =>
      cases h
      rfl
  | cons relation rest ih =>
      rw [attachRelations] at h
      cases first : engine.attachAll fetch relation records with
      | error fault => simp [first, bind, Except.bind] at h
      | ok next =>
          simp only [first, bind, Except.bind] at h
          exact (ih h).trans (length_attachAll first)

/-- The records with their selected fields. -/
def selected (parameters : Parameters) (records : List Record) : List Record :=
  match given? parameters.select with
  | some text => records.map (·.only (listItems (some text)))
  | none => records

theorem shape_eq (engine : Engine) (source : Option Fetch) (parameters : Parameters)
    (records : List Record) :
    engine.shape source parameters records =
      match given? parameters.load, source with
      | none, _ => .ok (selected parameters records)
      | some _, none => .error (.refused .relationsUnavailable)
      | some text, some fetch =>
        match Relation.ofParameter (some text) with
        | .error refusal => .error (.refused refusal)
        | .ok relations => engine.attachRelations fetch (selected parameters records) relations := by
  simp only [shape, selected]
  cases given? parameters.load with
  | none => rfl
  | some text =>
      cases source with
      | none => rfl
      | some fetch =>
          simp only
          cases Relation.ofParameter (some text) <;> rfl

theorem length_shape {source : Option Fetch} {parameters : Parameters} {records shaped : List Record}
    (h : engine.shape source parameters records = .ok shaped) : shaped.length = records.length := by
  have same : (selected parameters records).length = records.length := by
    unfold selected
    split <;> simp
  rw [shape_eq] at h
  split at h
  · cases h
    exact same
  · cases h
  · split at h
    · cases h
    · exact (length_attachRelations h).trans same

theorem attachAll_ok_iff {relation : Relation} {records attached : List Record} :
    engine.attachAll fetch relation records = .ok attached ↔
      List.Forall₂ (fun record one => engine.attach fetch relation record = .ok one)
        records attached := by
  induction records generalizing attached with
  | nil => simp [attachAll, eq_comm]
  | cons record rest ih =>
      rw [attachAll, except_bind_ok_iff]
      constructor
      · rintro ⟨one, first, done⟩
        obtain ⟨others, later, ends⟩ := except_bind_ok_iff.mp done
        cases ends
        exact .cons first (ih.mp later)
      · intro each
        cases each with
        | cons first later => exact ⟨_, first, except_bind_ok_iff.mpr ⟨_, ih.mpr later, rfl⟩⟩

theorem attachAll_single {relation : Relation} {record : Record} {attached : List Record} :
    engine.attachAll fetch relation [record] = .ok attached ↔
      ∃ one, engine.attach fetch relation record = .ok one ∧ attached = [one] := by
  rw [attachAll_ok_iff]
  constructor
  · rintro (_ | ⟨first, ⟨⟩⟩)
    exact ⟨_, first, rfl⟩
  · rintro ⟨one, first, rfl⟩
    exact .cons first .nil

theorem forall₂_comp {α β γ : Type} {R : α → β → Prop} {S : β → γ → Prop} {as : List α}
    {cs : List γ} :
    (∃ bs, List.Forall₂ R as bs ∧ List.Forall₂ S bs cs) ↔
      List.Forall₂ (fun a c => ∃ b, R a b ∧ S b c) as cs := by
  constructor
  · rintro ⟨bs, first, second⟩
    induction first generalizing cs with
    | nil =>
        cases second
        exact .nil
    | cons one _ ih =>
        cases second with
        | cons two others => exact .cons ⟨_, one, two⟩ (ih others)
  · intro both
    induction both with
    | nil => exact ⟨[], .nil, .nil⟩
    | cons one _ ih =>
        obtain ⟨b, first, second⟩ := one
        obtain ⟨bs, firsts, seconds⟩ := ih
        exact ⟨b :: bs, .cons first firsts, .cons second seconds⟩

theorem attachRelations_ok_iff {relations : List Relation} {records attached : List Record} :
    engine.attachRelations fetch records relations = .ok attached ↔
      List.Forall₂ (fun record one => engine.attachRelations fetch [record] relations = .ok [one])
        records attached := by
  induction relations generalizing records attached with
  | nil => simp [attachRelations, List.forall₂_eq_eq_eq]
  | cons relation rest ih =>
      have single (record one : Record) :
          engine.attachRelations fetch [record] (relation :: rest) = .ok [one] ↔
            ∃ next, engine.attach fetch relation record = .ok next ∧
              engine.attachRelations fetch [next] rest = .ok [one] := by
        rw [attachRelations, except_bind_ok_iff]
        constructor
        · rintro ⟨_, first, later⟩
          obtain ⟨next, attaches, rfl⟩ := attachAll_single.mp first
          exact ⟨next, attaches, later⟩
        · rintro ⟨next, attaches, later⟩
          exact ⟨[next], attachAll_single.mpr ⟨next, attaches, rfl⟩, later⟩
      simp only [single]
      rw [attachRelations, except_bind_ok_iff, ← forall₂_comp]
      exact exists_congr fun next => and_congr attachAll_ok_iff ih

theorem selected_each (parameters : Parameters) :
    ∃ select : Record → Record, ∀ records, selected parameters records = records.map select := by
  cases text : given? parameters.select with
  | none => exact ⟨id, fun records => by simp [selected, text]⟩
  | some items => exact ⟨(·.only (listItems (some items))), fun records => by simp only [selected, text]⟩

/-- Records are shaped one by one, if there are any: no record, no failure. -/
theorem shape_ok_iff {source : Option Fetch} {parameters : Parameters} {records shaped : List Record}
    (nonempty : records ≠ []) :
    engine.shape source parameters records = .ok shaped ↔
      List.Forall₂ (fun record one => engine.shape source parameters [record] = .ok [one])
        records shaped := by
  obtain ⟨select, selects⟩ := selected_each parameters
  have never {fault : Record → Except Fault (List Record)}
      (fails : ∀ record one, fault record ≠ .ok [one]) :
      ¬ List.Forall₂ (fun record one => fault record = .ok [one]) records shaped := by
    intro each
    cases each with
    | nil => exact nonempty rfl
    | cons first _ => exact fails _ _ first
  simp only [shape_eq, selects, List.map_cons, List.map_nil]
  cases given? parameters.load with
  | none =>
      simp only [Except.ok.injEq, List.cons.injEq, and_true]
      rw [← List.forall₂_eq_eq_eq, List.forall₂_map_left_iff]
  | some text =>
      cases source with
      | none => exact iff_of_false nofun (never fun _ _ => nofun)
      | some fetch =>
          simp only
          cases Relation.ofParameter (some text) with
          | error refusal => exact iff_of_false nofun (never fun _ _ => nofun)
          | ok relations =>
              simp only
              rw [attachRelations_ok_iff, List.forall₂_map_left_iff]

theorem shape_each {source : Option Fetch} {parameters : Parameters} {records shaped : List Record}
    (h : engine.shape source parameters records = .ok shaped) :
    List.Forall₂ (fun record one => engine.shape source parameters [record] = .ok [one])
      records shaped := by
  by_cases none : records = []
  · subst none
    rw [List.length_eq_zero_iff.mp (length_shape h)]
    exact .nil
  · exact (shape_ok_iff none).mp h

end GuardedStore.Query.Engine
