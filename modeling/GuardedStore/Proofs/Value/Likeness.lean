import Mathlib
import GuardedStore.Value.Entries
import GuardedStore.Value.Record

/-! # Records that look alike

Of a record, its fields are seen and whether a list or object in a field holds itself. The numbers of the
lists and objects are not. Two records may look alike but for some hidden fields; whatever is done to both
of them without looking at these leaves records that look alike but for them.
-/

namespace GuardedStore

/-- The same keys stand in the same order in both lists, and what stands under them is related. -/
def KeyByKey {κ α β : Type} (R : α → β → Prop) : List (κ × α) → List (κ × β) → Prop :=
  List.Forall₂ fun entry other => entry.1 = other.1 ∧ R entry.2 other.2

theorem Entries.rel_get? {α β : Type} {R : α → β → Prop} {entries : Entries α} {others : Entries β}
    (h : KeyByKey R entries others) (name : String) :
    Option.Rel R (get? entries name) (get? others name) := by
  induction h with
  | nil => exact .none
  | @cons entry other _ _ first _ ih =>
      obtain ⟨key, value⟩ := entry
      obtain ⟨key', value'⟩ := other
      obtain ⟨rfl, related⟩ := first
      simp only [get?_cons]
      split
      · exact .some related
      · exact ih

namespace Entries

variable {α : Type}

theorem filter_set (keep : String → Bool) (entries : Entries α) (name : String) (value : α) :
    (set entries name value).filter (fun entry => keep entry.1) =
      if keep name then set (entries.filter fun entry => keep entry.1) name value
      else entries.filter fun entry => keep entry.1 := by
  induction entries with
  | nil => by_cases kept : keep name <;> simp [set, kept]
  | cons entry rest ih =>
      obtain ⟨key, old⟩ := entry
      by_cases same : key = name
      · subst same
        by_cases kept : keep key <;> simp [set, kept]
      · by_cases kept : keep key <;> by_cases kept' : keep name <;>
          simp [set, same, kept, kept', ih]

theorem filter_overlay (keep : String → Bool) (entries others : Entries α) :
    (overlay entries others).filter (fun entry => keep entry.1) =
      overlay (entries.filter fun entry => keep entry.1) (others.filter fun entry => keep entry.1) := by
  induction others generalizing entries with
  | nil => rfl
  | cons entry rest ih =>
      obtain ⟨name, value⟩ := entry
      rw [overlay_cons, ih, filter_set]
      by_cases kept : keep name <;> simp [kept, overlay_cons]

theorem filter_picked (keep : String → Bool) (entries : Entries α) (names : List String) :
    (names.filterMap fun key => (get? entries key).map (key, ·)).filter (fun entry => keep entry.1) =
      (names.filter keep).filterMap fun key => (get? entries key).map (key, ·) := by
  induction names with
  | nil => rfl
  | cons key rest ih =>
      by_cases kept : keep key <;> cases found : get? entries key <;> simp_all

/-- Entries that are picked by name are set over others. -/
theorem get?_overlay_picked (entries others : Entries α) (names : List String) (name : String) :
    get? (overlay others (names.filterMap fun key => (get? entries key).map (key, ·))) name =
      if name ∈ names then (get? entries name).or (get? others name) else get? others name := by
  induction names generalizing others with
  | nil => rfl
  | cons key rest ih =>
      rw [List.filterMap_cons]
      cases found : get? entries key with
      | none =>
          simp only [Option.map_none, ih]
          by_cases same : name = key <;> by_cases later : name ∈ rest <;> simp_all
      | some value =>
          rw [Option.map_some, overlay_cons, ih, get?_set]
          by_cases same : key = name
          · subst same
            simp [found]
          · simp [same, Ne.symm same]

theorem has_eq_isSome (entries : Entries α) (name : String) :
    has entries name = (get? entries name).isSome := by
  induction entries with
  | nil => rfl
  | cons entry rest ih =>
      obtain ⟨key, value⟩ := entry
      rw [get?_cons, has, List.any_cons, ← has, ih]
      by_cases same : key = name <;> simp [same]

theorem get?_append (entries others : Entries α) (name : String) :
    get? (entries ++ others) name = (get? entries name).or (get? others name) := by
  induction entries with
  | nil => rfl
  | cons entry rest ih =>
      obtain ⟨key, value⟩ := entry
      rw [List.cons_append, get?_cons, get?_cons, ih]
      split <;> rfl

end Entries

namespace Value

variable {R : Nat → Nat → Prop}

/-- Numbers that go together are equal exactly when those that they go with are. -/
def Renumbers (R : Nat → Nat → Prop) : Prop :=
  ∀ {a b a' b'}, R a a' → R b b' → (a = b ↔ a' = b')

theorem Renumbers.contains_eq (renumbers : Renumbers R) {around around' : List Nat}
    (h : List.Forall₂ R around around') {number number' : Nat} (same : R number number') :
    around.contains number = around'.contains number' := by
  induction h with
  | nil => rfl
  | cons first _ ih =>
      simp only [List.contains_cons, ih, Bool.beq_eq_decide_eq, renumbers same first]

/-- Two searches for what holds itself have ended alike, with numbers left that go together. -/
def EndAlike (R : Nat → Nat → Prop) (one other : Bool × List Nat) : Prop :=
  one.1 = other.1 ∧ List.Forall₂ R one.2 other.2

mutual

/-- Whether something holds itself does not depend on how its lists and objects are numbered. -/
theorem Renumbers.holdsItself_alike (renumbers : Renumbers R)
    {around around' numbers numbers' : List Nat} (inside : List.Forall₂ R around around')
    (same : List.Forall₂ R numbers numbers') (v : Value) :
    EndAlike R (holdsItself around numbers v) (holdsItself around' numbers' v) := by
  cases v with
  | null | bool | int | float | str => cases same <;> exact ⟨rfl, by constructor <;> assumption⟩
  | list items =>
      cases same with
      | nil => exact ⟨rfl, .nil⟩
      | cons first rest =>
          simp only [holdsItself, renumbers.contains_eq inside first]
          split
          · exact ⟨rfl, rest⟩
          · exact renumbers.someHoldItself_alike (.cons first inside) rest items
  | object fields =>
      cases same with
      | nil => exact ⟨rfl, .nil⟩
      | cons first rest =>
          simp only [holdsItself, renumbers.contains_eq inside first]
          split
          · exact ⟨rfl, rest⟩
          · exact renumbers.someFieldHoldsItself_alike (.cons first inside) rest fields
termination_by sizeOf v

theorem Renumbers.someHoldItself_alike (renumbers : Renumbers R)
    {around around' numbers numbers' : List Nat} (inside : List.Forall₂ R around around')
    (same : List.Forall₂ R numbers numbers') (vs : List Value) :
    EndAlike R (someHoldItself around numbers vs) (someHoldItself around' numbers' vs) := by
  cases vs with
  | nil => exact ⟨rfl, same⟩
  | cons v vs =>
      obtain ⟨first, left⟩ := renumbers.holdsItself_alike inside same v
      obtain ⟨others, left⟩ := renumbers.someHoldItself_alike inside left vs
      exact ⟨congrArg₂ or first others, left⟩
termination_by sizeOf vs

theorem Renumbers.someFieldHoldsItself_alike (renumbers : Renumbers R)
    {around around' numbers numbers' : List Nat} (inside : List.Forall₂ R around around')
    (same : List.Forall₂ R numbers numbers') (fields : List (String × Value)) :
    EndAlike R (someFieldHoldsItself around numbers fields)
      (someFieldHoldsItself around' numbers' fields) := by
  cases fields with
  | nil => exact ⟨rfl, same⟩
  | cons field rest =>
      obtain ⟨name, v⟩ := field
      obtain ⟨first, left⟩ := renumbers.holdsItself_alike inside same v
      obtain ⟨others, left⟩ := renumbers.someFieldHoldsItself_alike inside left rest
      exact ⟨congrArg₂ or first others, left⟩
termination_by sizeOf fields

end

theorem holdsItself_map {f : Nat → Nat} (distinct : Function.Injective f) (numbers : List Nat)
    (v : Value) : (holdsItself [] (numbers.map f) v).1 = (holdsItself [] numbers v).1 := by
  have renumbers : Renumbers fun a b => f a = b := by
    rintro a b _ _ rfl rfl
    exact distinct.eq_iff.symm
  have same : List.Forall₂ (fun a b => f a = b) numbers (numbers.map f) :=
    List.forall₂_map_right_iff.mpr (List.forall₂_same.mpr fun _ _ => rfl)
  exact (renumbers.holdsItself_alike .nil same v).1.symm

end Value

namespace Record

theorem get?_only (record : Record) (names : List String) (name : String) :
    Entries.get? (record.only names).fields name =
      if name ∈ names then Entries.get? record.fields name else none := by
  simp [only, Entries.ofPairs, Entries.get?_overlay_picked]

theorem get?_without (record : Record) (names : List String) (name : String) :
    Entries.get? (record.without names).fields name =
      if name ∈ names then none else Entries.get? record.fields name := by
  have filtered := Entries.get?_filter (fun key => !names.contains key) record.fields name
  by_cases listed : name ∈ names <;> simpa [without, listed] using filtered

/-- Two records look alike, some hidden fields apart. -/
structure AlikeBut (hidden : List String) (one other : Record) : Prop where
  fields : (one.without hidden).fields = (other.without hidden).fields
  circular : ∀ name ∉ hidden, one.isCircularAt name = other.isCircularAt name

namespace AlikeBut

variable {hidden others : List String} {one other third : Record} {name : String}

theorem refl (hidden : List String) (record : Record) : AlikeBut hidden record record :=
  ⟨rfl, fun _ _ => rfl⟩

theorem symm (h : AlikeBut hidden one other) : AlikeBut hidden other one :=
  ⟨h.fields.symm, fun name seen => (h.circular name seen).symm⟩

theorem trans (h : AlikeBut hidden one other) (h' : AlikeBut hidden other third) :
    AlikeBut hidden one third :=
  ⟨h.fields.trans h'.fields, fun name seen => (h.circular name seen).trans (h'.circular name seen)⟩

theorem get? (h : AlikeBut hidden one other) (seen : name ∉ hidden) :
    Entries.get? one.fields name = Entries.get? other.fields name := by
  have same := congrArg (Entries.get? · name) h.fields
  simpa [get?_without, seen] using same

theorem value (h : AlikeBut hidden one other) (seen : name ∉ hidden) :
    one.value name = other.value name := by
  simp only [Record.value, Value.fieldOrNull, h.get? seen]

theorem has (h : AlikeBut hidden one other) (seen : name ∉ hidden) :
    Entries.has one.fields name = Entries.has other.fields name := by
  rw [Entries.has_eq_isSome, Entries.has_eq_isSome, h.get? seen]

theorem mono (h : AlikeBut hidden one other) (more : hidden ⊆ others) : AlikeBut others one other where
  fields := by
    have twice (record : Record) :
        ((record.without hidden).without others).fields = (record.without others).fields := by
      simp only [without, List.filter_filter]
      refine List.filter_congr fun field _ => ?_
      by_cases listed : field.1 ∈ hidden
      · simp [listed, more listed]
      · simp [listed]
    rw [← twice one, ← twice other]
    exact congrArg (List.filter fun field => !others.contains field.1) h.fields
  circular name seen := h.circular name fun listed => seen (more listed)

end AlikeBut

variable {hidden names : List String} {one other : Record}

theorem isCircularAt_congr {record record' : Record} {name : String}
    (numbers : Entries.get? record.identities name = Entries.get? record'.identities name)
    (same : record.value name = record'.value name) :
    record.isCircularAt name = record'.isCircularAt name := by
  simp only [isCircularAt, numbers, same]

theorem isCircularAt_of_none {record : Record} {name : String}
    (numbers : Entries.get? record.identities name = none) : record.isCircularAt name = false := by
  simp only [isCircularAt, numbers]

theorem value_set_of_ne (record : Record) {name other : String} (ne : name ≠ other) (v : Value) :
    (record.set name v).value other = record.value other := by
  simp only [Record.value, Value.fieldOrNull, set, Entries.get?_set_of_ne ne]

theorem isCircularAt_set (record : Record) (name : String) (v : Value) (other : String) :
    (record.set name v).isCircularAt other =
      if name = other then false else record.isCircularAt other := by
  by_cases same : name = other
  · rw [if_pos same, isCircularAt_of_none]
    simp [set, Entries.get?_erase, same]
  · rw [if_neg same]
    refine isCircularAt_congr ?_ (value_set_of_ne record same v)
    simp [set, Entries.get?_erase, same]

theorem fields_set_without (record : Record) (name : String) (v : Value) (hidden : List String) :
    ((record.set name v).without hidden).fields =
      if name ∈ hidden then (record.without hidden).fields
      else Entries.set (record.without hidden).fields name v := by
  have filtered := Entries.filter_set (fun key => !hidden.contains key) record.fields name v
  by_cases listed : name ∈ hidden <;> simpa [without, set, listed] using filtered

theorem AlikeBut.set (h : AlikeBut hidden one other) (name : String) (v : Value) :
    AlikeBut hidden (one.set name v) (other.set name v) where
  fields := by
    rw [fields_set_without, fields_set_without, h.fields]
  circular other seen := by
    rw [isCircularAt_set, isCircularAt_set, h.circular other seen]

theorem value_only (record : Record) (names : List String) (name : String) :
    (record.only names).value name = if name ∈ names then record.value name else .null := by
  simp only [Record.value, Value.fieldOrNull, get?_only]
  split <;> rfl

theorem isCircularAt_only (record : Record) (names : List String) (name : String) :
    (record.only names).isCircularAt name =
      if name ∈ names then record.isCircularAt name else false := by
  have kept := Entries.get?_filter names.contains record.identities name
  by_cases listed : name ∈ names
  · rw [if_pos listed]
    refine isCircularAt_congr ?_ ?_
    · simpa [only, listed] using kept
    · rw [value_only, if_pos listed]
  · rw [if_neg listed, isCircularAt_of_none]
    simpa [only, listed] using kept

theorem AlikeBut.only (h : AlikeBut hidden one other) (names : List String) :
    AlikeBut hidden (one.only names) (other.only names) where
  fields := by
    have picked (record : Record) : ((record.only names).without hidden).fields =
        Entries.overlay [] ((names.filter fun key => !hidden.contains key).filterMap fun key =>
          (Entries.get? record.fields key).map (key, ·)) := by
      rw [← Entries.filter_picked, without, Record.only, Entries.ofPairs]
      exact Entries.filter_overlay (fun key => !hidden.contains key) [] _
    rw [picked one, picked other]
    congr 1
    refine List.filterMap_congr fun key member => ?_
    have seen : key ∉ hidden := by simpa using (List.mem_filter.mp member).2
    rw [h.get? seen]
  circular name seen := by
    rw [isCircularAt_only, isCircularAt_only, h.circular name seen]

/-- Whether a record that is attached to others holds itself. -/
def isLooped (attached : Record) : Bool :=
  !attached.identities.isEmpty &&
    (Value.holdsItself [] attached.numbers (.object attached.fields)).1

theorem value_embed_self (record attached : Record) (name : String) :
    (record.embed name attached).value name = .object attached.fields := by
  simp only [embed]
  split <;> simp [Record.value, Value.fieldOrNull, set]

theorem value_embed_of_ne (record attached : Record) {name other : String} (ne : name ≠ other) :
    (record.embed name attached).value other = record.value other := by
  rw [← value_set_of_ne record ne (.object attached.fields)]
  simp only [embed]
  split <;> rfl

theorem isCircularAt_embed (record attached : Record) (name other : String) :
    (record.embed name attached).isCircularAt other =
      if name = other then attached.isLooped else record.isCircularAt other := by
  have plain := isCircularAt_set record name (.object attached.fields) other
  have held := value_embed_self record attached name
  revert held
  simp only [embed, isLooped]
  intro held
  cases numbered : attached.identities.isEmpty with
  | true => simpa using plain
  | false =>
      simp only [numbered, Bool.false_eq_true, if_false, Bool.not_false, Bool.true_and] at held ⊢
      by_cases same : name = other
      · subst same
        have looked := Value.holdsItself_map (add_left_injective record.bound) attached.numbers
          (.object attached.fields)
        rw [if_pos rfl, isCircularAt, held]
        simp only [set, Entries.get?_append, Entries.get?_erase, if_true, Option.none_or,
          Entries.get?_cons, looked]
      · rw [if_neg same, ← plain.trans (if_neg same)]
        refine isCircularAt_congr ?_ rfl
        simp [Entries.get?_append, Entries.get?_cons, same]

theorem AlikeBut.embed (h : AlikeBut hidden one other) (name : String) (attached : Record) :
    AlikeBut hidden (one.embed name attached) (other.embed name attached) where
  fields := by
    have fields (record : Record) :
        ((record.embed name attached).without hidden).fields =
          ((record.set name (.object attached.fields)).without hidden).fields := by
      simp only [Record.embed]
      split <;> rfl
    rw [fields one, fields other]
    exact (h.set name (.object attached.fields)).fields
  circular other seen := by
    rw [isCircularAt_embed, isCircularAt_embed, h.circular other seen]

theorem isCircularAt_without (record : Record) (names : List String) (name : String) :
    (record.without names).isCircularAt name =
      if name ∈ names then false else record.isCircularAt name := by
  have kept := Entries.get?_filter (fun key => !names.contains key) record.identities name
  by_cases listed : name ∈ names
  · rw [if_pos listed, isCircularAt_of_none]
    simpa [without, listed] using kept
  · rw [if_neg listed]
    refine isCircularAt_congr ?_ ?_
    · simpa [without, listed] using kept
    · simp [Record.value, Value.fieldOrNull, get?_without, listed]

theorem AlikeBut.without (h : AlikeBut hidden one other) (covered : hidden ⊆ names) :
    AlikeBut [] (one.without names) (other.without names) where
  fields := by
    have all (record : Record) : (record.without []).fields = record.fields := by
      simp [Record.without]
    rw [all, all]
    exact (h.mono covered).fields
  circular name _ := by
    rw [isCircularAt_without, isCircularAt_without]
    split
    · rfl
    · rename_i seen
      exact h.circular name fun listed => seen (covered listed)

theorem AlikeBut.fields_eq (h : AlikeBut [] one other) : one.fields = other.fields := by
  simpa [Record.without] using h.fields

theorem AlikeBut.isCircular_eq (h : AlikeBut [] one other) : one.isCircular = other.isCircular := by
  have same : one.isCircularAt = other.isCircularAt :=
    funext fun name => h.circular name List.not_mem_nil
  simp only [isCircular, h.fields_eq, same]

end Record

end GuardedStore
