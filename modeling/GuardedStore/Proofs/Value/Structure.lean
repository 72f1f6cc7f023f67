import Mathlib
import GuardedStore.Proofs.Value.Symmetry

/-! # Structure

Two values have one structure if they are of one kind and have the same content at every depth, the order of
fields apart. Strict equality asks for this, but inside of lists and objects it takes a truth value for the
number that it stands for.
-/

namespace GuardedStore

namespace Value

/-- What is shown of values without parts, of lists from their items and of objects from the values of their
fields, holds of all values. -/
theorem rec_parts {motive : Value → Prop} (single : ∀ v, v.isContainer = false → motive v)
    (list : ∀ items, (∀ v ∈ items, motive v) → motive (.list items))
    (object : ∀ fields : Fields, (∀ name v, (name, v) ∈ fields → motive v) → motive (.object fields))
    (v : Value) : motive v := by
  cases v with
  | null | bool | int | float | str => exact single _ rfl
  | list items => exact list items fun v _ => rec_parts single list object v
  | object fields => exact object fields fun _ v _ => rec_parts single list object v
termination_by sizeOf v
decreasing_by
  all_goals rename_i member
  all_goals have smaller := List.sizeOf_lt_of_mem member
  all_goals simp_wf
  · omega
  · simp only [Prod.mk.sizeOf_spec] at smaller
    omega

mutual

/-- Whether no part of a value is a binary64 number. -/
def isFloatless : Value → Bool
  | .float _ => false
  | .list items => areFloatless items
  | .object fields => fieldsAreFloatless fields
  | _ => true

def areFloatless : List Value → Bool
  | [] => true
  | v :: vs => isFloatless v && areFloatless vs

def fieldsAreFloatless : List (String × Value) → Bool
  | [] => true
  | (_, v) :: rest => isFloatless v && fieldsAreFloatless rest

end

theorem isFloatless_of_mem {items : List Value} (h : (Value.list items).isFloatless = true) {v : Value}
    (member : v ∈ items) : v.isFloatless = true := by
  rw [isFloatless] at h
  induction items with
  | nil => cases member
  | cons first rest ih =>
      simp only [areFloatless, Bool.and_eq_true] at h
      rcases List.mem_cons.mp member with rfl | later
      · exact h.1
      · exact ih h.2 later

theorem isFloatless_of_mem_fields {fields : Fields} (h : (Value.object fields).isFloatless = true)
    {name : String} {v : Value} (member : (name, v) ∈ fields) : v.isFloatless = true := by
  rw [isFloatless] at h
  induction fields with
  | nil => cases member
  | cons field rest ih =>
      obtain ⟨key, first⟩ := field
      simp only [fieldsAreFloatless, Bool.and_eq_true] at h
      rcases List.mem_cons.mp member with here | later
      · cases here
        exact h.1
      · exact ih h.2 later

theorem isProper_of_mem {items : List Value} (h : (Value.list items).isProper = true) {v : Value}
    (member : v ∈ items) : v.isProper = true := by
  rw [isProper] at h
  induction items with
  | nil => cases member
  | cons first rest ih =>
      simp only [areProper, Bool.and_eq_true] at h
      rcases List.mem_cons.mp member with rfl | later
      · exact h.1
      · exact ih h.2 later

/-- The values are of one kind and have the same content at every depth. The order of the fields of an object
does not matter. -/
inductive SameStructure : Value → Value → Prop
  | null : SameStructure .null .null
  | bool (b : Bool) : SameStructure (.bool b) (.bool b)
  | int (n : Int) : SameStructure (.int n) (.int n)
  | str (s : String) : SameStructure (.str s) (.str s)
  | list {as bs : List Value} (lengths : as.length = bs.length)
      (items : ∀ (i : Nat) a b, as[i]? = some a → bs[i]? = some b → SameStructure a b) :
      SameStructure (.list as) (.list bs)
  | object {as bs : Fields} (names : ∀ name, name ∈ Entries.names as ↔ name ∈ Entries.names bs)
      (values : ∀ name a b, Entries.get? as name = some a → Entries.get? bs name = some b →
        SameStructure a b) :
      SameStructure (.object as) (.object bs)

/-- The number that a truth value stands for. -/
def flagNumber (b : Bool) : Int :=
  if b then 1 else 0

mutual

/-- A value with the numbers that truth values stand for in their places. -/
def numbered : Value → Value
  | .bool b => .int (flagNumber b)
  | .list items => .list (numberedItems items)
  | .object fields => .object (numberedFields fields)
  | v => v

def numberedItems : List Value → List Value
  | [] => []
  | v :: vs => numbered v :: numberedItems vs

def numberedFields : Fields → Fields
  | [] => []
  | (name, v) :: rest => (name, numbered v) :: numberedFields rest

end

/-- A value with the numbers that truth values inside of it stand for in their places. -/
def numberedInside : Value → Value
  | .list items => .list (numberedItems items)
  | .object fields => .object (numberedFields fields)
  | v => v

theorem numberedItems_eq (items : List Value) : numberedItems items = items.map numbered := by
  induction items with
  | nil => rfl
  | cons v vs ih => rw [numberedItems, ih, List.map_cons]

theorem numberedFields_eq (fields : Fields) :
    numberedFields fields = fields.map fun field => (field.1, numbered field.2) := by
  induction fields with
  | nil => rfl
  | cons field rest ih =>
      obtain ⟨name, v⟩ := field
      rw [numberedFields, ih, List.map_cons]

theorem numbered_list (items : List Value) : (Value.list items).numbered = .list (items.map numbered) := by
  rw [numbered, numberedItems_eq]

theorem numbered_object (fields : Fields) :
    (Value.object fields).numbered = .object (fields.map fun field => (field.1, numbered field.2)) := by
  rw [numbered, numberedFields_eq]

theorem get?_numberedFields (fields : Fields) (name : String) :
    Entries.get? (fields.map fun field => (field.1, numbered field.2)) name =
      (Entries.get? fields name).map numbered :=
  Entries.get?_map numbered fields name

theorem sameStructure_numbered_list {as bs : List Value} :
    SameStructure (Value.list as).numbered (Value.list bs).numbered ↔ as.length = bs.length ∧
      ∀ (i : Nat) a b, as[i]? = some a → bs[i]? = some b → SameStructure a.numbered b.numbered := by
  rw [numbered_list, numbered_list]
  constructor
  · intro h
    cases h with
    | list lengths items =>
        refine ⟨by simpa using lengths, ?_⟩
        intro i a b left right
        exact items i _ _ (by rw [List.getElem?_map, left]; rfl) (by rw [List.getElem?_map, right]; rfl)
  · intro h
    obtain ⟨lengths, items⟩ := h
    apply SameStructure.list (by simpa using lengths)
    intro i a b left right
    rw [List.getElem?_map, Option.map_eq_some_iff] at left right
    obtain ⟨a, left, rfl⟩ := left
    obtain ⟨b, right, rfl⟩ := right
    exact items i a b left right

theorem sameStructure_numbered_object {as bs : Fields} :
    SameStructure (Value.object as).numbered (Value.object bs).numbered ↔
      (∀ name, name ∈ Entries.names as ↔ name ∈ Entries.names bs) ∧
      ∀ name a b, Entries.get? as name = some a → Entries.get? bs name = some b →
        SameStructure a.numbered b.numbered := by
  rw [numbered_object, numbered_object]
  constructor
  · intro h
    cases h with
    | object names values =>
        refine ⟨by simpa only [Entries.names_map] using names, ?_⟩
        intro name a b left right
        exact values name _ _ (by rw [get?_numberedFields, left]; rfl) (by rw [get?_numberedFields, right]; rfl)
  · intro h
    obtain ⟨names, values⟩ := h
    apply SameStructure.object (by simpa only [Entries.names_map] using names)
    intro name a b left right
    rw [get?_numberedFields, Option.map_eq_some_iff] at left right
    obtain ⟨a, left, rfl⟩ := left
    obtain ⟨b, right, rfl⟩ := right
    exact values name a b left right

theorem sameItems_iff {as bs : List Value} :
    sameItems as bs = true ↔ as.length = bs.length ∧ ∀ (i : Nat) a b, as[i]? = some a → bs[i]? = some b →
      (sameNan a b || same a b) = true := by
  induction as generalizing bs with
  | nil => cases bs <;> simp [sameItems]
  | cons first as ih =>
      cases bs with
      | nil => simp [sameItems]
      | cons other bs =>
          simp only [sameItems, Bool.and_eq_true, ih, List.length_cons, Nat.add_right_cancel_iff]
          constructor
          · rintro ⟨here, lengths, later⟩
            refine ⟨lengths, ?_⟩
            intro i a b left right
            cases i with
            | zero =>
                cases left
                cases right
                exact here
            | succ i => exact later i a b left right
          · rintro ⟨lengths, all⟩
            exact ⟨all 0 first other rfl rfl, lengths, fun i a b left right => all (i + 1) a b left right⟩

theorem sameNan_of_isFloatless {a : Value} (h : a.isFloatless = true) (b : Value) : sameNan a b = false := by
  cases a with
  | float x => cases h
  | null | bool | int | str | list | object => rfl

theorem ofInt_inj {n m : Int} : Place.ofInt n = Place.ofInt m ↔ n = m := by
  have positive (k : Nat) : ((Nat.pow 2 k : Nat) : Int) ≠ 0 :=
    Int.natCast_ne_zero.mpr (Nat.pow_pos Nat.two_pos).ne'
  simp only [Place.ofInt, Place.at.injEq]
  generalize 1074 = k
  exact mul_left_inj' (positive k)

theorem samePlace_int {n m : Int} : samePlace (.int n) (.int m) = true ↔ n = m := by
  simp only [samePlace, place?, beq_iff_eq, compare_place_eq_iff, ofInt_inj]

theorem same_int_iff {n : Int} {b : Value} (floatless : b.isFloatless = true) :
    same (.int n) b = true ↔ b.numbered = .int n := by
  cases b with
  | float x => cases floatless
  | int m =>
      change samePlace (.int n) (.int m) = true ↔ Value.int m = .int n
      rw [samePlace_int, Value.int.injEq, eq_comm]
  | bool f =>
      change samePlace (.int n) (.int (flagNumber f)) = true ↔ Value.int (flagNumber f) = .int n
      rw [samePlace_int, Value.int.injEq, eq_comm]
  | null | str | list | object => exact iff_of_false nofun nofun

theorem same_bool (f : Bool) (b : Value) : same (.bool f) b = same (.int (flagNumber f)) b := by
  cases b <;> rfl

theorem sameStructure_int_iff {n : Int} {v : Value} : SameStructure (.int n) v ↔ v = .int n := by
  constructor
  · intro h
    cases h
    rfl
  · rintro rfl
    exact .int n

/-- A value without parts is equal to those that have its structure once truth values are numbers. -/
theorem same_single_iff {a b : Value} (single : a.isContainer = false) (floatless : a.isFloatless = true)
    (floatless' : b.isFloatless = true) : same a b = true ↔ SameStructure a.numbered b.numbered := by
  cases a with
  | list | object => cases single
  | float x => cases floatless
  | bool f => rw [same_bool, same_int_iff floatless', numbered, sameStructure_int_iff]
  | int n =>
      have itself : (Value.int n).numbered = .int n := rfl
      rw [same_int_iff floatless', itself, sameStructure_int_iff]
  | null =>
      cases b with
      | float x => cases floatless'
      | null => exact iff_of_true rfl .null
      | bool | int | str | list | object =>
          apply iff_of_false Bool.false_ne_true
          intro h
          cases h
  | str s =>
      cases b with
      | float x => cases floatless'
      | str t =>
          simp only [same, decide_eq_true_eq, numbered]
          constructor
          · intro equal
            rw [equal]
            exact .str t
          · intro h
            cases h
            rfl
      | null | bool | int | list | object =>
          apply iff_of_false Bool.false_ne_true
          intro h
          cases h

theorem same_list_iff {as bs : List Value} (part : ∀ (i : Nat) a b, as[i]? = some a → bs[i]? = some b →
    ((sameNan a b || same a b) = true ↔ SameStructure a.numbered b.numbered)) :
    same (.list as) (.list bs) = true ↔ SameStructure (Value.list as).numbered (Value.list bs).numbered := by
  rw [same, sameItems_iff, sameStructure_numbered_list]
  constructor
  · intro h
    obtain ⟨lengths, equal⟩ := h
    exact ⟨lengths, fun i a b left right => (part i a b left right).mp (equal i a b left right)⟩
  · intro h
    obtain ⟨lengths, alike⟩ := h
    exact ⟨lengths, fun i a b left right => (part i a b left right).mpr (alike i a b left right)⟩

/-- Objects are equal if they have the same fields and the values of these are equal. -/
theorem same_object_iff {as bs : Fields} (unique : (Entries.names as).Nodup)
    (unique' : (Entries.names bs).Nodup)
    (part : ∀ name a b, Entries.get? as name = some a → Entries.get? bs name = some b →
      ((sameNan a b || same a b) = true ↔ SameStructure a.numbered b.numbered)) :
    same (.object as) (.object bs) = true ↔
      SameStructure (Value.object as).numbered (Value.object bs).numbered := by
  rw [same, Bool.and_eq_true, decide_eq_true_eq, sameStructure_numbered_object]
  constructor
  · intro h
    obtain ⟨lengths, paired⟩ := h
    refine ⟨names_of_sameFields unique lengths paired, ?_⟩
    intro name a b left right
    obtain ⟨other, found, equal⟩ := sameFields_iff.mp paired name a (Entries.mem_of_get? left)
    cases right.symm.trans found
    exact (part name a b left right).mp equal
  · intro h
    obtain ⟨names, alike⟩ := h
    have perm : (Entries.names as).Perm (Entries.names bs) :=
      (List.perm_ext_iff_of_nodup unique unique').mpr names
    refine ⟨by simpa [Entries.names] using perm.length_eq, sameFields_iff.mpr ?_⟩
    intro name a member
    have known := (names name).mp (Entries.mem_names_iff.mpr ⟨a, member⟩)
    obtain ⟨b, member'⟩ := Entries.mem_names_iff.mp known
    have left := Entries.get?_of_mem unique member
    have right := Entries.get?_of_mem unique' member'
    exact ⟨b, right, (part name a b left right).mpr (alike name a b left right)⟩

/-- Content is equal where the structure is the same once truth values are numbers. -/
theorem same_iff_numbered {a b : Value} (proper : a.isProper = true) (proper' : b.isProper = true)
    (floatless : a.isFloatless = true) (floatless' : b.isFloatless = true) :
    (sameNan a b || same a b) = true ↔ SameStructure a.numbered b.numbered := by
  rw [sameNan_of_isFloatless floatless, Bool.false_or]
  induction a using rec_parts generalizing b with
  | single a single => exact same_single_iff single floatless floatless'
  | list as ih =>
      cases b with
      | float x => cases floatless'
      | null | bool | int | str | object => exact iff_of_false nofun nofun
      | list bs =>
          apply same_list_iff
          intro i a b left right
          have inside := List.mem_of_getElem? left
          have inside' := List.mem_of_getElem? right
          rw [sameNan_of_isFloatless (isFloatless_of_mem floatless inside), Bool.false_or]
          exact ih a inside (isProper_of_mem proper inside) (isProper_of_mem proper' inside')
            (isFloatless_of_mem floatless inside) (isFloatless_of_mem floatless' inside')
  | object as ih =>
      cases b with
      | float x => cases floatless'
      | null | bool | int | str | list => exact iff_of_false nofun nofun
      | object bs =>
          apply same_object_iff (isProper_object_iff.mp proper).1 (isProper_object_iff.mp proper').1
          intro name a b left right
          have inside := Entries.mem_of_get? left
          have inside' := Entries.mem_of_get? right
          rw [sameNan_of_isFloatless (isFloatless_of_mem_fields floatless inside), Bool.false_or]
          exact ih name a inside (isProper_of_get? proper left) (isProper_of_get? proper' right)
            (isFloatless_of_mem_fields floatless inside) (isFloatless_of_mem_fields floatless' inside')

/-- At some place, `x` stands in the left value and `y` in the right one. -/
inductive StandOpposite (x y : Value) : Value → Value → Prop
  | here : StandOpposite x y x y
  | item {as bs : List Value} {i : Nat} {a b : Value} (left : as[i]? = some a) (right : bs[i]? = some b)
      (inside : StandOpposite x y a b) : StandOpposite x y (.list as) (.list bs)
  | field {as bs : Fields} {name : String} {a b : Value} (left : Entries.get? as name = some a)
      (right : Entries.get? bs name = some b) (inside : StandOpposite x y a b) :
      StandOpposite x y (.object as) (.object bs)

/-- A truth value stands opposite to the number that it stands for. -/
def FlagMeetsNumber (a b : Value) : Prop :=
  ∃ flag, StandOpposite (.bool flag) (.int (flagNumber flag)) a b ∨
    StandOpposite (.int (flagNumber flag)) (.bool flag) a b

theorem flagMeetsNumber_of_inside {a b whole whole' : Value}
    (deeper : ∀ x y, StandOpposite x y a b → StandOpposite x y whole whole') (h : FlagMeetsNumber a b) :
    FlagMeetsNumber whole whole' := by
  obtain ⟨flag, opposite⟩ := h
  exact ⟨flag, opposite.imp (deeper _ _) (deeper _ _)⟩

theorem flagNumber_inj {f g : Bool} : flagNumber f = flagNumber g ↔ f = g := by
  cases f <;> cases g <;> simp [flagNumber]

theorem SameStructure.numbered {a b : Value} (h : SameStructure a b) :
    SameStructure a.numbered b.numbered := by
  induction h with
  | null => exact .null
  | bool b => exact .int _
  | int n => exact .int n
  | str s => exact .str s
  | list lengths items ih => exact sameStructure_numbered_list.mpr ⟨lengths, ih⟩
  | object names values ih => exact sameStructure_numbered_object.mpr ⟨names, ih⟩

theorem sameStructure_of_numbered {a b : Value} (apart : ¬ FlagMeetsNumber a b)
    (h : SameStructure a.numbered b.numbered) : SameStructure a b := by
  induction a using rec_parts generalizing b with
  | single a single =>
      cases a with
      | list | object => cases single
      | float x => cases b <;> cases h
      | null =>
          cases b with
          | null => exact .null
          | bool | int | float | str | list | object => cases h
      | str s =>
          cases b with
          | str t => exact h
          | null | bool | int | float | list | object => cases h
      | bool f =>
          have number := sameStructure_int_iff.mp h
          cases b with
          | bool g =>
              obtain rfl := flagNumber_inj.mp (Value.int.inj number)
              exact .bool g
          | int n =>
              cases number
              exact absurd ⟨f, .inl .here⟩ apart
          | null | float | str | list | object => cases number
      | int n =>
          have number := sameStructure_int_iff.mp h
          cases b with
          | bool g =>
              cases number
              exact absurd ⟨g, .inr .here⟩ apart
          | int m => exact h
          | null | float | str | list | object => cases number
  | list as ih =>
      cases b with
      | null | bool | int | float | str | object => cases h
      | list bs =>
          obtain ⟨lengths, items⟩ := sameStructure_numbered_list.mp h
          apply SameStructure.list lengths
          intro i a b left right
          apply ih a (List.mem_of_getElem? left)
          · intro meets
            exact apart (flagMeetsNumber_of_inside (fun _ _ inside => .item left right inside) meets)
          · exact items i a b left right
  | object as ih =>
      cases b with
      | null | bool | int | float | str | list => cases h
      | object bs =>
          obtain ⟨names, values⟩ := sameStructure_numbered_object.mp h
          apply SameStructure.object names
          intro name a b left right
          apply ih name a (Entries.mem_of_get? left)
          · intro meets
            exact apart (flagMeetsNumber_of_inside (fun _ _ inside => .field left right inside) meets)
          · exact values name a b left right

theorem strictEquals_container {a : Value} (container : a.isContainer = true) (b : Value) :
    strictEquals a b = same a b := by
  cases a with
  | null | bool | int | float | str => cases container
  | list | object => cases b <;> rfl

theorem numberedInside_container {a : Value} (container : a.isContainer = true) (b : Value) :
    SameStructure a.numberedInside b.numberedInside ↔ SameStructure a.numbered b.numbered := by
  cases a with
  | null | bool | int | float | str => cases container
  | list as =>
      cases b with
      | list bs => exact Iff.rfl
      | null | bool | int | float | str | object => exact iff_of_false nofun nofun
  | object as =>
      cases b with
      | object bs => exact Iff.rfl
      | null | bool | int | float | str | list => exact iff_of_false nofun nofun

/-- Values without parts are strictly equal if they are one and the same. -/
theorem strictEquals_single {a b : Value} (single : a.isContainer = false) (floatless : a.isFloatless = true)
    (floatless' : b.isFloatless = true) : strictEquals a b = true ↔ SameStructure a b := by
  cases a with
  | list | object => cases single
  | float x => cases floatless
  | null =>
      cases b with
      | null => exact iff_of_true rfl .null
      | bool | int | float | str | list | object => exact iff_of_false nofun nofun
  | bool f =>
      cases b with
      | bool g =>
          change samePlace (.int (flagNumber f)) (.int (flagNumber g)) = true ↔ _
          rw [samePlace_int, flagNumber_inj]
          constructor
          · intro equal
            rw [equal]
            exact .bool g
          · intro h
            cases h
            rfl
      | null | int | float | str | list | object => exact iff_of_false nofun nofun
  | int n =>
      cases b with
      | float x => cases floatless'
      | int m =>
          change samePlace (.int n) (.int m) = true ↔ _
          rw [samePlace_int, sameStructure_int_iff, Value.int.injEq, eq_comm]
      | null | bool | str | list | object => exact iff_of_false nofun nofun
  | str s =>
      cases b with
      | str t => exact same_single_iff rfl rfl rfl
      | null | bool | int | float | list | object => exact iff_of_false nofun nofun

theorem numberedInside_single {a : Value} (single : a.isContainer = false) (b : Value) :
    SameStructure a.numberedInside b.numberedInside ↔ SameStructure a b := by
  cases a with
  | list | object => cases single
  | null | bool | int | float | str =>
      cases b with
      | null | bool | int | float | str => exact Iff.rfl
      | list | object => exact iff_of_false nofun nofun

/-- Two values without binary64 numbers are strictly equal if they have the same structure once the truth
values inside of lists and objects are taken for numbers. This is to have the same structure, unless a truth
value inside of one meets the number that it stands for inside of the other. -/
theorem strictEquals_iff_sameStructure {a b : Value} (proper : a.isProper = true)
    (proper' : b.isProper = true) (floatless : a.isFloatless = true) (floatless' : b.isFloatless = true) :
    (strictEquals a b = true ↔ SameStructure a.numberedInside b.numberedInside) ∧
      ((a.isContainer = true → ¬ FlagMeetsNumber a b) → (strictEquals a b = true ↔ SameStructure a b)) := by
  cases container : a.isContainer with
  | false =>
      have equal := strictEquals_single container floatless floatless'
      exact ⟨equal.trans (numberedInside_single container b).symm, fun _ => equal⟩
  | true =>
      have equal : strictEquals a b = true ↔ SameStructure a.numbered b.numbered := by
        rw [strictEquals_container container, ← same_iff_numbered proper proper' floatless floatless',
          sameNan_of_isFloatless floatless, Bool.false_or]
      refine ⟨equal.trans (numberedInside_container container b).symm, ?_⟩
      intro apart
      rw [equal]
      exact ⟨sameStructure_of_numbered (apart rfl), SameStructure.numbered⟩

/-- A truth value and the number it stands for, in two fields. -/
def onceOn : Value :=
  .object [("on", .bool true), ("count", .int 1)]

/-- The same fields in another order. -/
def onOnce : Value :=
  .object [("count", .int 1), ("on", .bool true)]

theorem onceOn_apart : ¬ FlagMeetsNumber onceOn onOnce := by
  have fields (name : String) (a b : Value)
      (left : Entries.get? [("on", Value.bool true), ("count", .int 1)] name = some a)
      (right : Entries.get? [("count", Value.int 1), ("on", .bool true)] name = some b) :
      a = .bool true ∧ b = .bool true ∨ a = .int 1 ∧ b = .int 1 := by
    simp only [Entries.get?_cons, Entries.get?_nil] at left right
    grind
  intro meets
  obtain ⟨flag, opposite⟩ := meets
  generalize flagNumber flag = n at opposite
  rcases opposite with opposite | opposite
  all_goals
    cases opposite with
    | field left right inside =>
        rcases fields _ _ _ left right with ⟨rfl, rfl⟩ | ⟨rfl, rfl⟩ <;> cases inside

theorem onceOn_strictEquals_iff :
    onceOn.isProper = true ∧ onOnce.isProper = true ∧ onceOn.isFloatless = true ∧
      onOnce.isFloatless = true ∧ ¬ FlagMeetsNumber onceOn onOnce ∧
      (strictEquals onceOn onOnce = true ↔ SameStructure onceOn.numberedInside onOnce.numberedInside) ∧
      (strictEquals onceOn onOnce = true ↔ SameStructure onceOn onOnce) := by
  have proper : onceOn.isProper = true := by decide
  have proper' : onOnce.isProper = true := by decide
  obtain ⟨numbered, apart⟩ := strictEquals_iff_sameStructure proper proper' rfl rfl
  exact ⟨proper, proper', rfl, rfl, onceOn_apart, numbered, apart fun _ => onceOn_apart⟩

/-- A truth value on its own is told from a number, and one in a list is not. -/
theorem flag_in_list_taken_for_number :
    strictEquals (.bool true) (.int 1) = false ∧
      strictEquals (.list [.bool true]) (.list [.int 1]) = true ∧
      ¬ SameStructure (.list [.bool true]) (.list [.int 1]) := by
  refine ⟨rfl, by decide +kernel, ?_⟩
  intro h
  cases h with
  | list lengths items => cases items 0 _ _ rfl rfl

end Value

end GuardedStore
