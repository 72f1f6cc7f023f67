import Mathlib
import GuardedStore.Value.Comparison
import GuardedStore.Value.Entries

/-! # Comparison in both directions

Whether two values count as equal does not depend on which of them comes first, also where their
numeric readings fail, and their order is turned around with them. For the equality of objects this takes
that no field comes twice: of as many fields with different names, each with its equal on the other side,
none is left over there.
-/

namespace GuardedStore

namespace Value

mutual

/-- Whether no object inside a value has two fields of one name, as it is with every JSON value. -/
def isProper : Value → Bool
  | .list items => areProper items
  | .object fields => (Entries.names fields).Nodup && fieldsAreProper fields
  | _ => true

def areProper : List Value → Bool
  | [] => true
  | v :: vs => isProper v && areProper vs

def fieldsAreProper : List (String × Value) → Bool
  | [] => true
  | (_, v) :: rest => isProper v && fieldsAreProper rest

end

theorem isProper_of_mem_fields {fields : Fields} (h : fieldsAreProper fields = true) {name : String}
    {v : Value} (member : (name, v) ∈ fields) : v.isProper = true := by
  induction fields with
  | nil => cases member
  | cons field rest ih =>
      obtain ⟨key, first⟩ := field
      simp only [fieldsAreProper, Bool.and_eq_true] at h
      rcases List.mem_cons.mp member with here | later
      · cases here
        exact h.1
      · exact ih h.2 later

/-- An object is proper if its fields have different names and proper values. -/
theorem isProper_object_iff {fields : Fields} :
    (Value.object fields).isProper = true ↔
      (Entries.names fields).Nodup ∧ fieldsAreProper fields = true := by
  simp [isProper]

theorem isProper_of_get? {fields : Fields} (h : (Value.object fields).isProper = true)
    {name : String} {v : Value} (found : Entries.get? fields name = some v) : v.isProper = true := by
  simp only [Entries.get?, Option.map_eq_some_iff] at found
  obtain ⟨entry, there, rfl⟩ := found
  exact isProper_of_mem_fields (isProper_object_iff.mp h).2 (List.mem_of_find?_eq_some there)

theorem compare_place_eq_iff {p q : Place} : p.compare q = .eq ↔ p = q := by
  cases p <;> cases q <;> simp [Place.compare]

theorem samePlace_symm {a b : Value} (h : samePlace a b = true) : samePlace b a = true := by
  simp only [samePlace] at h ⊢
  cases placed : a.place? with
  | none => simp [placed] at h
  | some p =>
      cases placed' : b.place? with
      | none => simp [placed, placed'] at h
      | some q =>
          simp only [placed, placed', beq_iff_eq, compare_place_eq_iff] at h ⊢
          exact h.symm

theorem sameNan_symm {a b : Value} (h : sameNan a b = true) : sameNan b a = true := by
  unfold sameNan at h ⊢
  split at h
  · simpa [eq_comm] using h
  · cases h

/-- Fields that all have their equals in `whole`, each under its name. -/
theorem sameFields_iff {whole fields : Fields} :
    sameFields whole fields = true ↔ ∀ name a, (name, a) ∈ fields →
      ∃ b, Entries.get? whole name = some b ∧ (sameNan a b || same a b) = true := by
  induction fields with
  | nil => simp [sameFields]
  | cons field rest ih =>
      obtain ⟨key, first⟩ := field
      simp only [sameFields, Bool.and_eq_true, ih, List.mem_cons, Prod.mk.injEq]
      constructor
      · rintro ⟨here, others⟩ name a (⟨rfl, rfl⟩ | later)
        · cases found : Entries.get? whole name with
          | none => simp [found] at here
          | some b => exact ⟨b, rfl, by simpa [found] using here⟩
        · exact others name a later
      · intro all
        refine ⟨?_, fun name a later => all name a (.inr later)⟩
        obtain ⟨b, found, equal⟩ := all key first (.inl ⟨rfl, rfl⟩)
        simpa [found] using equal

/-- Of as many fields with different names, each with its equal on the other side, none is left over. -/
theorem names_of_sameFields {as bs : Fields} (unique : (Entries.names as).Nodup)
    (lengths : as.length = bs.length) (paired : sameFields bs as = true) (name : String) :
    name ∈ Entries.names as ↔ name ∈ Entries.names bs := by
  have inside : ∀ name ∈ Entries.names as, name ∈ Entries.names bs := by
    intro name known
    obtain ⟨a, member⟩ := Entries.mem_names_iff.mp known
    obtain ⟨b, found, -⟩ := sameFields_iff.mp paired name a member
    exact Entries.mem_names_iff.mpr ⟨b, Entries.mem_of_get? found⟩
  have whole : (Entries.names as).Subperm (Entries.names bs) := unique.subperm inside
  have long : (Entries.names bs).length ≤ (Entries.names as).length := by
    simp [Entries.names, lengths]
  exact (whole.perm_of_length_le long).mem_iff

theorem equal_symm {a b : Value} (symm : same a b = true → same b a = true)
    (h : (sameNan a b || same a b) = true) : (sameNan b a || same b a) = true := by
  rw [Bool.or_eq_true] at h ⊢
  rcases h with nan | equal
  · exact .inl (sameNan_symm nan)
  · exact .inr (symm equal)

theorem same_object_symm {as bs : Fields} (uniqueLeft : (Entries.names as).Nodup)
    (uniqueRight : (Entries.names bs).Nodup)
    (symm : ∀ name a b, (name, a) ∈ as → Entries.get? bs name = some b →
      same a b = true → same b a = true)
    (h : same (.object as) (.object bs) = true) : same (.object bs) (.object as) = true := by
  simp only [same, Bool.and_eq_true, decide_eq_true_eq] at h ⊢
  obtain ⟨lengths, paired⟩ := h
  refine ⟨lengths.symm, sameFields_iff.mpr ?_⟩
  intro name b there
  have known := (names_of_sameFields uniqueLeft lengths paired name).mpr
    (Entries.mem_names_iff.mpr ⟨b, there⟩)
  obtain ⟨a, member⟩ := Entries.mem_names_iff.mp known
  obtain ⟨other, found, equal⟩ := sameFields_iff.mp paired name a member
  cases (Entries.get?_of_mem uniqueRight there).symm.trans found
  exact ⟨a, Entries.get?_of_mem uniqueLeft member, equal_symm (symm name a b member found) equal⟩

theorem same_symm (a b : Value) : a.isProper = true → b.isProper = true →
    same a b = true → same b a = true := by
  -- Fields are compared with those of a whole object, so that what is claimed of them is claimed of
  -- each one and its partner there.
  refine same.induct
    (fun a b => a.isProper = true → b.isProper = true → same a b = true → same b a = true)
    (fun whole fields => fieldsAreProper fields = true → ∀ name a b, (name, a) ∈ fields →
      b.isProper = true → same a b = true → same b a = true)
    (fun as bs => areProper as = true → areProper bs = true → sameItems as bs = true →
      sameItems bs as = true)
    ?null ?str ?list ?object ?number ?noItems ?item ?lengths ?noFields ?field a b
  case null => exact fun _ _ _ => rfl
  case str => exact fun s t _ _ h => by simpa [same, eq_comm] using h
  case list =>
    intro as bs items left right h
    rw [isProper] at left right
    rw [same] at h ⊢
    exact items left right h
  case object =>
    intro as bs fields left right h
    obtain ⟨uniqueLeft, properLeft⟩ := isProper_object_iff.mp left
    obtain ⟨uniqueRight, -⟩ := isProper_object_iff.mp right
    refine same_object_symm uniqueLeft uniqueRight ?_ h
    intro name a b member found
    exact fields properLeft name a b member (isProper_of_get? right found)
  case number =>
    intro a b notNull notText notList notObject _ _ h
    rw [same.eq_5 a b notNull notText notList notObject] at h
    rw [same.eq_5 b a]
    · exact samePlace_symm h
    · exact fun right left => notNull left right
    · exact fun t s right left => notText s t left right
    · exact fun bs as right left => notList as bs left right
    · exact fun bs as right left => notObject as bs left right
  case noItems => exact fun _ _ _ => rfl
  case item =>
    intro a as b bs first others left right h
    simp only [areProper, Bool.and_eq_true] at left right
    simp only [sameItems, Bool.and_eq_true] at h ⊢
    exact ⟨equal_symm (first left.1 right.1) h.1, others left.2 right.2 h.2⟩
  case lengths =>
    intro as bs notEmpty notItem _ _ h
    rw [sameItems.eq_3 as bs notEmpty notItem] at h
    cases h
  case noFields =>
    intro whole _ name a b member
    cases member
  case field =>
    intro whole key first rest here others proper name a b member properRight
    simp only [fieldsAreProper, Bool.and_eq_true] at proper
    rcases List.mem_cons.mp member with same | later
    · cases same
      exact here b proper.1 properRight
    · exact others proper.2 name a b later properRight

theorem same_comm {a b : Value} (left : a.isProper = true) (right : b.isProper = true) :
    same a b = same b a :=
  Bool.eq_iff_iff.mpr ⟨same_symm a b left right, same_symm b a right left⟩

theorem sameNumber_comm (x y : Binary64) : sameNumber x y = sameNumber y x := by
  have numbers (x : Binary64) : (Value.float x).place? = x.place? := rfl
  have symm (x y : Binary64) (h : sameNumber x y = true) : sameNumber y x = true :=
    samePlace_symm (show samePlace (.float x) (.float y) = true from h)
  exact Bool.eq_iff_iff.mpr ⟨symm x y, symm y x⟩

/-- The equality of the numeric readings of two values, if they have any. -/
def sameReading (a b : Value) : Except OutOfRange Bool := do
  let x ← a.toNumber?
  let y ← b.toNumber?
  match x, y with
  | some x, some y => return sameNumber x y
  | _, _ => return false

/-- Either of two readings may be taken first, for there is one way only to fail. -/
theorem readings_comm {α β γ : Type} (first : Except OutOfRange α) (second : Except OutOfRange β)
    (f : α → β → Except OutOfRange γ) :
    (first >>= fun x => second >>= fun y => f x y) = second >>= fun y => first >>= fun x => f x y := by
  cases first <;> cases second <;> rfl

theorem sameReading_comm (a b : Value) : sameReading a b = sameReading b a := by
  rw [sameReading, readings_comm, sameReading]
  refine bind_congr fun y => bind_congr fun x => ?_
  cases x with
  | none => cases y <;> rfl
  | some x =>
      cases y with
      | none => rfl
      | some y => exact congrArg Except.ok (sameNumber_comm x y)

theorem looseEquals_of_notNull {a b : Value} (left : a ≠ .null) (right : b ≠ .null) :
    looseEquals a b =
      if a.kind = b.kind ∨ (a.isNumber ∧ b.isNumber) then .ok (same a b)
      else if a.isContainer ∨ b.isContainer then .ok false
      else sameReading a b :=
  looseEquals.eq_4 a b left right fun null => absurd null left

/-- Loose equality has the same outcome in both directions, be it an answer or a failure. -/
theorem looseEquals_comm {a b : Value} (left : a.isProper = true) (right : b.isProper = true) :
    looseEquals a b = looseEquals b a := by
  by_cases nullLeft : a = .null
  · subst nullLeft
    cases b <;> rfl
  by_cases nullRight : b = .null
  · subst nullRight
    cases a <;> rfl
  rw [looseEquals_of_notNull nullLeft nullRight, looseEquals_of_notNull nullRight nullLeft,
    same_comm left right, sameReading_comm a b]
  simp only [eq_comm, and_comm, or_comm]

theorem looseEquals_text_comm (text : String) (v : Value) :
    looseEquals (.str text) v = looseEquals v (.str text) := by
  cases v with
  | list | object => simp [looseEquals, kind, isNumber, isContainer]
  | null | bool | int | float | str => exact looseEquals_comm rfl rfl

theorem samePlace_comm (a b : Value) : samePlace a b = samePlace b a :=
  Bool.eq_iff_iff.mpr ⟨samePlace_symm, samePlace_symm⟩

theorem strictEquals_comm {a b : Value} (left : a.isProper = true) (right : b.isProper = true) :
    strictEquals a b = strictEquals b a := by
  rw [strictEquals, strictEquals, same_comm left right, samePlace_comm a b]
  simp only [eq_comm, and_comm]

theorem same_of_numbers {a b : Value} (left : a.isNumber = true) (right : b.isNumber = true) :
    same a b = samePlace a b := by
  cases a <;> cases b <;> simp [isNumber] at left right <;> simp [same]

theorem looseEquals_of_strictEquals {a b : Value} (h : strictEquals a b = true) :
    looseEquals a b = .ok true := by
  unfold strictEquals at h
  split at h
  · rename_i numbers
    have nullLeft : a ≠ .null := by
      intro null
      simp [null, isNumber] at numbers
    have nullRight : b ≠ .null := by
      intro null
      simp [null, isNumber] at numbers
    rw [looseEquals_of_notNull nullLeft nullRight, if_pos (.inr numbers),
      same_of_numbers numbers.1 numbers.2, h]
  · simp only [Bool.and_eq_true, decide_eq_true_eq] at h
    obtain ⟨kinds, equal⟩ := h
    by_cases null : a = .null
    · subst null
      cases b <;> cases kinds
      rfl
    · have nullRight : b ≠ .null := by
        intro same
        subst same
        cases a <;> cases kinds
        exact null rfl
      rw [looseEquals_of_notNull null nullRight, if_pos (.inl kinds), equal]

theorem compare_place_swap (p q : Place) : q.compare p = (p.compare q).swap := by
  cases p with
  | bottom | top => cases q <;> rfl
  | «at» a =>
      cases q with
      | bottom | top => rfl
      | «at» b =>
          change compare b a = (compare a b).swap
          exact Std.OrientedCmp.eq_swap

theorem textOrder_swap (left right : String) : textOrder right left = (textOrder left right).swap := by
  rcases lt_trichotomy left right with less | rfl | greater
  · simp [textOrder, less, less.not_gt]
  · simp [textOrder]
  · simp [textOrder, greater, greater.not_gt]

theorem numberOrder_swap (x y : Binary64) : numberOrder y x = (numberOrder x y).swap := by
  unfold numberOrder
  cases x.place? with
  | none => cases y.place? <;> rfl
  | some p =>
      cases y.place? with
      | none => rfl
      | some q => exact compare_place_swap p q

/-- The order of the numeric readings of two values, if they have any. -/
def readingOrder? (a b : Value) : Except OutOfRange (Option Ordering) := do
  let x ← a.toNumber?
  let y ← b.toNumber?
  match x, y with
  | some x, some y => return some (numberOrder x y)
  | _, _ => return none

theorem readingOrder?_swap (a b : Value) :
    readingOrder? b a = (readingOrder? a b).map (Option.map Ordering.swap) := by
  change readingOrder? b a = Option.map Ordering.swap <$> readingOrder? a b
  simp only [readingOrder?, map_bind]
  rw [readings_comm]
  refine bind_congr fun x => bind_congr fun y => ?_
  cases x with
  | none => cases y <;> rfl
  | some x =>
      cases y with
      | none => rfl
      | some y => exact congrArg (fun order => Except.ok (some order)) (numberOrder_swap x y)

theorem order?_of_readings {a b : Value} (left : a ≠ .null) (right : b ≠ .null)
    (notTexts : ∀ s t, a = .str s → b ≠ .str t) :
    order? a b = if a.isContainer ∨ b.isContainer then .ok none else readingOrder? a b :=
  order?.eq_4 a b left right notTexts

theorem order?_swap (a b : Value) : order? b a = (order? a b).map (Option.map Ordering.swap) := by
  by_cases nullLeft : a = .null
  · subst nullLeft
    cases b <;> rfl
  by_cases nullRight : b = .null
  · subst nullRight
    cases a <;> rfl
  by_cases texts : ∃ s t, a = .str s ∧ b = .str t
  · obtain ⟨s, t, rfl, rfl⟩ := texts
    exact congrArg (fun order => Except.ok (some order)) (textOrder_swap s t)
  · have notTexts : ∀ s t, a = .str s → b ≠ .str t := by
      intro s t first second
      exact texts ⟨s, t, first, second⟩
    have notTexts' : ∀ t s, b = .str t → a ≠ .str s := by
      intro t s first second
      exact notTexts s t second first
    rw [order?_of_readings nullLeft nullRight notTexts, order?_of_readings nullRight nullLeft notTexts',
      readingOrder?_swap a b]
    by_cases container : a.isContainer = true ∨ b.isContainer = true
    · rw [if_pos container, if_pos container.symm]
      rfl
    · have container' : ¬ (b.isContainer = true ∨ a.isContainer = true) := by
        intro other
        exact container other.symm
      rw [if_neg container, if_neg container']

/-- Of two values that repeat no field, it does not matter which comes first: both equalities have the same
outcome, and the order is turned around. Values that are strictly equal are loosely equal. -/
theorem compared_both_ways {a b : Value} (left : a.isProper = true) (right : b.isProper = true) :
    looseEquals a b = looseEquals b a ∧ strictEquals a b = strictEquals b a ∧
      order? b a = (order? a b).map (Option.map Ordering.swap) ∧
      (strictEquals a b = true → looseEquals a b = .ok true) := by
  refine ⟨looseEquals_comm left right, strictEquals_comm left right, order?_swap a b, ?_⟩
  intro equal
  exact looseEquals_of_strictEquals equal

/-- An object with a truth value where `countedShelf` has a number. -/
def flaggedShelf : Value :=
  .object [("full", .list [.bool true, .null]), ("books", .int 1)]

/-- The fields in another order, and a number of each kind. -/
def countedShelf : Value :=
  .object [("books", .float .one), ("full", .list [.int 1, .null])]

theorem shelves_compared_both_ways :
    flaggedShelf.isProper = true ∧ countedShelf.isProper = true ∧
      looseEquals flaggedShelf countedShelf = looseEquals countedShelf flaggedShelf ∧
      strictEquals flaggedShelf countedShelf = strictEquals countedShelf flaggedShelf ∧
      order? countedShelf flaggedShelf =
        (order? flaggedShelf countedShelf).map (Option.map Ordering.swap) ∧
      (strictEquals flaggedShelf countedShelf = true →
        looseEquals flaggedShelf countedShelf = .ok true) := by
  have flagged : flaggedShelf.isProper = true := by decide
  have counted : countedShelf.isProper = true := by decide
  exact ⟨flagged, counted, compared_both_ways flagged counted⟩

end Value

end GuardedStore
