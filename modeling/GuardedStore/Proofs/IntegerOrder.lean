import GuardedStore.Expression.Evaluation
import GuardedStore.Proofs.Number.Rounding
import GuardedStore.Proofs.Query.Arrangement
import GuardedStore.Proofs.Run
import GuardedStore.Proofs.Value.Range
import GuardedStore.Proofs.Value.Structure

/-! # Comparing integers

Equality and sorting take integers as they are, while the order operators of rules and filters round them
to the binary64 format first. The two agree on integers that rounding tells apart, among them all of up to
53 binary digits. Other integers count as neither smaller nor greater though they are not equal, or have no
order at all.
-/

namespace GuardedStore

open Expression Query

variable {a b : Int}

/-- Both integers can be rounded, and rounding makes them one only if they are. -/
def ToldApart (a b : Int) : Prop :=
  ∃ x y, Binary64.ofInt? a = some x ∧ Binary64.ofInt? b = some y ∧ (x = y → a = b)

/-- What the order of two integers comes to. -/
inductive IntegerOrder (a b : Int) : Except OutOfRange (Option Ordering) → Prop
  | told (apart : ToldApart a b) : IntegerOrder a b (.ok (some (compare a b)))
  | merged {x : Binary64} (different : a ≠ b) (left : Binary64.ofInt? a = some x)
      (right : Binary64.ofInt? b = some x) : IntegerOrder a b (.ok (some .eq))
  | beyond (outside : Binary64.IsBeyond a ∨ Binary64.IsBeyond b) : IntegerOrder a b (.error .outOfRange)

theorem numberOrder_of_rounded {x y : Binary64} (left : Binary64.ofInt? a = some x)
    (right : Binary64.ofInt? b = some y) :
    Value.numberOrder x y = compare (Binary64.placeOfInt a) (Binary64.placeOfInt b) := by
  rw [Value.numberOrder, Binary64.place?_of_ofInt? left, Binary64.place?_of_ofInt? right]
  rfl

theorem compare_places_of_told {x y : Binary64} (left : Binary64.ofInt? a = some x)
    (right : Binary64.ofInt? b = some y) (told : x = y → a = b) :
    compare (Binary64.placeOfInt a) (Binary64.placeOfInt b) = compare a b := by
  rcases lt_trichotomy a b with less | rfl | greater
  · have ordered := Binary64.placeOfInt_mono less.le
    have apart : Binary64.placeOfInt a ≠ Binary64.placeOfInt b := by
      intro one
      exact less.ne (told (Binary64.eq_of_placeOfInt left right one))
    rw [compare_lt_iff_lt.mpr less, compare_lt_iff_lt.mpr (lt_of_le_of_ne ordered apart)]
  · rw [compare_eq_iff_eq.mpr rfl, compare_eq_iff_eq.mpr rfl]
  · have ordered := Binary64.placeOfInt_mono greater.le
    have apart : Binary64.placeOfInt b ≠ Binary64.placeOfInt a := by
      intro one
      exact greater.ne' (told (Binary64.eq_of_placeOfInt left right one.symm))
    rw [compare_gt_iff_gt.mpr greater, compare_gt_iff_gt.mpr (lt_of_le_of_ne ordered apart)]

theorem order?_int (a b : Int) :
    Value.order? (.int a) (.int b) = Value.readingOrder? (.int a) (.int b) :=
  Value.order?_of_readings nofun nofun nofun

theorem order?_of_rounded {x y : Binary64} (left : Binary64.ofInt? a = some x)
    (right : Binary64.ofInt? b = some y) :
    Value.order? (.int a) (.int b) = .ok (some (Value.numberOrder x y)) := by
  rw [order?_int, Value.readingOrder?, Value.toNumber?_of_rounded left, Value.toNumber?_of_rounded right]
  rfl

theorem order?_of_beyond (outside : Binary64.IsBeyond a ∨ Binary64.IsBeyond b) :
    Value.order? (.int a) (.int b) = .error .outOfRange := by
  rw [← Binary64.ofInt?_eq_none_iff, ← Binary64.ofInt?_eq_none_iff] at outside
  rw [order?_int, Value.readingOrder?]
  cases read : Binary64.ofInt? a with
  | none =>
      rw [Value.toNumber?_of_beyond read]
      rfl
  | some x =>
      have beyond : Binary64.ofInt? b = none := outside.resolve_left (by simp [read])
      rw [Value.toNumber?_of_rounded read, Value.toNumber?_of_beyond beyond]
      rfl

theorem integerOrder_order? (a b : Int) : IntegerOrder a b (Value.order? (.int a) (.int b)) := by
  cases left : Binary64.ofInt? a with
  | none =>
      have outside : Binary64.IsBeyond a ∨ Binary64.IsBeyond b :=
        .inl (Binary64.ofInt?_eq_none_iff.mp left)
      rw [order?_of_beyond outside]
      exact .beyond outside
  | some x =>
      cases right : Binary64.ofInt? b with
      | none =>
          have outside : Binary64.IsBeyond a ∨ Binary64.IsBeyond b :=
            .inr (Binary64.ofInt?_eq_none_iff.mp right)
          rw [order?_of_beyond outside]
          exact .beyond outside
      | some y =>
          rw [order?_of_rounded left right, numberOrder_of_rounded left right]
          by_cases told : x = y → a = b
          · rw [compare_places_of_told left right told]
            exact .told ⟨x, y, left, right, told⟩
          · obtain ⟨rfl, different⟩ := Classical.not_imp.mp told
            have one : Binary64.placeOfInt a = Binary64.placeOfInt b := by
              have place := (Binary64.place?_of_ofInt? left).symm.trans (Binary64.place?_of_ofInt? right)
              simpa using place
            rw [one, compare_eq_iff_eq.mpr rfl]
            exact .merged different left right

/-- The order is that of the integers only where rounding tells them apart. -/
theorem order?_int_iff : Value.order? (.int a) (.int b) = .ok (some (compare a b)) ↔ ToldApart a b := by
  have outcome := integerOrder_order? a b
  constructor
  · intro exact
    rw [exact] at outcome
    generalize true_order : compare a b = order at outcome
    cases outcome with
    | told apart => exact apart
    | merged different left right => exact absurd (compare_eq_iff_eq.mp true_order) different
  · rintro ⟨x, y, left, right, told⟩
    rw [order?_of_rounded left right, numberOrder_of_rounded left right,
      compare_places_of_told left right told]

theorem toldApart_of_le (left : a.natAbs ≤ 2 ^ 53) (right : b.natAbs ≤ 2 ^ 53) : ToldApart a b := by
  obtain ⟨x, read⟩ := Binary64.exists_ofInt?_of_le left
  obtain ⟨y, read'⟩ := Binary64.exists_ofInt?_of_le right
  refine ⟨x, y, read, read', ?_⟩
  intro same
  subst same
  have place := (Binary64.place?_of_ofInt? read).symm.trans (Binary64.place?_of_ofInt? read')
  rw [Option.some.injEq, Place.at.injEq, Binary64.placeOfInt_of_le left,
    Binary64.placeOfInt_of_le right] at place
  exact mul_right_cancel₀ (Int.natCast_ne_zero.mpr Binary64.unitsOfOne_pos.ne') place

theorem samePlace_int_eq (a b : Int) : Value.samePlace (.int a) (.int b) = decide (a = b) :=
  Bool.eq_iff_iff.mpr (Value.samePlace_int.trans decide_eq_true_iff.symm)

/-- Both equalities are that of the integers, whatever their size. -/
theorem strictEquals_int (a b : Int) : Value.strictEquals (.int a) (.int b) = decide (a = b) := by
  rw [Value.strictEquals, if_pos ⟨rfl, rfl⟩, samePlace_int_eq]

theorem looseEquals_int (a b : Int) : Value.looseEquals (.int a) (.int b) = .ok (decide (a = b)) := by
  rw [Value.looseEquals_of_notNull (a := .int a) (b := .int b) nofun nofun, if_pos (.inl rfl),
    Value.same_of_numbers rfl rfl, samePlace_int_eq]

theorem isLT_compare_int (a b : Int) : (compare a b).isLT = decide (a < b) := by
  rw [Bool.eq_iff_iff, Ordering.isLT_iff_eq_lt, compare_lt_iff_lt, decide_eq_true_iff]

theorem isLE_compare_int (a b : Int) : (compare a b).isLE = decide (a ≤ b) := by
  rw [Bool.eq_iff_iff, Std.isLE_compare, decide_eq_true_iff]

theorem isGT_compare_int (a b : Int) : (compare a b).isGT = decide (b < a) := by
  rw [Bool.eq_iff_iff, Ordering.isGT_iff_eq_gt, compare_gt_iff_gt, decide_eq_true_iff]

theorem isGE_compare_int (a b : Int) : (compare a b).isGE = decide (b ≤ a) := by
  rw [Bool.eq_iff_iff, Std.isGE_compare, decide_eq_true_iff]

namespace Expression

/-- What a comparison says of two integers. -/
def Comparison.decides (op : Comparison) (a b : Int) : Bool :=
  match op with
  | .loose | .strict => a = b
  | .notLoose | .notStrict => a ≠ b
  | .less => a < b
  | .lessOrEqual => a ≤ b
  | .greater => b < a
  | .greaterOrEqual => b ≤ a

/-- Whether a comparison asks for the order. -/
def Comparison.isOrdering : Comparison → Bool
  | .loose | .notLoose | .strict | .notStrict => false
  | .less | .lessOrEqual | .greater | .greaterOrEqual => true

variable {scope : Scope} {left right : Expr} {heap between after : Heap}

theorem readSlot_int (a : Int) (heap : Heap) : readSlot (.plain (.int a)) heap = .ok (.int a) heap :=
  rfl

theorem comparesEqual_int {compare : Value → Value → Except OutOfRange Bool}
    (equal : compare (.int a) (.int b) = .ok (decide (a = b))) (heap : Heap) :
    comparesEqual compare (.plain (.int a)) (.plain (.int b)) heap = .ok (decide (a = b)) heap := by
  change ranged (compare (.int a) (.int b)) heap = _
  rw [equal]
  rfl

theorem compareSlots_of_order {op : Comparison} (ordering : op.isOrdering = true) (heap : Heap)
    {order : Ordering} (ordered : Value.order? (.int a) (.int b) = .ok (some order)) :
    compareSlots op (.plain (.int a)) (.plain (.int b)) heap = .ok (op.accepts order) heap := by
  cases op with
  | less | lessOrEqual | greater | greaterOrEqual =>
      simp only [compareSlots, bind_of_ok (readSlot_int a heap), bind_of_ok (readSlot_int b heap), ordered]
      rfl
  | loose | notLoose | strict | notStrict => cases ordering

theorem Comparison.accepts_compare {op : Comparison} (ordering : op.isOrdering = true) (a b : Int) :
    op.accepts (compare a b) = op.decides a b := by
  cases op with
  | less => exact isLT_compare_int a b
  | lessOrEqual => exact isLE_compare_int a b
  | greater => exact isGT_compare_int a b
  | greaterOrEqual => exact isGE_compare_int a b
  | loose | notLoose | strict | notStrict => cases ordering

theorem compareSlots_int (apart : ToldApart a b) (op : Comparison) (heap : Heap) :
    compareSlots op (.plain (.int a)) (.plain (.int b)) heap = .ok (op.decides a b) heap := by
  have loose := comparesEqual_int (looseEquals_int a b) heap
  have strict : comparesEqual (fun a b => .ok (Value.strictEquals a b)) (.plain (.int a)) (.plain (.int b))
      heap = .ok (decide (a = b)) heap :=
    comparesEqual_int (congrArg Except.ok (strictEquals_int a b)) heap
  have ordered := order?_int_iff.mpr apart
  cases op with
  | loose => exact loose
  | notLoose =>
      rw [compareSlots, bind_of_ok loose, Comparison.decides, decide_not]
      rfl
  | strict => exact strict
  | notStrict =>
      rw [compareSlots, bind_of_ok strict, Comparison.decides, decide_not]
      rfl
  | less | lessOrEqual | greater | greaterOrEqual =>
      rw [compareSlots_of_order rfl heap ordered, Comparison.accepts_compare rfl]

/-- A rule that compares two integers that are told apart gets the answer of the integers. -/
theorem evaluate_compare_int (apart : ToldApart a b) (op : Comparison)
    (first : evaluate scope left heap = .ok (.plain (.int a)) between)
    (second : evaluate scope right between = .ok (.plain (.int b)) after) :
    evaluate scope (.compare op left right) heap = .ok (.plain (.bool (op.decides a b))) after := by
  rw [evaluate, bind_of_ok first, bind_of_ok second, bind_of_ok (compareSlots_int apart op after)]
  rfl

end Expression

namespace Query

/-- What an operator says of two integers; a containment or a membership says nothing of them. -/
def Operator.decides? (op : Operator) (a b : Int) : Option Bool :=
  match op with
  | .lessOrEqual => some (a ≤ b)
  | .less => some (a < b)
  | .greaterOrEqual => some (b ≤ a)
  | .greater => some (b < a)
  | .equal => some (a = b)
  | .like | .memberOf => none

/-- Sorting compares integers by their own places, whatever their size. -/
theorem valueOrder_int (a b : Int) : valueOrder (.int a) (.int b) = compare a b := by
  have positive : (0 : Int) < Binary64.unitsOfOne := Int.natCast_pos.mpr Binary64.unitsOfOne_pos
  change compare (a * Binary64.unitsOfOne) (b * Binary64.unitsOfOne) = compare a b
  rw [← cmp_eq_compare, ← cmp_eq_compare, cmp_mul_pos_right positive]

theorem ordered_int (apart : ToldApart a b) (accepts : Ordering → Bool) :
    (liftM (Clause.ordered accepts (.int a) (.int b)) : Except Fault Bool) = .ok (accepts (compare a b)) := by
  rw [Clause.ordered, order?_int_iff.mpr apart]
  rfl

theorem holds_int (apart : ToldApart a b) {clause : Clause} {record : Record}
    (value : record.value clause.field = .int a) (literal : clause.literal = .int b) {answer : Bool}
    (decided : clause.operator.decides? a b = some answer) : clause.holds record = .ok answer := by
  unfold Clause.holds
  simp only [value, literal, Record.isCircularAt_of_plain (by rw [value]; rfl)]
  generalize clause.operator = operator at decided ⊢
  cases operator with
  | lessOrEqual =>
      cases decided
      rw [← isLE_compare_int]
      exact ordered_int apart Ordering.isLE
  | less =>
      cases decided
      rw [← isLT_compare_int]
      exact ordered_int apart Ordering.isLT
  | greaterOrEqual =>
      cases decided
      rw [← isGE_compare_int]
      exact ordered_int apart Ordering.isGE
  | greater =>
      cases decided
      rw [← isGT_compare_int]
      exact ordered_int apart Ordering.isGT
  | equal =>
      cases decided
      rw [looseEquals_int]
      rfl
  | like | memberOf => cases decided

end Query

/-- Five answers fit one order. -/
structure FitOneOrder (less lessOrEqual equal greaterOrEqual greater : Prop) : Prop where
  lessOrEqual_iff : lessOrEqual ↔ less ∨ equal
  greaterOrEqual_iff : greaterOrEqual ↔ greater ∨ equal
  not_less_and_equal : ¬ (less ∧ equal)
  not_equal_and_greater : ¬ (equal ∧ greater)
  not_less_and_greater : ¬ (less ∧ greater)

theorem fitOneOrder_int (a b : Int) : FitOneOrder (a < b) (a ≤ b) (a = b) (b ≤ a) (b < a) := by
  constructor <;> omega

/-- The operands of a comparison in a rule have two integers as their values. -/
def Operands (scope : Scope) (left right : Expr) (heap after : Heap) (a b : Int) : Prop :=
  ∃ between, evaluate scope left heap = .ok (.plain (.int a)) between ∧
    evaluate scope right between = .ok (.plain (.int b)) after

/-- Rules answer as the integers do, so that their operators fit one order. -/
structure RulesCompare (a b : Int) : Prop where
  answer {scope : Scope} {left right : Expr} {heap after : Heap} (op : Comparison) :
    Operands scope left right heap after a b →
    evaluate scope (.compare op left right) heap = .ok (.plain (.bool (op.decides a b))) after
  fit {scope : Scope} {left right : Expr} {heap after : Heap} {holds : Comparison → Prop} :
    Operands scope left right heap after a b →
    (∀ op, holds op ↔ evaluate scope (.compare op left right) heap = .ok (.plain (.bool true)) after) →
    FitOneOrder (holds .less) (holds .lessOrEqual) (holds .loose) (holds .greaterOrEqual) (holds .greater)

theorem rulesCompare (apart : ToldApart a b) : RulesCompare a b where
  answer := by
    intro scope left right heap after op operands
    obtain ⟨between, first, second⟩ := operands
    exact evaluate_compare_int apart op first second
  fit := by
    intro scope left right heap after holds operands means
    obtain ⟨between, first, second⟩ := operands
    simp only [means, evaluate_compare_int apart _ first second, Comparison.decides, EStateM.Result.ok.injEq,
      Slot.plain.injEq, Literal.bool.injEq, decide_eq_true_eq, and_true]
    exact fitOneOrder_int a b

/-- Filters answer as the integers do, so that their operators fit one order. -/
structure FiltersCompare (a b : Int) : Prop where
  answer {record : Record} {field : String} {operator : Operator} {answer : Bool} :
    record.value field = .int a → operator.decides? a b = some answer →
    (⟨field, operator, .int b⟩ : Clause).holds record = .ok answer
  fit {record : Record} {field : String} {holds : Operator → Prop} : record.value field = .int a →
    (∀ operator, holds operator ↔ (⟨field, operator, .int b⟩ : Clause).holds record = .ok true) →
    FitOneOrder (holds .less) (holds .lessOrEqual) (holds .equal) (holds .greaterOrEqual) (holds .greater)

theorem filtersCompare (apart : ToldApart a b) : FiltersCompare a b where
  answer value decided := holds_int apart value rfl decided
  fit := by
    intro record field holds value means
    have decided (operator : Operator) {answer : Bool} (h : operator.decides? a b = some answer) :
        holds operator ↔ answer = true := by
      have held : (⟨field, operator, .int b⟩ : Clause).holds record = .ok answer :=
        holds_int apart value rfl h
      rw [means, held, Except.ok.injEq]
    simp only [decided .less rfl, decided .lessOrEqual rfl, decided .equal rfl,
      decided .greaterOrEqual rfl, decided .greater rfl, decide_eq_true_eq]
    exact fitOneOrder_int a b

/-- Sorting takes the order of the integers, and a filter keeps what it would put before, or behind, a
record with the literal. -/
structure SortingCompares (a b : Int) : Prop where
  order {record other : Record} {field : String} :
    record.value field = .int a → other.value field = .int b →
    fieldOrder field record other = compare a b
  filter {record other : Record} {field : String} :
    record.value field = .int a → other.value field = .int b →
    (⟨field, .lessOrEqual, .int b⟩ : Clause).holds record =
        .ok (SortKey.mayPrecede ⟨field, false⟩ record other) ∧
      (⟨field, .greaterOrEqual, .int b⟩ : Clause).holds record =
        .ok (SortKey.mayPrecede ⟨field, true⟩ record other)

theorem sortingCompares (apart : ToldApart a b) : SortingCompares a b := by
  have order {record other : Record} {field : String} (value : record.value field = .int a)
      (value' : other.value field = .int b) : fieldOrder field record other = compare a b := by
    rw [fieldOrder, value, value', valueOrder_int]
  constructor
  · exact order
  · intro record other field value value'
    have ascending : SortKey.mayPrecede ⟨field, false⟩ record other = decide (a ≤ b) := by
      rw [SortKey.mayPrecede, if_neg nofun, order value value', isLE_compare_int]
    have descending : SortKey.mayPrecede ⟨field, true⟩ record other = decide (b ≤ a) := by
      rw [SortKey.mayPrecede, if_pos rfl, order value value', isGE_compare_int]
    rw [ascending, descending]
    exact ⟨holds_int apart value rfl rfl, holds_int apart value rfl rfl⟩

/-- The order of two integers is theirs exactly where rounding tells them apart, as it does up to
`2 ^ 53` in size. There rules, filters and sorting agree on them; elsewhere the order is lost. -/
theorem integers_compared (a b : Int) :
    IntegerOrder a b (Value.order? (.int a) (.int b)) ∧
      (Value.order? (.int a) (.int b) = .ok (some (compare a b)) ↔ ToldApart a b) ∧
      (ToldApart a b → RulesCompare a b ∧ FiltersCompare a b ∧ SortingCompares a b) ∧
      (a.natAbs ≤ 2 ^ 53 → b.natAbs ≤ 2 ^ 53 → ToldApart a b) := by
  refine ⟨integerOrder_order? a b, order?_int_iff, ?_, toldApart_of_le⟩
  intro apart
  exact ⟨rulesCompare apart, filtersCompare apart, sortingCompares apart⟩

theorem exact_integers_compared :
    RulesCompare 9007199254740992 (-9007199254740991) ∧
      FiltersCompare 9007199254740992 (-9007199254740991) ∧
      SortingCompares 9007199254740992 (-9007199254740991) := by
  obtain ⟨-, -, agree, told⟩ := integers_compared 9007199254740992 (-9007199254740991)
  exact agree (told (by decide) (by decide))

/-- Two integers that are one number of the format: neither is smaller and they are not equal, though
each is as small as the other. -/
theorem neighbours_not_ordered :
    Value.order? (.int 9007199254740993) (.int 9007199254740992) = .ok (some .eq) ∧
      Value.looseEquals (.int 9007199254740993) (.int 9007199254740992) = .ok false ∧
      valueOrder (.int 9007199254740993) (.int 9007199254740992) = .gt := by
  decide +kernel

end GuardedStore
