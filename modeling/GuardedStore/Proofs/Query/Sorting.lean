import Mathlib
import GuardedStore.Proofs.Value.Symmetry
import GuardedStore.Query.Arrangement

/-! # Sorted records

Sorting by several keys takes one stable pass for each key, the last key first. Together the passes are one
stable sort: of two records the one comes first that the first key which tells them apart puts first, and
records that no key tells apart stay in their order.
-/

namespace GuardedStore.Query

/-- The first of the keys which tells two records apart puts the left one first. -/
inductive PutsFirst (left right : Record) : List SortKey → Prop
  | smaller {key : SortKey} {keys : List SortKey} (ascending : key.descending = false)
      (order : fieldOrder key.field left right = .lt) : PutsFirst left right (key :: keys)
  | greater {key : SortKey} {keys : List SortKey} (descending : key.descending = true)
      (order : fieldOrder key.field left right = .gt) : PutsFirst left right (key :: keys)
  | later {key : SortKey} {keys : List SortKey} (alike : fieldOrder key.field left right = .eq)
      (first : PutsFirst left right keys) : PutsFirst left right (key :: keys)

/-- No key tells two records apart. -/
def SameUnder (left right : Record) (keys : List SortKey) : Prop :=
  ∀ key ∈ keys, fieldOrder key.field left right = .eq

/-- The records of a list, each at a place of its own, so that of any two the keys put the earlier one first,
or do not tell them apart and leave them in their order. -/
def SortedBy (keys : List SortKey) (records sorted : List Record) : Prop :=
  ∃ places : List (Fin records.length),
    places.Perm (List.finRange records.length) ∧ sorted = places.map records.get ∧
      places.Pairwise fun i j => PutsFirst (records.get i) (records.get j) keys ∨
        SameUnder (records.get i) (records.get j) keys ∧ i < j

/-- The comparison by a field tells of any two records of a list how they stand, and is transitive over them, as
an order and as an equality. -/
structure ComparesBy (field : String) (records : List Record) : Prop where
  /-- What holds itself has no text to compare. -/
  told : 1 < records.length → ∀ record ∈ records, record.isCircularAt field = false
  smaller : ∀ a ∈ records, ∀ b ∈ records, ∀ c ∈ records,
    fieldOrder field a b = .lt → fieldOrder field b c = .lt → fieldOrder field a c = .lt
  alike : ∀ a ∈ records, ∀ b ∈ records, ∀ c ∈ records,
    fieldOrder field a b = .eq → fieldOrder field b c = .eq → fieldOrder field a c = .eq

section Pass

variable {α : Type*} {le : α → α → Bool} {R : α → α → Prop} {items : List α}

theorem filter_mergeSort (trans : ∀ a b c, le a b = true → le b c = true → le a c = true)
    (total : ∀ a b, (le a b || le b a) = true) (item : α) :
    (items.mergeSort le).filter (fun other => le item other && le other item) =
      items.filter fun other => le item other && le other item := by
  have inOrder : (items.filter fun other => le item other && le other item).Pairwise
      (fun a b => le a b = true) := by
    refine List.pairwise_filter.mpr (List.pairwise_of_forall fun a b => ?_)
    simp only [Bool.and_eq_true]
    rintro ⟨-, after⟩ ⟨before, -⟩
    exact trans _ _ _ after before
  have kept := (List.sublist_mergeSort trans total inOrder List.filter_sublist).filter
    fun other => le item other && le other item
  rw [List.filter_filter] at kept
  simp only [Bool.and_self] at kept
  exact (kept.eq_of_length ((List.mergeSort_perm items le).filter _).length_eq.symm).symm

theorem pairwise_mergeSort_of_pairwise
    (trans : ∀ a b c, le a b = true → le b c = true → le a c = true)
    (total : ∀ a b, (le a b || le b a) = true) (h : items.Pairwise R) :
    (items.mergeSort le).Pairwise fun a b => le a b = true ∧ (le b a = true → R a b) := by
  refine List.pairwise_iff_forall_sublist.mpr fun {a b} inOrder => ?_
  have before : le a b = true :=
    List.pairwise_iff_forall_sublist.mp (List.pairwise_mergeSort trans total items) inOrder
  refine ⟨before, fun after => List.pairwise_iff_forall_sublist.mp h ?_⟩
  have itself : le a a = true := by simpa using total a a
  have kept := inOrder.filter fun other => le a other && le other a
  rw [filter_mergeSort trans total] at kept
  simp only [List.filter_cons, List.filter_nil, itself, before, after, Bool.and_self, if_true] at kept
  exact kept.trans List.filter_sublist

end Pass

variable {records : List Record} {field : String} {key : SortKey} {keys : List SortKey}
  {left right : Record}

theorem valueOrder_swap (left right : Value) : valueOrder right left = (valueOrder left right).swap := by
  unfold valueOrder
  rw [Bool.and_comm]
  cases left.isNumber && right.isNumber with
  | false => simp only [Ordering.swap_then, ← Value.textOrder_swap]
  | true =>
      cases left.place? with
      | none => cases right.place? <;> rfl
      | some p =>
          cases right.place? with
          | none => rfl
          | some q => exact Value.compare_place_swap p q

theorem fieldOrder_swap (field : String) (left right : Record) :
    fieldOrder field right left = (fieldOrder field left right).swap :=
  valueOrder_swap _ _

theorem ComparesBy.isLE_trans (h : ComparesBy field records) {a b c : Record} (inA : a ∈ records)
    (inB : b ∈ records) (inC : c ∈ records) (first : (fieldOrder field a b).isLE = true)
    (second : (fieldOrder field b c).isLE = true) : (fieldOrder field a c).isLE = true := by
  by_contra above
  have back : fieldOrder field c a = .lt := by
    rw [fieldOrder_swap, Ordering.swap_eq_lt]
    simpa using above
  cases ab : fieldOrder field a b with
  | gt => simp [ab] at first
  | lt =>
      have forth := h.smaller c inC a inA b inB back ab
      rw [fieldOrder_swap, forth] at second
      cases second
  | eq =>
      cases bc : fieldOrder field b c with
      | gt => simp [bc] at second
      | lt =>
          have forth := h.smaller b inB c inC a inA bc back
          rw [fieldOrder_swap, forth] at ab
          cases ab
      | eq => exact above (by rw [h.alike a inA b inB c inC ab bc]; rfl)

theorem SortKey.mayPrecede_eq (key : SortKey) (left right : Record) :
    key.mayPrecede left right =
      (if key.descending then fieldOrder key.field right left else fieldOrder key.field left right).isLE := by
  unfold SortKey.mayPrecede
  split
  · rw [fieldOrder_swap key.field left right, Ordering.isLE_swap]
  · rfl

theorem SortKey.mayPrecede_total (key : SortKey) (left right : Record) :
    (key.mayPrecede left right || key.mayPrecede right left) = true := by
  unfold SortKey.mayPrecede
  rw [fieldOrder_swap key.field left right]
  cases key.descending <;> cases fieldOrder key.field left right <;> rfl

theorem ComparesBy.mayPrecede_trans (h : ComparesBy key.field records) {a b c : Record}
    (inA : a ∈ records) (inB : b ∈ records) (inC : c ∈ records) (first : key.mayPrecede a b = true)
    (second : key.mayPrecede b c = true) : key.mayPrecede a c = true := by
  rw [SortKey.mayPrecede_eq] at first second ⊢
  split at first
  · rename_i descending
    rw [if_pos descending] at second ⊢
    exact h.isLE_trans inC inB inA second first
  · rename_i ascending
    rw [if_neg ascending] at second ⊢
    exact h.isLE_trans inA inB inC first second

theorem sort_cons (records : List Record) (key : SortKey) (keys : List SortKey) :
    sort records (key :: keys) = sortByKey (sort records keys) key := by
  simp [sort]

theorem PutsFirst.of_pass {P : Prop} (before : key.mayPrecede left right = true)
    (tied : key.mayPrecede right left = true →
      PutsFirst left right keys ∨ SameUnder left right keys ∧ P) :
    PutsFirst left right (key :: keys) ∨ SameUnder left right (key :: keys) ∧ P := by
  unfold SortKey.mayPrecede at before tied
  rw [fieldOrder_swap key.field left right] at tied
  cases told : fieldOrder key.field left right with
  | eq =>
      rcases tied (by simp [told]) with first | ⟨alike, inOrder⟩
      · exact .inl (.later told first)
      · exact .inr ⟨List.forall_mem_cons.mpr ⟨told, alike⟩, inOrder⟩
  | lt =>
      cases direction : key.descending with
      | false => exact .inl (.smaller direction told)
      | true => simp [direction, told] at before
  | gt =>
      cases direction : key.descending with
      | false => simp [direction, told] at before
      | true => exact .inl (.greater direction told)

theorem sort_sortedBy (compared : ∀ key ∈ keys, ComparesBy key.field records) :
    SortedBy keys records (sort records keys) := by
  induction keys with
  | nil =>
      refine ⟨List.finRange records.length, .refl _, (List.map_get_finRange records).symm, ?_⟩
      exact (List.pairwise_lt_finRange _).imp fun inOrder => .inr ⟨nofun, inOrder⟩
  | cons key rest ih =>
      obtain ⟨first, others⟩ := List.forall_mem_cons.mp compared
      obtain ⟨places, perm, sorted, inOrder⟩ := ih others
      -- The pass is followed on the places, which tell equal records apart and over which it is transitive.
      have trans (i j k : Fin records.length) :
          key.mayPrecede (records.get i) (records.get j) = true →
          key.mayPrecede (records.get j) (records.get k) = true →
          key.mayPrecede (records.get i) (records.get k) = true :=
        first.mayPrecede_trans (records.get_mem i) (records.get_mem j) (records.get_mem k)
      have total (i j : Fin records.length) := key.mayPrecede_total (records.get i) (records.get j)
      refine ⟨places.mergeSort fun i j => key.mayPrecede (records.get i) (records.get j),
        (List.mergeSort_perm _ _).trans perm, ?_, ?_⟩
      · have passed : (places.mergeSort fun i j => key.mayPrecede (records.get i) (records.get j)).map
            records.get = (places.map records.get).mergeSort key.mayPrecede :=
          List.map_mergeSort fun _ _ _ _ => rfl
        rw [sort_cons, sorted, sortByKey, passed]
      · refine (pairwise_mergeSort_of_pairwise trans total inOrder).imp ?_
        rintro i j ⟨before, tied⟩
        exact PutsFirst.of_pass before tied

theorem anyCircular_eq_false (several : 1 < records.length)
    (compared : ∀ key ∈ keys, ComparesBy key.field records) :
    anyCircular (keys.map (·.field)) records = false := by
  rw [anyCircular, List.any_eq_false]
  intro record member
  rw [Bool.not_eq_true, List.any_map, List.any_eq_false]
  intro key isKey
  simp [(compared key isKey).told several record member]

/-- Records that can be compared by each of some keys are sorted by them all at once, the first key being the
most significant one. -/
theorem sortRecords_sortedBy (compared : ∀ key ∈ keys, ComparesBy key.field records) :
    ∃ sorted, sortRecords records keys = .ok sorted ∧ SortedBy keys records sorted := by
  refine ⟨sort records keys, ?_, sort_sortedBy compared⟩
  unfold sortRecords
  split
  · rename_i circular
    simp only [Bool.and_eq_true, decide_eq_true_eq] at circular
    rw [anyCircular_eq_false circular.1 compared] at circular
    cases circular.2
  · rfl

/-- Games of which one has no price, and two the same title but for its case. -/
def pricedGames : List Record :=
  [.plain [("title", .str "go"), ("price", .int 9)], .plain [("title", .str "Chess"), ("price", .int 10)],
    .plain [("title", .str "chess")], .plain [("title", .str "go"), ("price", .int 10)]]

theorem sortRecords_sortedBy_price_and_title :
    ∃ sorted, sortRecords pricedGames [⟨"price", true⟩, ⟨"title", false⟩, ⟨"price", false⟩] = .ok sorted ∧
      SortedBy [⟨"price", true⟩, ⟨"title", false⟩, ⟨"price", false⟩] pricedGames sorted := by
  refine sortRecords_sortedBy ?_
  have price : ComparesBy "price" pricedGames := ⟨by decide, by decide +kernel, by decide +kernel⟩
  have title : ComparesBy "title" pricedGames := ⟨by decide, by decide +kernel, by decide +kernel⟩
  intro key member
  simp only [List.mem_cons, List.not_mem_nil, or_false] at member
  rcases member with rfl | rfl | rfl
  · exact price
  · exact title
  · exact price

end GuardedStore.Query
