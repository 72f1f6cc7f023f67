import GuardedStore.Proofs.Query.Arrangement

/-! # Pages

A page is a part of a list without gaps. A size that is counted bounds it; a negative one says what is left out
at the end, so that it bounds nothing. Pages of one size, each of which starts where the one before it ends,
have every record of a query once and in its order.
-/

namespace GuardedStore.Query

section Parts

variable {α : Type} {items : List α}

@[simp] theorem startPosition_natCast (length n : Nat) : startPosition length (n : Int) = n := by
  simp [startPosition]

@[simp] theorem dropTo_natCast (items : List α) (n : Nat) : dropTo items (n : Int) = items.drop n := by
  simp [dropTo]

@[simp] theorem takeUpTo_natCast (items : List α) (n : Nat) : takeUpTo items (n : Int) = items.take n := by
  simp [takeUpTo]

theorem takeUpTo_of_neg {size : Int} (negative : size < 0) :
    takeUpTo items size = items.take (items.length - size.natAbs) := by
  rw [takeUpTo, startPosition, if_neg (by omega)]

theorem length_takeUpTo_le {size : Int} (positive : 0 < size) : (takeUpTo items size).length ≤ size := by
  obtain ⟨n, rfl⟩ := Int.eq_ofNat_of_zero_le positive.le
  rw [takeUpTo_natCast, List.length_take]
  omega

theorem flatten_parts (items : List α) (length count : Nat) :
    ((List.range count).map fun k => (items.drop (k * length)).take length).flatten =
      items.take (count * length) := by
  induction count with
  | zero => simp
  | succ count ih =>
      rw [List.range_succ, List.map_append, List.flatten_append, ih, Nat.succ_mul, List.take_add]
      simp

theorem exists_count {length : Nat} (positive : 0 < length) (total : Nat) :
    ∃ count, ∀ k, k < count ↔ k * length < total := by
  refine ⟨(total + length - 1) / length, fun k => ?_⟩
  rw [Nat.lt_iff_add_one_le, Nat.le_div_iff_mul_le positive, Nat.add_mul]
  omega

end Parts

section Size

variable {α : Type} {records : List α} {defaultSize : Int} {size text : String}

theorem given?_of_readWhole? {n : Int} (read : Numeral.readWhole? text = some n) :
    given? (some text) = some text := by
  refine given?_of_ne ?_
  rintro rfl
  have none : Numeral.readWhole? "" = none := by decide
  rw [none] at read
  cases read

theorem pageLength_of_readWhole? {n : Int} (read : Numeral.readWhole? text = some n) :
    pageLength defaultSize text = if n = 0 then defaultSize else n := by
  rw [pageLength, read]

theorem paginate_of_size (nonempty : size ≠ "") (records : List α) (offset : Option String) :
    paginate defaultSize records offset (some size) =
      takeUpTo (paginate defaultSize records offset none) (pageLength defaultSize size) := by
  simp only [paginate, given?_of_ne nonempty]
  rfl

/-- How a page is bounded by the number that its size is read as, if it is read as one. -/
inductive Bounded (defaultSize : Int) (rest page : List α) : Option Int → Prop
  | counted {n : Int} (positive : 0 < n) (bound : page.length ≤ n) : Bounded defaultSize rest page (some n)
  | zero (bound : page.length ≤ defaultSize) : Bounded defaultSize rest page (some 0)
  | unreadable (bound : page.length ≤ defaultSize) : Bounded defaultSize rest page none
  /-- So many records are left out at the end. -/
  | shortened {n : Int} (negative : n < 0) (cut : page = rest.take (rest.length - n.natAbs)) :
      Bounded defaultSize rest page (some n)

/-- A page is a part of the list without gaps, no longer than its size says if that is a positive number, and
no longer than the default size if that is zero or cannot be read. A negative one leaves out so many records
at the end of what follows the offset. -/
theorem paginate_bounded (positive : 0 < defaultSize) (nonempty : size ≠ "") (records : List α)
    (offset : Option String) :
    paginate defaultSize records offset (some size) <:+: records ∧
      Bounded defaultSize (paginate defaultSize records offset none)
        (paginate defaultSize records offset (some size)) (Numeral.readWhole? size) := by
  refine ⟨part_of_paginate defaultSize records offset (some size), ?_⟩
  rw [paginate_of_size nonempty]
  cases read : Numeral.readWhole? size with
  | none =>
      rw [pageLength, read]
      exact .unreadable (length_takeUpTo_le positive)
  | some n =>
      rw [pageLength_of_readWhole? read]
      rcases lt_trichotomy n 0 with negative | rfl | counted
      · rw [if_neg negative.ne, takeUpTo_of_neg negative]
        exact .shortened negative rfl
      · exact .zero (length_takeUpTo_le positive)
      · rw [if_neg counted.ne']
        exact .counted counted (length_takeUpTo_le counted)

theorem paginate_bounded_from_the_second :
    paginate 10 [1, 2, 3, 4] (some "1") (some "2.5") <:+: [1, 2, 3, 4] ∧
      Bounded 10 (paginate 10 [1, 2, 3, 4] (some "1") none)
        (paginate 10 [1, 2, 3, 4] (some "1") (some "2.5")) (Numeral.readWhole? "2.5") :=
  paginate_bounded (by decide) (by decide) [1, 2, 3, 4] (some "1")

/-- A negative size lets a page grow beyond the default size with the list. -/
theorem negative_size_exceeds_default :
    Numeral.readWhole? "-1" = some (-1) ∧
      ¬ ((paginate 10 (List.replicate 12 (Record.plain [])) none (some "-1")).length : Int) ≤ 10 := by
  decide +kernel

end Size

variable {engine : Engine} {records kept all : List Record} {parameters : Parameters}

/-- A page is cut out of what the query gives without one. -/
theorem Engine.arrange_paged (undistinct : given? parameters.distinct = none) (engine : Engine)
    (records : List Record) (offset pageSize : Option String) :
    engine.arrange records { parameters with offset, pageSize } =
      (engine.arrange records { parameters with offset := none, pageSize := none }).map
        (paginate engine.defaultPageSize · offset pageSize) := by
  simp only [Engine.arrange, distinctRecords, undistinct]
  cases filterRecords parameters.filter records with
  | error fault => rfl
  | ok kept =>
      simp only [bind, Except.bind]
      cases sortRecords kept (SortKey.ofParameter parameters.sort) with
      | error fault => rfl
      | ok sorted => rfl

theorem Engine.perm_of_arrange (undistinct : given? parameters.distinct = none)
    (matching : filterRecords parameters.filter records = .ok kept)
    (listed : engine.arrange records { parameters with offset := none, pageSize := none } = .ok all) :
    all.Perm kept := by
  have sorted : engine.arrange records { parameters with offset := none, pageSize := none } =
      sortRecords kept (SortKey.ofParameter parameters.sort) := by
    simp only [Engine.arrange, distinctRecords, undistinct, matching, bind, Except.bind]
    cases sortRecords kept (SortKey.ofParameter parameters.sort) <;> rfl
  exact sortRecords_perm (sorted.symm.trans listed)

/-- A query that is asked for in pages, with offsets at the multiples of their size and as long as these are
below the number of matching records, gives in all what it gives at once. All pages but the last are full. -/
theorem pages_cover_query (undistinct : given? parameters.distinct = none) {offsets : Nat → String}
    {size : String} {length : Nat} (positive : 0 < length) (sized : Numeral.readWhole? size = some (length : Int))
    (matching : filterRecords parameters.filter records = .ok kept)
    (starts : ∀ k, k * length < kept.length → Numeral.readWhole? (offsets k) = some ((k * length : Nat) : Int))
    (listed : engine.arrange records { parameters with offset := none, pageSize := none } = .ok all) :
    ∃ pages : List (List Record),
      (∀ k, k < pages.length ↔ k * length < kept.length) ∧
        (∀ (k : Nat) (h : k < pages.length), engine.arrange records
          { parameters with offset := some (offsets k), pageSize := some size } = .ok pages[k]) ∧
        pages.flatten = all ∧ ∀ (k : Nat) (h : k + 1 < pages.length), pages[k].length = length := by
  have total : kept.length = all.length :=
    (Engine.perm_of_arrange undistinct matching listed).length_eq.symm
  obtain ⟨count, asked⟩ := exists_count positive all.length
  have page (k : Nat) (before : k * length < all.length) : engine.arrange records
      { parameters with offset := some (offsets k), pageSize := some size } =
        .ok ((all.drop (k * length)).take length) := by
    have start := starts k (total ▸ before)
    rw [Engine.arrange_paged undistinct, listed]
    simp only [Except.map, paginate, given?_of_readWhole? start, given?_of_readWhole? sized, start,
      Option.getD_some, dropTo_natCast]
    rw [pageLength_of_readWhole? sized, if_neg (by omega), takeUpTo_natCast]
  refine ⟨(List.range count).map fun k => (all.drop (k * length)).take length, ?_, ?_, ?_, ?_⟩
  · intro k
    rw [total, List.length_map, List.length_range, asked]
  · intro k inside
    rw [List.length_map, List.length_range, asked] at inside
    simpa using page k inside
  · rw [flatten_parts]
    have reached := (asked count).not.mp (lt_irrefl count)
    exact List.take_of_length_le (by omega)
  · intro k inside
    rw [List.length_map, List.length_range, asked, Nat.succ_mul] at inside
    simp only [List.getElem_map, List.getElem_range, List.length_take, List.length_drop]
    omega

/-- Four members, of whom three are in the red team. -/
def teamMembers : List Record :=
  [.plain [("name", .str "Bob"), ("team", .str "red")], .plain [("name", .str "ann"), ("team", .str "red")],
    .plain [("name", .str "Cyd"), ("team", .str "blue")], .plain [("name", .str "Dan"), ("team", .str "red")]]

def redTeam : Parameters where
  filter := some "team=\"red\""
  sort := some "name desc"

theorem pages_cover_query_of_red_team :
    ∃ kept all, filterRecords redTeam.filter teamMembers = .ok kept ∧ kept.length = 3 ∧
      (default : Engine).arrange teamMembers { redTeam with offset := none, pageSize := none } = .ok all ∧
      ∃ pages : List (List Record),
        (∀ k, k < pages.length ↔ k * 2 < kept.length) ∧
          (∀ (k : Nat) (h : k < pages.length), (default : Engine).arrange teamMembers
            { redTeam with offset := some (if k = 0 then "0" else "2.9"), pageSize := some "2" } =
              .ok pages[k]) ∧
          pages.flatten = all ∧ ∀ (k : Nat) (h : k + 1 < pages.length), pages[k].length = 2 := by
  have three : (filterRecords redTeam.filter teamMembers).toOption.map List.length = some 3 := by
    decide +kernel
  have answered : ((default : Engine).arrange teamMembers
      { redTeam with offset := none, pageSize := none }).toOption.isSome = true := by
    decide +kernel
  cases matching : filterRecords redTeam.filter teamMembers with
  | error fault => simp [matching, Except.toOption] at three
  | ok kept =>
      cases listed : (default : Engine).arrange teamMembers
          { redTeam with offset := none, pageSize := none } with
      | error fault => simp [listed, Except.toOption] at answered
      | ok all =>
          have count : kept.length = 3 := by simpa [matching, Except.toOption] using three
          have starts (k : Nat) (before : k * 2 < kept.length) :
              Numeral.readWhole? (if k = 0 then "0" else "2.9") = some ((k * 2 : Nat) : Int) := by
            have early : k = 0 ∨ k = 1 := by omega
            rcases early with rfl | rfl <;> decide +kernel
          exact ⟨kept, all, rfl, count, rfl,
            pages_cover_query rfl (by decide) (by decide +kernel) matching starts listed⟩

end GuardedStore.Query
