import GuardedStore.Query.Arrangement
import Mathlib

/-! # Arranged records

Arranging records leaves some out and changes their order. It adds none and changes none.
-/

namespace GuardedStore

/-- Only lists and objects hold themselves. -/
theorem Record.isCircularAt_of_plain {record : Record} {name : String}
    (plain : (record.value name).isContainer = false) : record.isCircularAt name = false := by
  unfold Record.isCircularAt
  cases Entries.get? record.identities name with
  | none => rfl
  | some numbers =>
      have unnumbered : Value.holdsItself [] numbers (record.value name) = (false, numbers) := by
        rw [Value.holdsItself.eq_3]
        · intro number rest items _ same
          rw [same] at plain
          cases plain
        · intro number rest fields _ same
          rw [same] at plain
          cases plain
      exact congrArg Prod.fst unnumbered

namespace Query

variable {records kept : List Record}

theorem given?_of_ne {text : String} (nonempty : text ≠ "") : given? (some text) = some text := by
  simp [given?, nonempty]

theorem Filter.apply_sublist {filter : Filter} (h : filter.apply records = .ok kept) :
    kept.Sublist records := by
  induction records generalizing kept with
  | nil =>
      cases h
      exact .slnil
  | cons record rest ih =>
      cases tested : filter.keeps record with
      | error fault => simp [Filter.apply, tested, bind, Except.bind] at h
      | ok passed =>
          cases later : filter.apply rest with
          | error fault => simp [Filter.apply, tested, later, bind, Except.bind] at h
          | ok others =>
              simp only [Filter.apply, tested, later, bind, Except.bind, pure, Except.pure,
                Except.ok.injEq] at h
              cases h
              cases passed with
              | true => exact (ih later).cons_cons _
              | false => exact (ih later).cons _

theorem filterRecords_sublist {parameter : Option String}
    (h : filterRecords parameter records = .ok kept) : kept.Sublist records := by
  unfold filterRecords at h
  split at h
  · cases h
    exact .refl _
  · rename_i text _
    cases read : (Filter.ofText text).mapError FilterFault.fault with
    | error fault => simp [read, bind, Except.bind] at h
    | ok filter => exact Filter.apply_sublist (by simpa [read, bind, Except.bind] using h)

theorem sort_perm (records : List Record) (keys : List SortKey) : (sort records keys).Perm records := by
  rw [sort]
  induction keys.reverse generalizing records with
  | nil => exact .refl _
  | cons key rest ih => exact (ih _).trans (List.mergeSort_perm records _)

theorem sortRecords_perm {keys : List SortKey} (h : sortRecords records keys = .ok kept) :
    kept.Perm records := by
  unfold sortRecords at h
  split at h
  · cases h
  · cases h
    exact sort_perm records keys

theorem part_of_paginate {α : Type} (defaultSize : Int) (items : List α) (offset pageSize : Option String) :
    paginate defaultSize items offset pageSize <:+: items := by
  have dropped (offset : Int) : dropTo items offset <:+: items := (List.drop_suffix _ _).isInfix
  have taken (rest : List α) (size : Int) : takeUpTo rest size <:+: rest := (List.take_prefix _ _).isInfix
  unfold paginate
  cases given? offset <;> cases given? pageSize
  · exact List.infix_refl _
  · exact taken _ _
  · exact dropped _
  · exact (taken _ _).trans (dropped _)

theorem paginate_sublist (defaultSize : Int) (records : List Record) (offset pageSize : Option String) :
    (paginate defaultSize records offset pageSize).Sublist records :=
  (part_of_paginate defaultSize records offset pageSize).sublist

theorem firstsBy_sublist (text : Record → String) (seen : List String) (records : List Record) :
    (firstsBy text seen records).Sublist records := by
  induction records generalizing seen with
  | nil => exact .slnil
  | cons record rest ih =>
      rw [firstsBy]
      split
      · exact (ih _).cons _
      · exact (ih _).cons_cons _

theorem distinctRecords_sublist {parameter : Option String}
    (h : distinctRecords parameter records = .ok kept) : kept.Sublist records := by
  unfold distinctRecords at h
  split at h
  · cases h
    exact .refl _
  · split at h
    · cases h
    · cases h
      exact firstsBy_sublist _ _ _

theorem Engine.mem_of_arrange {engine : Engine} {parameters : Parameters} {arranged : List Record}
    (h : engine.arrange records parameters = .ok arranged) {record : Record}
    (member : record ∈ arranged) : record ∈ records := by
  rw [Engine.arrange] at h
  cases filtered : filterRecords parameters.filter records with
  | error fault => simp [filtered, bind, Except.bind] at h
  | ok kept =>
      cases sorted : sortRecords kept (SortKey.ofParameter parameters.sort) with
      | error fault => simp [filtered, sorted, bind, Except.bind] at h
      | ok inOrder =>
          simp only [filtered, sorted, bind, Except.bind] at h
          have onPage := (distinctRecords_sublist h).subset member
          have ordered := (paginate_sublist _ _ _ _).subset onPage
          exact (filterRecords_sublist filtered).subset ((sortRecords_perm sorted).subset ordered)

end Query

end GuardedStore
