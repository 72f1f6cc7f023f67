import Mathlib
import GuardedStore.Query.Arrangement

/-! # Left out repetitions

Of the records with one combined text the first one is kept. The texts of several fields are combined with two
colons between them, so that the combined text tells the texts of the fields unless they have such colons
themselves: then records with different texts can count as repetitions.
-/

namespace GuardedStore.Query

/-- The records of a list, in their order, that are the same as none of the records before them. -/
def KeepsFirsts (same : Record → Record → Prop) (records kept : List Record) : Prop :=
  ∃ places : List (Fin records.length),
    places.Pairwise (· < ·) ∧ kept = places.map records.get ∧
      ∀ i, i ∈ places ↔ ∀ j < i, ¬ same (records.get j) (records.get i)

/-- Two records have the same text in each of some fields. A missing field has the text of null. -/
def SameTexts (fields : List String) (left right : Record) : Prop :=
  ∀ name ∈ fields, (left.value name).plainText = (right.value name).plainText

instance (fields : List String) (left right : Record) : Decidable (SameTexts fields left right) :=
  inferInstanceAs (Decidable (∀ name ∈ fields, _ = _))

/-- In the text of no field but the last one, with the colon behind it, do two colons stand together. -/
def Parted (fields : List String) (record : Record) : Prop :=
  ∀ name ∈ fields.dropLast, ¬ [':', ':'] <:+: (record.value name).plainText.toList ++ [':']

instance (fields : List String) (record : Record) : Decidable (Parted fields record) :=
  inferInstanceAs (Decidable (∀ name ∈ fields.dropLast, ¬ _))

variable {records kept : List Record} {fields : List String} {left right : Record}

theorem firstsBy_eq (text : Record → String) (seen : List String) (records : List Record) :
    firstsBy text seen records =
      ((List.finRange records.length).filter fun i =>
        text (records.get i) ∉ seen ∧ ∀ j < i, text (records.get j) ≠ text (records.get i)).map
        records.get := by
  induction records generalizing seen with
  | nil => rfl
  | cons record rest ih =>
      have later (i : Fin rest.length) :
          (text ((record :: rest).get i.succ) ∉ seen ∧
            ∀ j < i.succ, text ((record :: rest).get j) ≠ text ((record :: rest).get i.succ)) ↔
          text (rest.get i) ∉ text record :: seen ∧ ∀ j < i, text (rest.get j) ≠ text (rest.get i) := by
        simp only [Fin.forall_fin_succ, Fin.succ_pos, Fin.succ_lt_succ_iff, List.get_cons_zero, List.mem_cons,
          not_or, forall_true_left, ne_eq, eq_comm]
        exact ⟨fun ⟨unseen, other, fresh⟩ => ⟨⟨other, unseen⟩, fresh⟩,
          fun ⟨⟨other, unseen⟩, fresh⟩ => ⟨unseen, other, fresh⟩⟩
      simp only [List.length_cons, List.finRange_succ, List.filter_cons, List.filter_map, Function.comp_def,
        later]
      by_cases known : text record ∈ seen
      · -- A text that was seen before the list is no other one when it stands in the list as well.
        have same (i : Fin rest.length) :
            text (rest.get i) ∉ text record :: seen ↔ text (rest.get i) ∉ seen := by
          refine not_congr ⟨fun member => ?_, List.mem_cons_of_mem _⟩
          rcases List.mem_cons.mp member with equal | member
          · exact equal ▸ known
          · exact member
        simp only [same]
        rw [firstsBy, if_pos (by simpa using known), ih, if_neg (by simpa using known), List.map_map]
        rfl
      · rw [firstsBy, if_neg (by simpa using known), ih, if_pos (by simpa using known), List.map_cons,
          List.map_map]
        rfl

theorem distinct_keepsFirsts_combined (records : List Record) (fields : List String) :
    KeepsFirsts (fun left right => combinedText fields left = combinedText fields right) records
      (distinct records fields) := by
  refine ⟨_, (List.pairwise_lt_finRange _).filter _, firstsBy_eq _ _ _, fun i => ?_⟩
  simp

theorem KeepsFirsts.congr {same same' : Record → Record → Prop} (h : KeepsFirsts same records kept)
    (agree : ∀ left ∈ records, ∀ right ∈ records, same left right ↔ same' left right) :
    KeepsFirsts same' records kept := by
  obtain ⟨places, ascending, listed, firsts⟩ := h
  refine ⟨places, ascending, listed, fun i => ?_⟩
  rw [firsts]
  simp only [agree _ (records.get_mem _) _ (records.get_mem _)]

/-- Behind texts in which no two colons stand together, also not with a colon behind them, the first two colons
are those that were put there. -/
theorem cut_at_colons {before before' after after' : List Char}
    (parted : ¬ [':', ':'] <:+: before ++ [':']) (parted' : ¬ [':', ':'] <:+: before' ++ [':'])
    (h : before ++ ':' :: ':' :: after = before' ++ ':' :: ':' :: after') :
    before = before' ∧ after = after' := by
  have none {short more last last' : List Char} (long : ¬ [':', ':'] <:+: short ++ more ++ [':'])
      (h : ':' :: ':' :: last = more ++ ':' :: ':' :: last') : more = [] := by
    match more, h with
    | [], _ => rfl
    | [c], h =>
        cases h
        exact absurd ⟨short, [], by simp⟩ long
    | c :: d :: more, h =>
        cases h
        exact absurd ⟨short, more ++ [':'], by simp⟩ long
  rcases List.append_eq_append_iff.mp h with ⟨more, rfl, rest⟩ | ⟨more, rfl, rest⟩
  · obtain rfl := none parted' rest
    simpa using rest
  · obtain rfl := none parted rest
    simpa [eq_comm] using rest

theorem combinedText_cons (name next : String) (rest : List String) (record : Record) :
    (combinedText (name :: next :: rest) record).toList =
      (record.value name).plainText.toList ++ ':' :: ':' :: (combinedText (next :: rest) record).toList := by
  simp [combinedText, String.toList_append]

theorem combinedText_eq_iff (parted : Parted fields left) (parted' : Parted fields right) :
    combinedText fields left = combinedText fields right ↔ SameTexts fields left right := by
  constructor
  · intro combined
    induction fields with
    | nil => exact nofun
    | cons name rest ih =>
        cases rest with
        | nil => simpa [SameTexts, combinedText] using combined
        | cons next rest =>
            have cut := congrArg String.toList combined
            rw [combinedText_cons, combinedText_cons] at cut
            obtain ⟨here, others⟩ := cut_at_colons (parted name List.mem_cons_self)
              (parted' name List.mem_cons_self) cut
            refine List.forall_mem_cons.mpr ⟨String.toList_inj.mp here, ?_⟩
            exact ih (fun other later => parted other (List.mem_cons_of_mem _ later))
              (fun other later => parted' other (List.mem_cons_of_mem _ later)) (String.toList_inj.mp others)
  · intro same
    rw [combinedText, combinedText, List.map_congr_left same]

/-- Of the records with one combined text the first one is kept; and where no text has two colons at which it
could be cut, these are the records with the same texts, so that records which differ in some field are never
taken for repetitions. -/
theorem distinct_keepsFirsts (records : List Record) (fields : List String) :
    KeepsFirsts (fun left right => combinedText fields left = combinedText fields right) records
        (distinct records fields) ∧
      ((∀ record ∈ records, Parted fields record) →
        KeepsFirsts (SameTexts fields) records (distinct records fields)) := by
  have combined := distinct_keepsFirsts_combined records fields
  refine ⟨combined, fun parted => combined.congr ?_⟩
  intro left inLeft right inRight
  exact combinedText_eq_iff (parted left inLeft) (parted right inRight)

/-- Shirts of which two have one size, written in two ways, and one has colons for a size. -/
def sizedShirts : List Record :=
  [.plain [("kind", .str "t:shirt"), ("size", .int 1)], .plain [("kind", .str "t:shirt"), ("size", .float .one)],
    .plain [("kind", .str "t:shirt"), ("size", .str "::")], .plain [("size", .int 1)]]

theorem distinct_keepsFirsts_of_shirts :
    (∀ record ∈ sizedShirts, Parted ["kind", "size"] record) ∧
      KeepsFirsts (SameTexts ["kind", "size"]) sizedShirts (distinct sizedShirts ["kind", "size"]) := by
  have parted : ∀ record ∈ sizedShirts, Parted ["kind", "size"] record := by decide +kernel
  exact ⟨parted, (distinct_keepsFirsts sizedShirts ["kind", "size"]).2 parted⟩

/-- Notes with different texts in both fields, which are one text when they are combined. -/
def splitNotes : List Record :=
  [.plain [("a", .str "x::y"), ("b", .str "z")], .plain [("a", .str "x"), ("b", .str "y::z")]]

/-- The second note is left out, though no note before it has its texts. -/
theorem different_notes_merged :
    ¬ KeepsFirsts (SameTexts ["a", "b"]) splitNotes (distinct splitNotes ["a", "b"]) := by
  rintro ⟨places, -, listed, firsts⟩
  have alone : (distinct splitNotes ["a", "b"]).length = 1 := by decide +kernel
  rw [listed, List.length_map] at alone
  obtain ⟨place, rfl⟩ := List.length_eq_one_iff.mp alone
  have first : (0 : Fin 2) = place :=
    List.mem_singleton.mp ((firsts (0 : Fin 2)).mpr (by decide +kernel))
  have second : (1 : Fin 2) = place :=
    List.mem_singleton.mp ((firsts (1 : Fin 2)).mpr (by decide +kernel))
  exact absurd (first.trans second.symm) (by decide)

end GuardedStore.Query
