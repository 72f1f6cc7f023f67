import Mathlib
import GuardedStore.Query.Filter

/-! # How the text of a filter is cut

Where a word stands in a text is where characters that look like its letters stand one behind the other. A
text is cut at the words between clauses, and a clause at its first operator; what is cut is made of the
characters of the text.
-/

namespace GuardedStore

namespace Text

/-- A character is its own lower case or the capital of it. -/
theorem small_or_capital (c : Char) : c.toLower = c ∨ c.toLower.toUpper = c := by
  by_cases upper : c.isUpper = true
  · rw [Char.toUpper_toLower_eq_toUpper, Char.toUpper_eq_of_not_isLower]
    · exact .inr rfl
    · exact Char.not_isLower_of_isUpper upper
  · exact .inl (Char.toLower_eq_of_not_isUpper upper)

variable {p : Char → Bool} {cs : List Char}

theorem stripEnds_eq (p : Char → Bool) (cs : List Char) :
    stripEnds p cs = (cs.dropWhile p).rdropWhile p := rfl

theorem stripEnds_sublist (p : Char → Bool) (cs : List Char) : (stripEnds p cs).Sublist cs :=
  (List.rdropWhile_prefix p (cs.dropWhile p)).sublist.trans (List.dropWhile_sublist p)

/-- A text without blanks at its ends is left as it is. -/
theorem stripEnds_self (first : ∀ c ∈ cs.head?, p c = false) (last : ∀ c ∈ cs.getLast?, p c = false) :
    stripEnds p cs = cs := by
  have kept : cs.dropWhile p = cs := by
    cases cs with
    | nil => rfl
    | cons c rest => rw [List.dropWhile_cons_of_neg (by simpa using first c rfl)]
  rw [stripEnds_eq, kept, List.rdropWhile_eq_self_iff]
  intro nonempty
  simpa using last _ (List.getLast?_eq_some_getLast nonempty)

theorem last_of_stripEnds_self (h : stripEnds p cs = cs) : ∀ c ∈ cs.getLast?, p c = false := by
  intro c isLast
  rw [stripEnds_eq] at h
  have short := (List.rdropWhile_prefix p (cs.dropWhile p)).length_le
  have kept : cs.dropWhile p = cs :=
    (List.dropWhile_suffix p).eq_of_length_le (by rw [h] at short; exact short)
  rw [kept, List.rdropWhile_eq_self_iff] at h
  obtain ⟨front, rfl⟩ := List.getLast?_eq_some_iff.mp isLast
  simpa using h

theorem stripEnds_lead (p : Char → Bool) (lead : List Char) (first : ∀ c ∈ lead.head?, p c = false)
    {last : Char} (isLast : lead.getLast? = some last) (kept : p last = false) (cs : List Char) :
    ∃ rest, stripEnds p (lead ++ cs) = lead ++ rest ∧ rest <+: cs := by
  obtain ⟨front, rfl⟩ := List.getLast?_eq_some_iff.mp isLast
  have start : (front ++ [last] ++ cs).dropWhile p = front ++ [last] ++ cs := by
    cases front with
    | nil => simp [kept]
    | cons c front => simp [first c rfl]
  refine ⟨cs.rdropWhile p, ?_, List.rdropWhile_prefix p cs⟩
  have ends : (front ++ [last]).reverse.dropWhile p = (front ++ [last]).reverse := by simp [kept]
  rw [stripEnds_eq, start, List.rdropWhile, List.reverse_append, List.dropWhile_append, ends]
  split
  · rename_i nothing
    rw [List.isEmpty_iff] at nothing
    rw [List.reverse_reverse, List.rdropWhile, nothing, List.reverse_nil, List.append_nil]
  · rw [List.reverse_append, List.reverse_reverse, List.rdropWhile]

end Text

namespace Query

variable {word read rest part cs : List Char} {fuel : Nat}

/-- The characters look like the letters of the word. -/
abbrev Spells (word read : List Char) : Prop :=
  List.Forall₂ (fun letter c => looksLike letter c = true) word read

theorem afterWord?_eq_some_iff :
    afterWord? word cs = some (read, rest) ↔ cs = read ++ rest ∧ Spells word read := by
  induction word generalizing cs read with
  | nil =>
      rw [afterWord?, Spells, List.forall₂_nil_left_iff]
      simp only [Option.some.injEq, Prod.mk.injEq]
      constructor
      · rintro ⟨rfl, rfl⟩
        exact ⟨rfl, rfl⟩
      · rintro ⟨rfl, rfl⟩
        exact ⟨rfl, rfl⟩
  | cons letter word ih =>
      cases cs with
      | nil =>
          simp only [afterWord?, reduceCtorEq, false_iff, not_and]
          intro same related
          cases related
          cases same
      | cons c cs =>
          rw [afterWord?]
          split
          · rename_i like
            rw [Option.map_eq_some_iff]
            constructor
            · rintro ⟨⟨read, rest⟩, found, same⟩
              cases same
              obtain ⟨rfl, related⟩ := ih.mp found
              exact ⟨rfl, .cons like related⟩
            · rintro ⟨same, related⟩
              cases related with
              | cons _ related =>
                  cases same
                  exact ⟨_, ih.mpr ⟨rfl, related⟩, rfl⟩
          · rename_i unlike
            simp only [reduceCtorEq, false_iff, not_and]
            intro same related
            cases related with
            | cons like related =>
                cases same
                exact unlike like

/-- No place inside a text is one where a word starts, however far the word reaches into what follows. -/
def Clear (word cs rest : List Char) : Prop :=
  ∀ start, start ≠ [] → start <:+ cs → afterWord? word (start ++ rest) = none

theorem Clear.tail {c : Char} (h : Clear word (c :: cs) rest) : Clear word cs rest :=
  fun start nonempty inside => h start nonempty (inside.trans (List.suffix_cons c cs))

theorem Clear.head {c : Char} (h : Clear word (c :: cs) rest) :
    afterWord? word (c :: (cs ++ rest)) = none :=
  h _ (List.cons_ne_nil c cs) (List.suffix_refl _)

theorem clear_nil (word rest : List Char) : Clear word [] rest :=
  fun _ nonempty inside => absurd (List.suffix_nil.mp inside) nonempty

theorem clear_cons_iff {c : Char} :
    Clear word (c :: cs) rest ↔ afterWord? word (c :: (cs ++ rest)) = none ∧ Clear word cs rest := by
  constructor
  · intro h
    exact ⟨h.head, h.tail⟩
  · rintro ⟨here, later⟩ start nonempty inside
    rcases List.suffix_cons_iff.mp inside with rfl | inside
    · exact here
    · exact later start nonempty inside

theorem Clear.suffix {more : List Char} (h : Clear word (cs ++ more) rest) : Clear word more rest :=
  fun start nonempty inside => h start nonempty (inside.trans (List.suffix_append cs more))

theorem exists_first_word (h : ¬ Clear word cs []) :
    ∃ front rest read after, cs = front ++ rest ∧ Clear word front rest ∧
      afterWord? word rest = some (read, after) := by
  induction cs with
  | nil => exact absurd (clear_nil word []) h
  | cons c cs ih =>
      cases found : afterWord? word (c :: cs) with
      | some result => exact ⟨[], c :: cs, result.1, result.2, rfl, clear_nil word _, found⟩
      | none =>
          rw [clear_cons_iff, List.append_nil] at h
          obtain ⟨front, rest, read, after, rfl, clear, found'⟩ := ih fun clear => h ⟨found, clear⟩
          exact ⟨c :: front, rest, read, after, rfl, clear_cons_iff.mpr ⟨found, clear⟩, found'⟩

theorem Clear.cut {lead tail front : List Char} {result : List Char × List Char}
    (clear : Clear word lead tail) (split : lead ++ tail = front ++ rest)
    (found : afterWord? word rest = some result) : ∃ cut, front = lead ++ cut ∧ cut ++ rest = tail := by
  rcases List.append_eq_append_iff.mp split with ⟨cut, rfl, rfl⟩ | ⟨beyond, rfl, rfl⟩
  · exact ⟨cut, rfl, rfl⟩
  · cases beyond with
    | nil => exact ⟨[], by simp, rfl⟩
    | cons c beyond =>
        rw [clear (c :: beyond) (List.cons_ne_nil _ _) (List.suffix_append _ _)] at found
        cases found

/-- A text without the word is one part. -/
theorem splitAtWord_clear (clear : Clear word cs []) (enough : cs.length ≤ fuel) :
    splitAtWord word part fuel cs = [part.reverse ++ cs] := by
  induction cs generalizing part fuel with
  | nil => cases fuel <;> simp [splitAtWord]
  | cons c cs ih =>
      cases fuel with
      | zero => simp at enough
      | succ fuel =>
          have none := clear.head
          rw [List.append_nil] at none
          simp only [splitAtWord, none]
          rw [ih clear.tail (by simpa using enough)]
          simp

theorem splitAtWord_append {after : List Char} (clear : Clear word cs rest)
    (found : afterWord? word rest = some (read, after)) (nonempty : word ≠ [])
    (enough : (cs ++ rest).length ≤ fuel) :
    ∃ left, after.length ≤ left ∧
      splitAtWord word part fuel (cs ++ rest) = (part.reverse ++ cs) :: splitAtWord word [] left after := by
  induction cs generalizing part fuel with
  | nil =>
      obtain ⟨rfl, related⟩ := afterWord?_eq_some_iff.mp found
      cases related with
      | nil => exact absurd rfl nonempty
      | cons like related =>
          cases fuel with
          | zero => simp at enough
          | succ fuel =>
              refine ⟨fuel, ?_, ?_⟩
              · simp only [List.nil_append, List.length_append, List.length_cons] at enough
                omega
              · simp only [List.nil_append, List.cons_append] at found ⊢
                simp [splitAtWord, found]
  | cons c cs ih =>
      cases fuel with
      | zero => simp at enough
      | succ fuel =>
          have shorter : (cs ++ rest).length ≤ fuel := by simpa using enough
          obtain ⟨left, long, split⟩ := @ih (c :: part) fuel clear.tail shorter
          refine ⟨left, long, ?_⟩
          simp only [List.cons_append, splitAtWord, clear.head]
          rw [split]
          simp

theorem splitAtWord_ne_nil (word part : List Char) (fuel : Nat) (cs : List Char) :
    splitAtWord word part fuel cs ≠ [] := by
  fun_induction splitAtWord word part fuel cs with
  | case1 => exact List.cons_ne_nil _ _
  | case2 => exact List.cons_ne_nil _ _
  | case3 => exact List.cons_ne_nil _ _
  | case4 _ _ _ _ _ ih => exact ih

/-- The first part of a text with a word is what stands before the first one. -/
theorem exists_first_part (h : ¬ Clear word cs []) (nonempty : word ≠ []) :
    ∃ front rest read after left, cs = front ++ rest ∧ afterWord? word rest = some (read, after) ∧
      splitAtWord word [] cs.length cs = front :: splitAtWord word [] left after := by
  obtain ⟨front, rest, read, after, rfl, clear, found⟩ := exists_first_word h
  have parts : ∃ left, after.length ≤ left ∧ splitAtWord word [] (front ++ rest).length (front ++ rest) =
      ([].reverse ++ front) :: splitAtWord word [] left after :=
    splitAtWord_append clear found nonempty (Nat.le_refl _)
  obtain ⟨left, -, parts⟩ := parts
  exact ⟨front, rest, read, after, left, rfl, found, parts⟩

theorem mem_of_splitAtWord {cut : List Char} {c : Char} (isPart : cut ∈ splitAtWord word part fuel cs)
    (inside : c ∈ cut) : c ∈ part ∨ c ∈ cs := by
  fun_induction splitAtWord word part fuel cs with
  | case1 => simp_all
  | case2 => simp_all
  | case3 part fuel c' rest read after found ih =>
      rcases List.mem_cons.mp isPart with rfl | later
      · exact .inl (by simpa using inside)
      · rcases ih later with none | behind
        · cases none
        · rw [(afterWord?_eq_some_iff.mp found).1]
          exact .inr (List.mem_append_right _ behind)
  | case4 part fuel c' rest found ih =>
      rcases ih isPart with read | behind
      · rcases List.mem_cons.mp read with rfl | read
        · exact .inr List.mem_cons_self
        · exact .inl read
      · exact .inr (List.mem_cons_of_mem _ behind)

theorem looksLike_self (c : Char) : looksLike c c = true := by
  simp [looksLike]

theorem afterWord?_self (word cs : List Char) : afterWord? word (word ++ cs) = some (word, cs) :=
  afterWord?_eq_some_iff.mpr ⟨rfl, List.forall₂_same.mpr fun c _ => looksLike_self c⟩

theorem Clear.append {more : List Char} (h : Clear word cs (more ++ rest)) (h' : Clear word more rest) :
    Clear word (cs ++ more) rest := by
  rintro start nonempty ⟨front, same⟩
  rcases List.append_eq_append_iff.mp same with ⟨beyond, rfl, rfl⟩ | ⟨beyond, rfl, rfl⟩
  · rcases List.eq_nil_or_concat' beyond with rfl | ⟨beyond, c, rfl⟩
    · exact h' _ nonempty (List.suffix_refl _)
    · rw [List.append_assoc]
      exact h _ (by simp) (List.suffix_append _ _)
  · exact h' start nonempty (List.suffix_append _ _)

variable {letters : List Char}

/-- A word in blanks. -/
def spaced (letters : List Char) : List Char :=
  ' ' :: (letters ++ [' '])

/-- Letters of a word, none of which can be taken for a blank. -/
def Blankless (letters : List Char) : Prop :=
  letters ≠ [] ∧ ∀ letter ∈ letters, looksLike letter ' ' = false

/-- The word does not stand in the part, and the part does not end with the last letter of the word. -/
structure Apart (letters part : List Char) : Prop where
  clear : Clear (spaced letters) part []
  ends : ∀ letter ∈ letters.getLast?, ∀ c ∈ part.getLast?, looksLike letter c = false

theorem spells_of_blank {beyond : List Char} (blankless : ∀ letter ∈ letters, looksLike letter ' ' = false)
    (h : Spells (letters ++ [' ']) (cs ++ ' ' :: beyond)) : Spells letters cs := by
  induction letters generalizing cs with
  | nil =>
      cases cs with
      | nil => exact .nil
      | cons c cs =>
          cases h with
          | cons _ none => cases cs <;> cases none
  | cons letter letters ih =>
      obtain ⟨first, others⟩ := List.forall_mem_cons.mp blankless
      cases cs with
      | nil =>
          cases h with
          | cons like _ =>
              rw [first] at like
              cases like
      | cons c cs =>
          cases h with
          | cons like h => exact .cons like (ih others h)

theorem Spells.last (h : Spells word read) {letter c : Char} (isLetter : word.getLast? = some letter)
    (isLast : read.getLast? = some c) : looksLike letter c = true := by
  obtain ⟨front, rfl⟩ := List.getLast?_eq_some_iff.mp isLetter
  obtain ⟨front', rfl⟩ := List.getLast?_eq_some_iff.mp isLast
  have reversed := List.rel_reverse h
  simp only [List.reverse_append, List.reverse_singleton, List.singleton_append] at reversed
  cases reversed with
  | cons like _ => exact like

theorem ends_of_reaching {start beyond : List Char} (blankless : Blankless letters) (nonempty : start ≠ [])
    (h : Spells (spaced letters) (start ++ ' ' :: beyond)) :
    ∃ letter ∈ letters.getLast?, ∃ c ∈ start.getLast?, looksLike letter c = true := by
  cases start with
  | nil => exact absurd rfl nonempty
  | cons c start =>
      cases h with
      | cons _ h =>
          have spelt := spells_of_blank blankless.2 h
          have letter := List.getLast?_eq_some_getLast blankless.1
          rcases List.eq_nil_or_concat' start with rfl | ⟨front, last, rfl⟩
          · exact absurd (List.forall₂_nil_right_iff.mp spelt) blankless.1
          · have isLast : (c :: (front ++ [last])).getLast? = some last :=
              List.getLast?_eq_some_iff.mpr ⟨c :: front, rfl⟩
            exact ⟨_, letter, last, isLast, spelt.last letter List.getLast?_concat⟩

theorem Apart.before (apart : Apart letters part) (blankless : Blankless letters)
    (blank : rest.head? = some ' ') : Clear (spaced letters) part rest := by
  intro start nonempty inside
  have unread := apart.clear start nonempty inside
  rw [List.append_nil] at unread
  have noneInside {read after : List Char} (same : start = read ++ after)
      (spelt : Spells (spaced letters) read) : False := by
    rw [afterWord?_eq_some_iff.mpr ⟨same, spelt⟩] at unread
    cases unread
  by_contra found
  obtain ⟨⟨read, after⟩, found⟩ := Option.ne_none_iff_exists'.mp found
  obtain ⟨same, spelt⟩ := afterWord?_eq_some_iff.mp found
  rcases List.append_eq_append_iff.mp same with ⟨beyond, rfl, rfl⟩ | ⟨beyond, rfl, -⟩
  · cases beyond with
    | nil =>
        rw [List.append_nil] at spelt
        exact noneInside (List.append_nil start).symm spelt
    | cons c beyond =>
        cases blank
        obtain ⟨letter, isLetter, last, isLast, like⟩ := ends_of_reaching blankless nonempty spelt
        obtain ⟨front, whole⟩ := inside
        rw [← List.getLast?_append_of_ne_nil front nonempty, whole] at isLast
        rw [apart.ends letter isLetter last isLast] at like
        cases like
  · exact noneInside rfl spelt

theorem splitAtWord_intercalate {parts : List (List Char)} (apart : ∀ part ∈ parts, Apart letters part)
    (blankless : Blankless letters) (nonempty : parts ≠ [])
    (enough : ((spaced letters).intercalate parts).length ≤ fuel) :
    splitAtWord (spaced letters) [] fuel ((spaced letters).intercalate parts) = parts := by
  induction parts generalizing fuel with
  | nil => exact absurd rfl nonempty
  | cons part parts ih =>
      obtain ⟨first, others⟩ := List.forall_mem_cons.mp apart
      cases parts with
      | nil =>
          rw [List.intercalate_singleton] at enough ⊢
          exact splitAtWord_clear first.clear enough
      | cons next parts =>
          rw [List.intercalate_cons_cons, List.append_assoc] at enough ⊢
          have clear : Clear (spaced letters) part
              (spaced letters ++ (spaced letters).intercalate (next :: parts)) :=
            first.before blankless rfl
          obtain ⟨left, long, split⟩ :=
            splitAtWord_append clear (afterWord?_self (spaced letters) _) (List.cons_ne_nil _ _) enough
          rw [split, ih others (List.cons_ne_nil _ _) long]
          rfl

/-- The characters that are taken for the letter i where words are looked for, though they are none. -/
def IsLookAlike (c : Char) : Prop :=
  c = '\u0130' ∨ c = '\u0131'

theorem lookAlike_of_wordOperator? {name : String} {operator : Operator}
    (h : wordOperator? name operator cs = some (none, rest)) : ∃ c ∈ cs, IsLookAlike c := by
  obtain ⟨⟨read, behind⟩, found, same⟩ := Option.map_eq_some_iff.mp h
  rw [(afterWord?_eq_some_iff.mp found).1]
  simp only [Prod.mk.injEq] at same
  have some := same.1
  split at some
  · rename_i like
    obtain ⟨c, inside, like⟩ := List.any_eq_true.mp like
    exact ⟨c, List.mem_append_left _ inside, by simpa [IsLookAlike] using like⟩
  · cases some

theorem lookAlike_of_readOperator? (h : readOperator? cs = some (none, rest)) :
    ∃ c ∈ cs, IsLookAlike c := by
  unfold readOperator? at h
  split at h <;> try cases h
  split at h
  · rename_i found
    cases h
    exact lookAlike_of_wordOperator? found
  · split at h
    · rename_i found
      cases h
      exact lookAlike_of_wordOperator? found
    · cases h

theorem lookAlike_of_cutClause? {field name literal : List Char}
    (h : cutClause? field cs = some (name, none, literal)) : ∃ c ∈ cs, IsLookAlike c := by
  fun_induction cutClause? field cs with
  | case1 => cases h
  | case2 field c cs first ih =>
      obtain ⟨c', inside, like⟩ := ih h
      exact ⟨c', List.mem_cons_of_mem _ inside, like⟩
  | case3 field c cs inner operator literal found =>
      cases h
      exact lookAlike_of_readOperator? found
  | case4 field c cs inner found ih =>
      obtain ⟨c', inside, like⟩ := ih h
      exact ⟨c', List.mem_cons_of_mem _ inside, like⟩

/-- Characters that start no operator. -/
def StartsNone (c : Char) : Prop :=
  c ≠ '<' ∧ c ≠ '>' ∧ c ≠ '=' ∧ c ≠ ' '

theorem readOperator?_of_startsNone {c : Char} (h : StartsNone c) (cs : List Char) :
    readOperator? (c :: cs) = none := by
  obtain ⟨less, greater, equal, blank⟩ := h
  have noWord (letters : List Char) : afterWord? (' ' :: letters) (c :: cs) = none := by
    simp [afterWord?, looksLike, blank]
  have noLike : wordOperator? " like " .like (c :: cs) = none := by
    rw [wordOperator?, show " like ".toList = ' ' :: "like ".toList from rfl, noWord, Option.map_none]
  have noIn : wordOperator? " in " .memberOf (c :: cs) = none := by
    rw [wordOperator?, show " in ".toList = ' ' :: "in ".toList from rfl, noWord, Option.map_none]
  unfold readOperator?
  split <;> simp_all

theorem cutClause?_behind {before field literal : List Char} {operator : Option Operator}
    (begun : before ≠ []) (noOperator : ∀ c ∈ field, StartsNone c)
    (found : readOperator? rest = some (operator, literal)) :
    cutClause? before (field ++ rest) = some (before.reverse ++ field, operator, literal) := by
  induction field generalizing before with
  | nil =>
      cases rest with
      | nil => cases found
      | cons c rest => simp [cutClause?, begun, found]
  | cons c field ih =>
      obtain ⟨here, later⟩ := List.forall_mem_cons.mp noOperator
      simp only [List.cons_append, cutClause?, List.isEmpty_iff, begun, if_false,
        readOperator?_of_startsNone here]
      rw [ih (List.cons_ne_nil c before) later]
      simp

/-- A clause is cut behind its field when no operator starts inside of it. -/
theorem cutClause?_field {field literal : List Char} {operator : Option Operator}
    (nonempty : field ≠ []) (noOperator : ∀ c ∈ field, StartsNone c)
    (found : readOperator? rest = some (operator, literal)) :
    cutClause? [] (field ++ rest) = some (field, operator, literal) := by
  cases field with
  | nil => exact absurd rfl nonempty
  | cons c field =>
      obtain ⟨-, later⟩ := List.forall_mem_cons.mp noOperator
      simpa [cutClause?] using cutClause?_behind (List.cons_ne_nil c []) later found

end Query

end GuardedStore
