import Mathlib
import GuardedStore.Digest.Keyed
import GuardedStore.Text.Case

/-! # Ideal hashes

Tokens and passwords are known by their hashes. What is promised about them rests on two properties of
the hash: different texts have different digests, and digests are spelled in lower-case hexadecimal,
so that case folding leaves them alone.
-/

namespace GuardedStore

/-- The digits of a digest. -/
def Text.hexAlphabet : List Char :=
  ['0', '1', '2', '3', '4', '5', '6', '7', '8', '9', 'a', 'b', 'c', 'd', 'e', 'f']

/-- Different texts have different digests, which consist of lower-case hexadecimal digits. -/
structure Hasher.Ideal (hasher : Hasher) : Prop where
  injective : Function.Injective hasher
  hex : ∀ text, ∀ c ∈ (hasher text).toList, c ∈ Text.hexAlphabet

theorem Text.hexAlphabet_ascii : ∀ c ∈ hexAlphabet, c.toNat < 128 := by
  have all : hexAlphabet.all (fun c => c.toNat < 128) = true := by decide
  simpa only [List.all_eq_true, decide_eq_true_eq] using all

theorem Text.hexAlphabet_lower : ∀ c ∈ hexAlphabet, c.toLower = c := by
  have all : hexAlphabet.all (fun c => c.toLower = c) = true := by decide
  simpa only [List.all_eq_true, decide_eq_true_eq] using all

theorem Text.mapCase_hex {c : Char} (h : c ∈ hexAlphabet) (runs : List CaseRun)
    (sequences : List (Nat × List Nat)) : mapCase runs sequences c = [c] := by
  rw [mapCase, if_pos (hexAlphabet_ascii c h), hexAlphabet_lower c h]

theorem Text.foldCase_of_hex {text : String} (h : ∀ c ∈ text.toList, c ∈ hexAlphabet) :
    foldCase text = text := by
  have fixed (cs : List Char) (h : ∀ c ∈ cs, c ∈ hexAlphabet) :
      cs.flatMap (mapCase foldRuns foldSequences) = cs := by
    induction cs with
    | nil => rfl
    | cons c cs ih =>
        rw [List.flatMap_cons, mapCase_hex (h c List.mem_cons_self),
          ih fun c later => h c (List.mem_cons_of_mem _ later)]
        rfl
  rw [foldCase, fixed text.toList h, String.ofList_toList]

namespace Hasher

variable {hasher : Hasher}

theorem Ideal.foldCase_digest (ideal : hasher.Ideal) (text : String) :
    Text.foldCase (hasher text) = hasher text :=
  Text.foldCase_of_hex (ideal.hex text)

/-- A password has the digest of another one only when they are the same. -/
theorem Ideal.verify_digest (ideal : hasher.Ideal) (text other : String) :
    hasher.verify text (hasher other) = .ok (decide (text = other)) := by
  have ascii : (hasher other).toList.all (fun c => c.toNat < 128) = true := by
    rw [List.all_eq_true]
    intro c member
    exact decide_eq_true (Text.hexAlphabet_ascii c (ideal.hex other c member))
  rw [verify, if_pos ascii]
  simp [ideal.injective.eq_iff]

end Hasher

theorem Text.digitChar_hex : ∀ m < 16, Nat.digitChar m ∈ hexAlphabet := by
  decide

theorem Text.toDigits_hex (n : Nat) : ∀ c ∈ Nat.toDigits 16 n, c ∈ hexAlphabet := by
  induction n using Nat.strongRecOn with
  | ind n ih =>
      intro c member
      rw [Nat.toDigits_eq_if (by decide)] at member
      split at member
      · rename_i small
        rw [List.mem_singleton.mp member]
        exact digitChar_hex n small
      · rcases List.mem_append.mp member with higher | last
        · exact ih (n / 16) (by omega) c higher
        · rw [List.mem_singleton.mp last]
          exact digitChar_hex (n % 16) (Nat.mod_lt n (by decide))

theorem Text.hexDigits_hex (width n : Nat) : ∀ c ∈ hexDigits width n, c ∈ hexAlphabet := by
  intro c member
  rcases List.mem_append.mp member with padding | digit
  · rw [List.eq_of_mem_replicate padding]
    decide
  · exact toDigits_hex n c digit

theorem Keyed.hasher_hex (secret text : String) :
    ∀ c ∈ (hasher secret text).toList, c ∈ Text.hexAlphabet := by
  intro c member
  rw [hasher, toHex, String.toList_ofList] at member
  obtain ⟨byte, -, digit⟩ := List.mem_flatMap.mp member
  exact Text.hexDigits_hex 2 byte.toNat c digit

/-- Keyed digests are ideal as far as different texts have different ones. -/
theorem Keyed.ideal_hasher_iff (secret : String) :
    Hasher.Ideal (hasher secret) ↔ Function.Injective (hasher secret) :=
  ⟨Hasher.Ideal.injective, fun injective => ⟨injective, hasher_hex secret⟩⟩

namespace Text

/-- A character in six hexadecimal digits, the last one first. -/
def spelling (c : Char) : List Char :=
  (List.range 6).map fun i => Nat.digitChar (c.toNat / 16 ^ i % 16)

theorem digitChar_inj : ∀ m < 16, ∀ n < 16, Nat.digitChar m = Nat.digitChar n → m = n := by
  decide

theorem eq_of_digits (count : Nat) : ∀ m n : Nat, m < 16 ^ count → n < 16 ^ count →
    (∀ i < count, m / 16 ^ i % 16 = n / 16 ^ i % 16) → m = n := by
  induction count with
  | zero =>
      intro m n hm hn _
      omega
  | succ count ih =>
      intro m n hm hn digits
      rw [Nat.pow_succ] at hm hn
      have last := digits 0 (Nat.succ_pos count)
      rw [Nat.pow_zero, Nat.div_one, Nat.div_one] at last
      have others : m / 16 = n / 16 := by
        refine ih _ _ (by omega) (by omega) ?_
        intro i hi
        have digit := digits (i + 1) (Nat.succ_lt_succ hi)
        rwa [Nat.pow_succ', ← Nat.div_div_eq_div_mul, ← Nat.div_div_eq_div_mul] at digit
      omega

theorem spelling_injective : Function.Injective spelling := by
  intro c d same
  have short (c : Char) : c.toNat < 16 ^ 6 := by
    have valid := c.valid
    simp only [UInt32.isValidChar, Nat.isValidChar] at valid
    have code : c.toNat = c.val.toNat := rfl
    omega
  refine Char.toNat_inj.mp (eq_of_digits 6 _ _ (short c) (short d) ?_)
  intro i hi
  have chars := List.map_inj_left.mp same i (List.mem_range.mpr hi)
  exact digitChar_inj _ (Nat.mod_lt _ (by decide)) _ (Nat.mod_lt _ (by decide)) chars

theorem length_spelling (c : Char) : (spelling c).length = 6 := by
  simp [spelling]

/-- A text character by character, as a hash. -/
def spelled : Hasher := fun text =>
  String.ofList (text.toList.flatMap spelling)

theorem flatMap_spelling_injective : Function.Injective fun cs : List Char => cs.flatMap spelling := by
  intro cs
  induction cs with
  | nil =>
      intro ds same
      cases ds with
      | nil => rfl
      | cons d ds =>
          have lengths := congrArg List.length same
          simp [length_spelling] at lengths
          omega
  | cons c cs ih =>
      intro ds same
      cases ds with
      | nil =>
          have lengths := congrArg List.length same
          simp [length_spelling] at lengths
      | cons d ds =>
          simp only [List.flatMap_cons] at same
          obtain ⟨first, others⟩ := List.append_inj same (by rw [length_spelling, length_spelling])
          rw [spelling_injective first, ih others]

theorem spelled_ideal : spelled.Ideal where
  injective := by
    intro text other same
    have lists := flatMap_spelling_injective (String.ofList_injective same)
    exact String.toList_injective lists
  hex := by
    intro text c member
    rw [spelled, String.toList_ofList] at member
    obtain ⟨d, -, digit⟩ := List.mem_flatMap.mp member
    obtain ⟨i, -, rfl⟩ := List.mem_map.mp digit
    exact digitChar_hex _ (Nat.mod_lt _ (by decide))

end Text

end GuardedStore
