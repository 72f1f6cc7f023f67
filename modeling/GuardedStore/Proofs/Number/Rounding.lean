import Mathlib
import GuardedStore.Number.Arithmetic

/-! # The nearest number of an integer

Rounding an integer to the binary64 format keeps order, though it may make different integers one. Up to
`2 ^ 53` in size an integer is a number of the format itself.
-/

namespace GuardedStore.Binary64

variable {grid k m n b : Nat}

theorem bitLength_le_iff : bitLength n ≤ b ↔ n < 2 ^ b := by
  unfold bitLength
  split
  · rename_i zero
    simp [zero]
  · rename_i nonzero
    rw [Nat.add_one_le_iff]
    exact Nat.log2_lt nonzero

theorem bitLength_mono (h : m ≤ n) : bitLength m ≤ bitLength n :=
  bitLength_le_iff.mpr (h.trans_lt (bitLength_le_iff.mp (Nat.le_refl _)))

theorem pow_le_of_bitLength (h : b < bitLength n) : 2 ^ b ≤ n := by
  by_contra less
  have short := bitLength_le_iff.mpr (Nat.lt_of_not_le less)
  omega

theorem stepExponent_le (h : bitLength n ≤ b + 53) : stepExponent n ≤ b :=
  Nat.sub_le_of_le_add h

theorem stepExponent_mono (h : m ≤ n) : stepExponent m ≤ stepExponent n :=
  Nat.sub_le_sub_right (bitLength_mono h) 53

/-- The number of steps of the multiple that is nearest to a number; of two equally near ones the even one. -/
def nearestSteps (grid n : Nat) : Nat :=
  if 2 * (n % grid) < grid then n / grid
  else if grid < 2 * (n % grid) then n / grid + 1
  else n / grid + n / grid % 2

theorem nearestSteps_bounds (grid n : Nat) :
    n / grid ≤ nearestSteps grid n ∧ nearestSteps grid n ≤ n / grid + 1 := by
  unfold nearestSteps
  split
  · omega
  · split <;> omega

theorem nearestSteps_mono (h : m ≤ n) : nearestSteps grid m ≤ nearestSteps grid n := by
  have quotients : m / grid ≤ n / grid := Nat.div_le_div_right h
  rcases quotients.eq_or_lt with same | less
  · have rests : m % grid ≤ n % grid := by
      have first := Nat.div_add_mod m grid
      have second := Nat.div_add_mod n grid
      rw [same] at first
      omega
    unfold nearestSteps
    rw [same]
    grind
  · have above := (nearestSteps_bounds grid m).2
    have below := (nearestSteps_bounds grid n).1
    omega

theorem nearestSteps_mul (positive : 0 < grid) (k : Nat) : nearestSteps grid (k * grid) = k := by
  unfold nearestSteps
  rw [Nat.mul_mod_left, Nat.mul_div_cancel k positive, if_pos (by omega)]

/-- An even number of steps is reached from half a step below it on. -/
theorem le_nearestSteps_iff {half : Nat} (positive : 0 < half) (even : k % 2 = 0) :
    k ≤ nearestSteps (2 * half) n ↔ k * (2 * half) ≤ n + half := by
  have parts := Nat.div_add_mod' n (2 * half)
  have rest := Nat.mod_lt n (show 2 * half > 0 by omega)
  unfold nearestSteps
  generalize n / (2 * half) = quotient at parts ⊢
  generalize n % (2 * half) = remainder at parts rest ⊢
  rcases lt_trichotomy k (quotient + 1) with fewer | rfl | more
  · have bound : k * (2 * half) ≤ quotient * (2 * half) := Nat.mul_le_mul_right _ (by omega)
    constructor
    · omega
    · intro _
      split
      · omega
      · split <;> omega
  · rw [Nat.add_one_mul quotient]
    split
    · omega
    · split <;> omega
  · have bound : (quotient + 2) * (2 * half) ≤ k * (2 * half) := Nat.mul_le_mul_right _ (by omega)
    rw [Nat.add_mul] at bound
    split
    · omega
    · split <;> omega

/-- The number of the format that is nearest to a number of units. -/
def roundedUnits (n : Nat) : Nat :=
  nearestSteps (2 ^ stepExponent n) n * 2 ^ stepExponent n

theorem roundedUnits_of_dvd (h : 2 ^ stepExponent n ∣ n) : roundedUnits n = n := by
  obtain ⟨k, multiple⟩ := h
  have steps : nearestSteps (2 ^ stepExponent n) (k * 2 ^ stepExponent n) = k :=
    nearestSteps_mul (Nat.two_pow_pos _) k
  rw [Nat.mul_comm, ← multiple] at steps
  rw [roundedUnits, steps, Nat.mul_comm, ← multiple]

theorem roundedUnits_of_lt (small : k < 2 ^ 53) (b : Nat) : roundedUnits (k * 2 ^ b) = k * 2 ^ b := by
  apply roundedUnits_of_dvd
  have length : bitLength (k * 2 ^ b) ≤ 53 + b := by
    apply bitLength_le_iff.mpr
    rw [Nat.pow_add]
    exact Nat.mul_lt_mul_of_pos_right small (Nat.two_pow_pos b)
  have step : stepExponent (k * 2 ^ b) ≤ b := stepExponent_le (by omega)
  exact (Nat.pow_dvd_pow 2 step).mul_left k

theorem nearestSteps_pow (fits : k ≤ b) : nearestSteps (2 ^ k) (2 ^ b) * 2 ^ k = 2 ^ b := by
  have split : 2 ^ b = 2 ^ (b - k) * 2 ^ k := by
    rw [← Nat.pow_add, Nat.sub_add_cancel fits]
  rw [split, nearestSteps_mul (Nat.two_pow_pos k)]

theorem roundedUnits_le_pow (h : n ≤ 2 ^ b) (fits : stepExponent n ≤ b) : roundedUnits n ≤ 2 ^ b :=
  calc roundedUnits n
      ≤ nearestSteps (2 ^ stepExponent n) (2 ^ b) * 2 ^ stepExponent n :=
        Nat.mul_le_mul_right _ (nearestSteps_mono h)
    _ = 2 ^ b := nearestSteps_pow fits

theorem pow_le_roundedUnits (h : 2 ^ b ≤ n) (fits : stepExponent n ≤ b) : 2 ^ b ≤ roundedUnits n :=
  calc 2 ^ b
      = nearestSteps (2 ^ stepExponent n) (2 ^ b) * 2 ^ stepExponent n := (nearestSteps_pow fits).symm
    _ ≤ roundedUnits n := Nat.mul_le_mul_right _ (nearestSteps_mono h)

/-- Rounding keeps order: numbers that are rounded to multiples of different steps have a power of two
between them, which is rounded to itself. -/
theorem roundedUnits_mono (h : m ≤ n) : roundedUnits m ≤ roundedUnits n := by
  rcases (stepExponent_mono h).eq_or_lt with same | finer
  · unfold roundedUnits
    rw [same]
    exact Nat.mul_le_mul_right _ (nearestSteps_mono h)
  · have lengths : bitLength m < bitLength n := by
      unfold stepExponent at finer
      omega
    have below : m < 2 ^ (bitLength n - 1) := bitLength_le_iff.mp (by omega)
    have above : 2 ^ (bitLength n - 1) ≤ n := pow_le_of_bitLength (by omega)
    have fits : stepExponent m ≤ bitLength n - 1 := stepExponent_le (by omega)
    have fits' : stepExponent n ≤ bitLength n - 1 := stepExponent_le (by omega)
    exact (roundedUnits_le_pow below.le fits).trans (pow_le_roundedUnits above fits')

/-- What is rounded to a power of two, or above it, starts half a step below it. -/
theorem pow_le_roundedUnits_iff {c : Nat} :
    2 ^ (c + 54) ≤ roundedUnits n ↔ 2 ^ (c + 54) ≤ n + 2 ^ c := by
  have positive : 0 < 2 ^ c := Nat.two_pow_pos c
  have half : 2 ^ (c + 53) = 2 ^ 53 * 2 ^ c := by ring
  have whole : 2 ^ (c + 54) = 2 ^ 53 * (2 * 2 ^ c) := by ring
  rcases lt_trichotomy (bitLength n) (c + 54) with shorter | exact | longer
  · have below : n < 2 ^ (c + 53) := bitLength_le_iff.mp (by omega)
    have fits : stepExponent n ≤ c + 53 := stepExponent_le (by omega)
    have bound : roundedUnits n ≤ 2 ^ (c + 53) := roundedUnits_le_pow below.le fits
    constructor <;> omega
  · have exponent : stepExponent n = c + 1 := by
      unfold stepExponent
      omega
    have step : 2 ^ stepExponent n = 2 * 2 ^ c := by rw [exponent, Nat.pow_succ, Nat.mul_comm]
    rw [roundedUnits, step, whole, Nat.mul_le_mul_right_iff (by omega)]
    exact le_nearestSteps_iff positive rfl
  · have reaches : 2 ^ (c + 54) ≤ 2 ^ (bitLength n - 1) := Nat.pow_le_pow_right (by omega) (by omega)
    have above : 2 ^ (bitLength n - 1) ≤ n := pow_le_of_bitLength (by omega)
    have fits : stepExponent n ≤ bitLength n - 1 := stepExponent_le (by omega)
    have bound : 2 ^ (bitLength n - 1) ≤ roundedUnits n := pow_le_roundedUnits above fits
    constructor <;> omega

theorem pow_le_rounded_ones_iff {c unit ones : Nat} :
    2 ^ (c + 54 + unit) ≤ roundedUnits (ones * 2 ^ unit) ↔ 2 ^ (c + 54) ≤ ones + 2 ^ c := by
  have positive : 0 < 2 ^ unit := Nat.two_pow_pos unit
  rw [show c + 54 + unit = (c + unit) + 54 by omega, pow_le_roundedUnits_iff,
    show (c + unit) + 54 = c + 54 + unit by omega, Nat.pow_add 2 (c + 54) unit, Nat.pow_add 2 c unit,
    ← Nat.add_mul, Nat.mul_le_mul_right_iff positive]

/-- How many units make one. -/
def unitsOfOne : Nat :=
  Nat.pow 2 1074

/-- From how many units on a number is beyond the range. -/
def unitsBeyond : Nat :=
  Nat.pow 2 2098

theorem unitsOfOne_pos : 0 < unitsOfOne :=
  Nat.pow_pos Nat.two_pos

theorem unitsOfOne_eq : ∃ unit, unitsOfOne = 2 ^ unit ∧ unitsBeyond = 2 ^ (970 + 54 + unit) :=
  ⟨1074, Nat.pow_eq, Nat.pow_eq⟩

/-- How many units the size of an integer has once it is rounded. -/
def sizeOfInt (n : Int) : Nat :=
  roundedUnits (n.natAbs * unitsOfOne)

theorem ofRatio_one (negative : Bool) (n : Nat) :
    ofRatio negative n 1 =
      if unitsBeyond ≤ roundedUnits (n * unitsOfOne) then .infinity negative
      else .finite negative (roundedUnits (n * unitsOfOne)) := by
  rw [ofRatio, ← unitsOfOne, ← unitsBeyond]
  simp only [roundedUnits, nearestSteps, Nat.div_one, Nat.one_mul, Nat.pow_eq]
  rfl

theorem ofInt?_eq :
    ofInt? = fun n =>
      if unitsBeyond ≤ sizeOfInt n then none
      else some (.finite (n < 0 && sizeOfInt n ≠ 0) (sizeOfInt n)) := by
  delta ofInt?
  funext n
  rw [ofRatio_one, ← sizeOfInt]
  by_cases beyond : unitsBeyond ≤ sizeOfInt n
  · rw [if_pos beyond, if_pos beyond]
  · rw [if_neg beyond, if_neg beyond]

/-- The integer is at least `2 ^ 1024` in size, or less than half a step below it. -/
def IsBeyond (n : Int) : Prop :=
  2 ^ 1024 ≤ n.natAbs + 2 ^ 970

theorem ofInt?_eq_none_iff {n : Int} : ofInt? n = none ↔ IsBeyond n := by
  obtain ⟨unit, one, beyond⟩ := unitsOfOne_eq
  have reading : ofInt? n = none ↔ unitsBeyond ≤ sizeOfInt n := by
    rw [ofInt?_eq]
    by_cases large : unitsBeyond ≤ sizeOfInt n
    · simp [large]
    · simp [large]
  rw [reading, sizeOfInt, one, beyond]
  exact pow_le_rounded_ones_iff

theorem ofInt?_eq_some_iff {n : Int} {x : Binary64} :
    ofInt? n = some x ↔
      sizeOfInt n < unitsBeyond ∧ x = .finite (n < 0 && sizeOfInt n ≠ 0) (sizeOfInt n) := by
  rw [ofInt?_eq]
  by_cases beyond : unitsBeyond ≤ sizeOfInt n
  · simp [beyond, Nat.not_lt.mpr beyond]
  · simp [beyond, Nat.lt_of_not_le beyond, eq_comm]

/-- Where an integer lies once it is rounded, in units. -/
def placeOfInt (n : Int) : Int :=
  if n < 0 then -(sizeOfInt n : Int) else sizeOfInt n

theorem place?_of_ofInt? {n : Int} {x : Binary64} (read : ofInt? n = some x) :
    x.place? = some (.at (placeOfInt n)) := by
  obtain ⟨-, rfl⟩ := ofInt?_eq_some_iff.mp read
  unfold placeOfInt
  generalize sizeOfInt n = units
  by_cases negative : n < 0
  · by_cases vanishes : units = 0
    · simp [place?, negative, vanishes]
    · simp [place?, negative, vanishes]
  · simp [place?, negative]

/-- Integers that are rounded to one place are rounded to one number. -/
theorem eq_of_placeOfInt {a b : Int} {x y : Binary64} (left : ofInt? a = some x) (right : ofInt? b = some y)
    (h : placeOfInt a = placeOfInt b) : x = y := by
  rw [(ofInt?_eq_some_iff.mp left).2, (ofInt?_eq_some_iff.mp right).2]
  unfold placeOfInt at h
  generalize sizeOfInt a = size at h ⊢
  generalize sizeOfInt b = size' at h ⊢
  have sizes : size = size' := by
    split at h
    · split at h <;> omega
    · split at h <;> omega
  subst sizes
  by_cases vanishes : size = 0
  · simp [vanishes]
  · have signs : a < 0 ↔ b < 0 := by
      split at h
      · split at h <;> omega
      · split at h <;> omega
    simp [signs]

theorem placeOfInt_mono {a b : Int} (h : a ≤ b) : placeOfInt a ≤ placeOfInt b := by
  have sizes {m n : Int} (smaller : m.natAbs ≤ n.natAbs) : sizeOfInt m ≤ sizeOfInt n :=
    roundedUnits_mono (Nat.mul_le_mul_right unitsOfOne smaller)
  unfold placeOfInt
  rcases lt_or_ge a 0 with left | left
  · rcases lt_or_ge b 0 with right | right
    · have smaller := sizes (m := b) (n := a) (by omega)
      rw [if_pos left, if_pos right]
      omega
    · rw [if_pos left, if_neg (by omega)]
      omega
  · have smaller := sizes (m := a) (n := b) (by omega)
    rw [if_neg (by omega), if_neg (by omega)]
    omega

/-- Integers of up to 53 binary digits are numbers of the format, and so is the next one. -/
theorem sizeOfInt_of_le {n : Int} (small : n.natAbs ≤ 2 ^ 53) : sizeOfInt n = n.natAbs * unitsOfOne := by
  obtain ⟨unit, one, -⟩ := unitsOfOne_eq
  rw [sizeOfInt, one]
  rcases small.lt_or_eq with less | most
  · exact roundedUnits_of_lt less unit
  · have next := roundedUnits_of_lt (k := 1) (by omega) (53 + unit)
    rw [Nat.one_mul, Nat.pow_add] at next
    rw [most, next]

theorem placeOfInt_of_le {n : Int} (small : n.natAbs ≤ 2 ^ 53) : placeOfInt n = n * unitsOfOne := by
  rw [placeOfInt, sizeOfInt_of_le small]
  generalize unitsOfOne = unit
  split
  · rw [Nat.cast_mul, ← Int.neg_mul]
    congr 1
    omega
  · rw [Nat.cast_mul]
    congr 1
    omega

theorem exists_ofInt?_of_le {n : Int} (small : n.natAbs ≤ 2 ^ 53) : ∃ x, ofInt? n = some x := by
  cases read : ofInt? n with
  | some x => exact ⟨x, rfl⟩
  | none =>
      have step : 2 ^ 53 ≤ 2 ^ 970 := Nat.pow_le_pow_right Nat.two_pos (Nat.le_of_ble_eq_true rfl)
      have large := ofInt?_eq_none_iff.mp read
      rw [IsBeyond, show 1024 = 970 + 54 from rfl, Nat.pow_add] at large
      generalize 2 ^ 970 = half at large step
      omega

end GuardedStore.Binary64
