import Mathlib.Algebra.Order.Field.Rat
import Mathlib.Tactic.Linarith
import Mathlib.Tactic.NormNum
import PowerBench.Proofs.WholeValues
import PowerBench.Timestamp.Basic

set_option autoImplicit false

/-! # Fractional times

A pattern of bits whose exponent is not all ones stands for a rational number (`value`). Rounding it to
a whole value is exact (`signedUnits_round`): it gives the nearest integer, halves away from zero
(`roundsAway_roundToInt`), and this integer is a value again. Both ends that it is compared with are
powers of two, the upper one 2^63, so what passes is an integer of 64 bits, and the conversion, which
would hold anything else within the range, returns it unchanged (`fractional_time`).
-/

namespace PowerBench

namespace Binary64

/-! ## The number that a pattern of bits stands for -/

def exponentBits (x : Binary64) : Nat := x.bits.toNat / 2 ^ 52 % 2 ^ 11

def fractionBits (x : Binary64) : Nat := x.bits.toNat % 2 ^ 52

/-- The fraction behind a leading bit, which only the smallest exponent does not have. -/
def significand (x : Binary64) : Nat :=
  if x.exponentBits = 0 then x.fractionBits else 2 ^ 52 + x.fractionBits

/-- The rational number that a pattern of bits stands for, if the exponent is not all ones. -/
def value (x : Binary64) : ℚ :=
  (if 2 ^ 63 ≤ x.bits.toNat then -1 else 1) * x.significand
    * 2 ^ ((max x.exponentBits 1 : ℤ) - 1075)

section

variable (x : Binary64)

theorem code_split : x.code = x.exponentBits * 2 ^ 52 + x.fractionBits := by
  simp only [code, exponentBits, fractionBits, Nat.pow_eq]
  omega

theorem fractionBits_lt : x.fractionBits < 2 ^ 52 := Nat.mod_lt _ (by decide)

/-- A value is finite unless its exponent is all ones. -/
theorem isFinite_iff : x.isFinite = true ↔ x.exponentBits ≠ 2047 := by
  have hcode := x.code_split
  have hfraction := x.fractionBits_lt
  have hexponent : x.exponentBits < 2 ^ 11 := Nat.mod_lt _ (by decide)
  have hinfinity : infinityCode = 2047 * 2 ^ 52 := rfl
  rw [isFinite, decide_eq_true_eq, hinfinity]
  omega

theorem units_eq_significand : x.units = x.significand * 2 ^ (max x.exponentBits 1 - 1) := by
  have hfraction := x.fractionBits_lt
  have hdiv : x.code / 2 ^ 52 = x.exponentBits := by rw [code_split]; omega
  have hmod : x.code % 2 ^ 52 = x.fractionBits := by rw [code_split]; omega
  rw [units, unitsOfCode, Nat.pow_eq, hdiv, hmod, significand]
  by_cases hzero : x.exponentBits = 0
  · rw [if_pos hzero, if_pos hzero, hzero, Nat.max_eq_right (by decide), Nat.sub_self, pow_zero,
      Nat.mul_one]
  · rw [if_neg hzero, if_neg hzero, Nat.max_eq_left (by omega), Nat.pow_eq]

/-- The number is a whole number of units. -/
theorem value_mul_units : x.value * unitsPerOne = x.signedUnits := by
  have hpower : (2 : ℚ) ^ ((max x.exponentBits 1 : ℤ) - 1075) * unitsPerOne
      = 2 ^ (max x.exponentBits 1 - 1) := by
    have hcast : (unitsPerOne : ℚ) = 2 ^ ((1074 : ℕ) : ℤ) := by
      rw [unitsPerOne_eq, Nat.cast_pow, Nat.cast_ofNat, zpow_natCast]
    have hexponent : (max x.exponentBits 1 : ℤ) - 1075 + (1074 : ℕ)
        = ((max x.exponentBits 1 - 1 : ℕ) : ℤ) := by omega
    rw [hcast, ← zpow_add₀ two_ne_zero, hexponent, zpow_natCast]
  have hsign : x.isNegative = decide (2 ^ 63 ≤ x.bits.toNat) := rfl
  rw [value, mul_assoc, hpower, signedUnits, units_eq_significand, hsign]
  by_cases hnegative : 2 ^ 63 ≤ x.bits.toNat
  · rw [if_pos hnegative, if_pos (decide_eq_true hnegative)]
    simp
  · rw [if_neg hnegative, if_neg (by simpa using hnegative)]
    simp

end

/-! ## The nearest integer -/

/-- The integer is the one nearest to the number, of two that are as near the one away from zero. -/
structure RoundsAway (v : ℚ) (n : ℤ) : Prop where
  near : |v - n| ≤ 1 / 2
  away : |v - n| = 1 / 2 → |v| < |(n : ℚ)|

theorem RoundsAway.neg {v : ℚ} {n : ℤ} (h : RoundsAway v n) : RoundsAway (-v) (-n) := by
  have hflip : |-v - ((-n : ℤ) : ℚ)| = |v - n| := by
    rw [Int.cast_neg, ← abs_neg]
    congr 1
    ring
  constructor
  · rw [hflip]
    exact h.near
  · rw [hflip, Int.cast_neg, abs_neg, abs_neg]
    exact h.away

/-- There is one such integer. -/
theorem RoundsAway.unique {v : ℚ} {m n : ℤ} (hm : RoundsAway v m) (hn : RoundsAway v n) : m = n := by
  -- The smaller of two would be half below, and the larger half above, and of these one is not away.
  have hle : ∀ {m n : ℤ}, RoundsAway v m → RoundsAway v n → ¬ m < n := by
    intro m n hm hn hlt
    have hgap : (m : ℚ) + 1 ≤ n := by exact_mod_cast hlt
    obtain ⟨hm_low, hm_high⟩ := abs_le.mp hm.near
    obtain ⟨hn_low, hn_high⟩ := abs_le.mp hn.near
    have hv : v = m + 1 / 2 := by linarith
    have hn_eq : (n : ℚ) = m + 1 := by linarith
    have haway_m := hm.away (by rw [hv]; norm_num)
    have haway_n := hn.away (by rw [hv, hn_eq]; norm_num)
    rcases le_or_gt 0 m with hpos | hneg
    · have hpos : (0 : ℚ) ≤ m := by exact_mod_cast hpos
      rw [abs_of_nonneg (by linarith), abs_of_nonneg hpos] at haway_m
      linarith
    · have hneg : (n : ℚ) ≤ 0 := by
        have : (m : ℚ) + 1 ≤ 0 := by exact_mod_cast hneg
        linarith
      rw [abs_of_nonpos (by linarith), abs_of_nonpos hneg] at haway_n
      linarith
  have hmn := hle hm hn
  have hnm := hle hn hm
  omega

theorem roundsAway_roundHalfUp (num : ℕ) {den : ℕ} (hden : 0 < den) :
    RoundsAway ((num : ℚ) / den) (roundHalfUp num den : ℕ) := by
  have hdenQ : (0 : ℚ) < den := Nat.cast_pos.mpr hden
  have hlow : 2 * den * roundHalfUp num den ≤ 2 * num + den := Nat.mul_div_le _ _
  have hhigh : 2 * num + den < 2 * den * (roundHalfUp num den + 1) :=
    Nat.lt_mul_div_succ _ (by omega)
  generalize roundHalfUp num den = n at hlow hhigh ⊢
  have hlow : (n : ℚ) - 1 / 2 ≤ num / den := by
    rw [le_div_iff₀ hdenQ]
    have : (2 * den * n : ℚ) ≤ 2 * num + den := by exact_mod_cast hlow
    linarith
  have hhigh : (num : ℚ) / den < n + 1 / 2 := by
    rw [div_lt_iff₀ hdenQ]
    have : (2 * num + den : ℚ) < 2 * den * (n + 1) := by exact_mod_cast hhigh
    linarith
  have hv : (0 : ℚ) ≤ num / den := by positivity
  constructor
  · rw [Int.cast_natCast, abs_le]
    constructor <;> linarith
  · rw [Int.cast_natCast]
    intro htie
    rw [abs_of_nonneg hv, abs_of_nonneg (Nat.cast_nonneg n)]
    rcases abs_choice ((num : ℚ) / den - n) with h | h <;> rw [h] at htie <;> linarith

/-- A finite value is rounded to the integer nearest to its number. -/
theorem roundsAway_roundToInt (x : Binary64) : RoundsAway x.value x.roundToInt := by
  have hnearest := roundsAway_roundHalfUp x.units unitsPerOne_pos
  have hunits : (unitsPerOne : ℚ) ≠ 0 := Nat.cast_ne_zero.mpr unitsPerOne_pos.ne'
  have hvalue : x.value = x.signedUnits / unitsPerOne := by
    rw [← value_mul_units, mul_div_cancel_right₀ _ hunits]
  rw [hvalue, roundToInt, signedUnits]
  by_cases hnegative : x.isNegative = true
  · rw [if_pos hnegative, if_pos hnegative]
    rw [Int.cast_neg, neg_div]
    exact hnearest.neg
  · rw [if_neg hnegative, if_neg hnegative]
    exact hnearest

/-! ## Rounding and converting -/

section

variable {code : Nat} (finite : code < infinityCode) (negative : Bool)

include finite

theorem isFinite_ofCode : (ofCode negative code).isFinite = true := by
  rw [isFinite, code_ofCode _ (finite.trans infinityCode_lt)]
  exact decide_eq_true finite

theorem signedUnits_ofCode : (ofCode negative code).signedUnits
    = if negative then -(unitsOfCode code : ℤ) else unitsOfCode code := by
  have hlt := finite.trans infinityCode_lt
  rw [signedUnits, isNegative_ofCode _ hlt, units, code_ofCode _ hlt]
  rfl

end

section

variable {x : Binary64}

/-- Rounding is exact: the whole value is the nearest integer. -/
theorem signedUnits_round (finite : x.isFinite = true) :
    x.round.isFinite = true ∧ x.round.signedUnits = x.roundToInt * unitsPerOne := by
  obtain ⟨code, hcode, hunits⟩ := exists_whole finite
  have hround : x.round = ofCode x.isNegative code := by
    have hnatAbs : x.roundToInt.natAbs = roundHalfUp x.units unitsPerOne := by
      rw [roundToInt]
      split
      · rw [Int.natAbs_neg, Int.natAbs_natCast]
      · rw [Int.natAbs_natCast]
    rw [round, if_pos finite, hnatAbs, ofRatio_of_units hcode hunits]
  rw [hround]
  refine ⟨isFinite_ofCode hcode _, ?_⟩
  rw [signedUnits_ofCode hcode, hunits, roundToInt, Nat.cast_mul]
  split
  · rw [Int.neg_mul]
  · rfl

/-- The number of the whole value. -/
theorem value_round (finite : x.isFinite = true) : x.round.value = x.roundToInt := by
  have hunits : (unitsPerOne : ℚ) ≠ 0 := Nat.cast_ne_zero.mpr unitsPerOne_pos.ne'
  apply mul_right_cancel₀ hunits
  rw [value_mul_units, (signedUnits_round finite).2]
  push_cast
  rfl

/-- A whole value within the range is converted to itself. -/
theorem toInt64_of_whole {n : ℤ} (finite : x.isFinite = true) (whole : x.signedUnits = n * unitsPerOne)
    (low : minInt64 ≤ n) (high : n ≤ maxInt64) : x.toInt64 = n := by
  have hunits : (unitsPerOne : ℤ) ≠ 0 := Int.natCast_ne_zero.mpr unitsPerOne_pos.ne'
  rw [toInt64, not_isNaN_of_isFinite finite, whole, Int.mul_tdiv_cancel _ hunits,
    Int.min_eq_right high, Int.max_eq_right low]
  rfl

/-- Integers close to an end of the range stand for the power of two there. -/
theorem ofInt_edge {z : ℤ} (low : 2 ^ 63 ≤ z.natAbs + 512) (high : z.natAbs ≤ 2 ^ 63 + 1024) :
    ofInt z = ofCode (decide (z < 0)) edgeCode := by
  rw [ofInt, ofRatio, nearestCode_edge low high, Nat.min_eq_left edgeCode_lt_infinity.le]

/-- The lower end of the range is a value. -/
theorem signedUnits_minInt64 :
    (ofInt minInt64).isFinite = true ∧ (ofInt minInt64).signedUnits = -2 ^ 63 * unitsPerOne := by
  have hnegative : decide (minInt64 < 0) = true := rfl
  rw [ofInt_edge (by decide) (by decide), hnegative]
  refine ⟨isFinite_ofCode edgeCode_lt_infinity _, ?_⟩
  rw [signedUnits_ofCode edgeCode_lt_infinity, if_pos rfl, unitsOfCode_edge, Nat.cast_mul, Int.neg_mul]
  rfl

/-- The upper end of the range is none, and the value in its place is the first beyond it. -/
theorem signedUnits_maxInt64 :
    (ofInt maxInt64).isFinite = true ∧ (ofInt maxInt64).signedUnits = 2 ^ 63 * unitsPerOne := by
  have hpositive : decide (maxInt64 < 0) = false := rfl
  rw [ofInt_edge (by decide) (by decide), hpositive]
  refine ⟨isFinite_ofCode edgeCode_lt_infinity _, ?_⟩
  rw [signedUnits_ofCode edgeCode_lt_infinity, if_neg Bool.false_ne_true, unitsOfCode_edge,
    Nat.cast_mul]
  rfl

end

end Binary64

namespace Timestamp

open Binary64

/-- Only finite values whose nearest integer is within the range have a time. -/
theorem normalize_fractional (x : Binary64) :
    normalize (.fractional x)
      = if x.isFinite = true ∧ -2 ^ 63 ≤ x.roundToInt ∧ x.roundToInt < 2 ^ 63 then .ok x.roundToInt
        else .error ⟨.float, x.plain⟩ := by
  have hunits : (0 : ℤ) < unitsPerOne := Int.natCast_pos.mpr unitsPerOne_pos
  rw [normalize]
  by_cases finite : x.isFinite = true
  · obtain ⟨hfinite, hround⟩ := signedUnits_round finite
    obtain ⟨hmin_finite, hmin⟩ := signedUnits_minInt64
    obtain ⟨hmax_finite, hmax⟩ := signedUnits_maxInt64
    have hbelow : x.round.lt (ofInt minInt64) = decide (x.roundToInt < -2 ^ 63) := by
      simp only [lt, not_isNaN_of_isFinite hfinite, not_isNaN_of_isFinite hmin_finite, hround, hmin,
        Int.mul_lt_mul_right hunits, Bool.not_false, Bool.true_and]
    have habove : (ofInt maxInt64).le x.round = decide (2 ^ 63 ≤ x.roundToInt) := by
      simp only [le, not_isNaN_of_isFinite hfinite, not_isNaN_of_isFinite hmax_finite, hround, hmax,
        Int.mul_le_mul_right hunits, Bool.not_false, Bool.true_and]
    rw [hfinite, hbelow, habove]
    by_cases hrange : -2 ^ 63 ≤ x.roundToInt ∧ x.roundToInt < 2 ^ 63
    · have hmin_le : minInt64 ≤ x.roundToInt := hrange.1
      have hle_max : x.roundToInt ≤ maxInt64 := Int.le_of_lt_add_one hrange.2
      rw [if_neg (by simp; omega), if_pos ⟨finite, hrange⟩,
        toInt64_of_whole hfinite hround hmin_le hle_max]
    · rw [if_pos (by simp; omega), if_neg fun h => hrange h.2]
  · have hround : x.round = x := by rw [Binary64.round, if_neg finite]
    rw [hround, if_pos (by simp [finite]), if_neg fun h => finite h.1]

/-- **Fractional times.** A pattern of bits has a time exactly if it stands for a number whose nearest
integer, halves away from zero, is one of 64 bits, and the time is this integer. The conversion is
given the integer itself and returns it. -/
theorem fractional_time (x : Binary64) :
    (∀ n, normalize (.fractional x) = .ok n ↔
        x.exponentBits ≠ 2047 ∧ RoundsAway x.value n ∧ -2 ^ 63 ≤ n ∧ n ≤ 2 ^ 63 - 1)
      ∧ (∀ n, normalize (.fractional x) = .ok n → x.round.value = n ∧ x.round.toInt64 = n)
      ∧ (∀ bad, normalize (.fractional x) = .error bad → bad = ⟨.float, x.plain⟩) := by
  rw [normalize_fractional]
  refine ⟨fun n => ?_, fun n h => ?_, fun bad h => ?_⟩
  · rw [← isFinite_iff]
    constructor
    · intro h
      split at h
      · rename_i hrange
        obtain rfl := Except.ok.inj h
        exact ⟨hrange.1, roundsAway_roundToInt x, hrange.2.1, Int.le_sub_one_of_lt hrange.2.2⟩
      · cases h
    · rintro ⟨finite, hnearest, hlow, hhigh⟩
      obtain rfl := (roundsAway_roundToInt x).unique hnearest
      rw [if_pos ⟨finite, hlow, Int.lt_of_le_sub_one hhigh⟩]
  · split at h
    · rename_i hrange
      obtain ⟨finite, hlow, hhigh⟩ := hrange
      obtain rfl := Except.ok.inj h
      obtain ⟨hfinite, hround⟩ := signedUnits_round finite
      exact ⟨value_round finite,
        toInt64_of_whole hfinite hround hlow (Int.le_of_lt_add_one hhigh)⟩
    · cases h
  · split at h
    · cases h
    · exact (Except.error.inj h).symm

/-- A half below zero is rounded down, away from zero. -/
theorem fractional_time_half :
    (⟨0xC004000000000000⟩ : Binary64).value = -5 / 2
      ∧ normalize (.fractional ⟨0xC004000000000000⟩) = .ok (-3) := by
  have hvalue : (⟨0xC004000000000000⟩ : Binary64).value = -5 / 2 := by
    have hsign : 2 ^ 63 ≤ (⟨0xC004000000000000⟩ : Binary64).bits.toNat := by decide
    have hexponent : (⟨0xC004000000000000⟩ : Binary64).exponentBits = 1024 := by decide
    have hsignificand : (⟨0xC004000000000000⟩ : Binary64).significand = 5 * 2 ^ 50 := by decide
    rw [value, if_pos hsign, hexponent, hsignificand]
    norm_num
  refine ⟨hvalue, ?_⟩
  apply ((fractional_time _).1 _).mpr
  rw [hvalue]
  refine ⟨by decide, ⟨?_, fun _ => ?_⟩, by decide, by decide⟩
  · norm_num [abs_le]
  · norm_num [abs_lt]

end Timestamp

end PowerBench
