import Mathlib.Tactic.Positivity
import PowerBench.Proofs.Binary64Quotient

set_option autoImplicit false

/-! # Whole numbers as values

A whole number of at most 53 binary digits is itself a value (`units_ofNat_small`), a larger one is
rounded to 53 of them (`units_ofNat_large`). A value with a fraction has fewer binary digits before its
point, so rounding it to a whole number gives a value again (`exists_whole`).
-/

namespace PowerBench.Binary64

theorem two_pow_le_unitsPerOne {k : Nat} (h : k ≤ 1074) : 2 ^ k ≤ unitsPerOne := by
  obtain ⟨j, hj⟩ := Nat.exists_eq_add_of_le h
  rw [unitsPerOne_eq, hj, pow_add]
  exact Nat.le_mul_of_pos_right _ (Nat.two_pow_pos j)

/-- A whole number that is not zero has all its digits as a value. -/
theorem large_of_pos {n : Nat} (pos : 0 < n) : 2 ^ 52 * 1 ≤ n * unitsPerOne := by
  calc 2 ^ 52 * 1 ≤ unitsPerOne := two_pow_le_unitsPerOne (k := 52) (by decide)
    _ ≤ n * unitsPerOne := Nat.le_mul_of_pos_left _ pos

def edgeCode : Nat := 1085 * 2 ^ 52 + 2 ^ 52

theorem unitsOfCode_edge : unitsOfCode edgeCode = 2 ^ 63 * unitsPerOne := by
  rw [edgeCode, unitsOfCode_scaled (by decide) (.inr (Nat.le_refl _)), unitsPerOne_eq, ← pow_add,
    ← pow_add]

theorem edgeCode_lt_infinity : edgeCode < infinityCode := by decide

theorem nearestCode_lt_infinity {n : Nat} (h : n < 2 ^ 63) :
    nearestCode (n * unitsPerOne) 1 < infinityCode := by
  have hle : nearestCode (n * unitsPerOne) 1 ≤ edgeCode := by
    apply nearestCode_le Nat.one_pos
    rw [unitsOfCode_edge, Nat.mul_one]
    exact Nat.mul_le_mul_right _ h.le
  exact Nat.lt_of_le_of_lt hle edgeCode_lt_infinity

section

variable {n : Nat} (h : n < 2 ^ 63)

include h

theorem ofNat_eq : ofNat n = ofCode false (nearestCode (n * unitsPerOne) 1) := by
  rw [ofNat, ofRatio, Nat.min_eq_left (nearestCode_lt_infinity h).le]

theorem code_ofNat : (ofNat n).code = nearestCode (n * unitsPerOne) 1 := by
  rw [ofNat_eq h, code_ofCode _ ((nearestCode_lt_infinity h).trans infinityCode_lt)]

theorem isFinite_ofNat : (ofNat n).isFinite = true := by
  rw [isFinite, code_ofNat h]
  exact decide_eq_true (nearestCode_lt_infinity h)

theorem isNegative_ofNat : (ofNat n).isNegative = false := by
  rw [ofNat_eq h, isNegative_ofCode _ ((nearestCode_lt_infinity h).trans infinityCode_lt)]

/-- A whole number is off by at most one part in 2^53. -/
theorem units_ofNat_error :
    2 ^ 53 * (ofNat n).units ≤ (2 ^ 53 + 1) * (n * unitsPerOne)
      ∧ (2 ^ 53 - 1) * (n * unitsPerOne) ≤ 2 ^ 53 * (ofNat n).units := by
  rw [units, code_ofNat h]
  rcases Nat.eq_zero_or_pos n with rfl | hn
  · rw [Nat.zero_mul]
    exact ⟨by decide, by decide⟩
  · simpa only [Nat.mul_one] using nearestCode_error Nat.one_pos (large_of_pos hn)

/-- A whole number of more than 53 binary digits is rounded to 53 of them. -/
theorem units_ofNat_large {j : Nat} (low : 2 ^ 52 * 2 ^ j ≤ n) (high : n < 2 ^ 53 * 2 ^ j) :
    (ofNat n).units = roundHalfEven n (2 ^ j) * 2 ^ j * unitsPerOne := by
  have hn : 0 < n := Nat.lt_of_lt_of_le (by positivity) low
  obtain ⟨s, hunits, hlow, hhigh⟩ := unitsOfCode_nearestCode Nat.one_pos (large_of_pos hn)
  rw [Nat.one_mul] at hlow hhigh hunits
  -- There is only one scale at which the number has 53 binary digits.
  have hscale : s = j + 1074 := by
    have hup : 2 ^ (52 + s) < 2 ^ (53 + (j + 1074)) := by
      calc 2 ^ (52 + s) = 2 ^ 52 * 2 ^ s := pow_add _ _ _
        _ ≤ n * unitsPerOne := hlow
        _ < 2 ^ 53 * 2 ^ j * unitsPerOne := Nat.mul_lt_mul_of_pos_right high unitsPerOne_pos
        _ = 2 ^ (53 + (j + 1074)) := by rw [unitsPerOne_eq, pow_add, pow_add _ j, Nat.mul_assoc]
    have hdown : 2 ^ (52 + (j + 1074)) < 2 ^ (53 + s) := by
      calc 2 ^ (52 + (j + 1074)) = 2 ^ 52 * 2 ^ j * unitsPerOne := by
            rw [unitsPerOne_eq, pow_add, pow_add _ j, Nat.mul_assoc]
        _ ≤ n * unitsPerOne := Nat.mul_le_mul_right _ low
        _ < 2 ^ 53 * 2 ^ s := hhigh
        _ = 2 ^ (53 + s) := (pow_add _ _ _).symm
    have := (Nat.pow_lt_pow_iff_right (by decide)).mp hup
    have := (Nat.pow_lt_pow_iff_right (by decide)).mp hdown
    omega
  rw [units, code_ofNat h, hunits, hscale, pow_add, ← unitsPerOne_eq,
    roundHalfEven_mul unitsPerOne_pos, Nat.mul_assoc]

end

/-- A whole number of at most 53 binary digits is itself a value. -/
theorem units_ofNat_small {n : Nat} (h : n < 2 ^ 53) : (ofNat n).units = n * unitsPerOne := by
  rcases Nat.eq_zero_or_pos n with rfl | hn
  · rw [units, code_ofNat (by decide), Nat.zero_mul]
    rfl
  obtain ⟨s, hunits, hlow, -⟩ := unitsOfCode_nearestCode Nat.one_pos (large_of_pos hn)
  rw [Nat.one_mul] at hlow hunits
  have hscale : s ≤ 1074 := by
    have hup : 2 ^ (52 + s) < 2 ^ (53 + 1074) := by
      calc 2 ^ (52 + s) = 2 ^ 52 * 2 ^ s := pow_add _ _ _
        _ ≤ n * unitsPerOne := hlow
        _ < 2 ^ 53 * unitsPerOne := Nat.mul_lt_mul_of_pos_right h unitsPerOne_pos
        _ = 2 ^ (53 + 1074) := by rw [unitsPerOne_eq, pow_add]
    have := (Nat.pow_lt_pow_iff_right (by decide)).mp hup
    omega
  -- The scale divides the number.
  obtain ⟨k, hk⟩ := Nat.exists_eq_add_of_le hscale
  have hmul : n * unitsPerOne = n * 2 ^ k * 2 ^ s := by
    rw [unitsPerOne_eq, hk, Nat.add_comm, pow_add, Nat.mul_assoc]
  rw [units, code_ofNat (by omega), hunits, hmul, roundHalfEven_self (Nat.two_pow_pos s)]

/-! ## Values rounded to whole numbers -/

/-- A whole number whose magnitude is that of a finite code is this value. -/
theorem ofRatio_of_units {code m : Nat} (finite : code < infinityCode)
    (h : unitsOfCode code = m * unitsPerOne) (negative : Bool) :
    ofRatio negative m 1 = ofCode negative code := by
  have hcode := nearestCode_units code Nat.one_pos
  rw [Nat.mul_one, h] at hcode
  rw [ofRatio, hcode, Nat.min_eq_left finite.le]

theorem units_whole {x : Binary64} (large : 2 ^ 52 * unitsPerOne ≤ x.units) :
    ∃ k, x.units = k * unitsPerOne := by
  obtain ⟨s, m, hcode, high, low⟩ := exists_scaled x.code
  have hunits : x.units = m * 2 ^ s := by
    rw [units, hcode, unitsOfCode_scaled high.le low]
  have hscale : 1074 ≤ s := by
    have hlt : 2 ^ (52 + 1074) < 2 ^ (53 + s) := by
      calc 2 ^ (52 + 1074) = 2 ^ 52 * unitsPerOne := by rw [unitsPerOne_eq, ← pow_add]
        _ ≤ m * 2 ^ s := large.trans_eq hunits
        _ < 2 ^ 53 * 2 ^ s := Nat.mul_lt_mul_of_pos_right high (Nat.two_pow_pos s)
        _ = 2 ^ (53 + s) := (pow_add _ _ _).symm
    have := (Nat.pow_lt_pow_iff_right (by decide)).mp hlt
    omega
  obtain ⟨j, rfl⟩ := Nat.exists_eq_add_of_le hscale
  refine ⟨m * 2 ^ j, ?_⟩
  rw [hunits, unitsPerOne_eq, pow_add, Nat.mul_assoc, Nat.mul_comm (2 ^ j)]

/-- A whole number is rounded to itself. -/
theorem roundHalfUp_self {den : Nat} (hden : 0 < den) (k : Nat) : roundHalfUp (k * den) den = k := by
  rw [roundHalfUp]
  apply Nat.div_eq_of_lt_le
  · rw [Nat.mul_left_comm]
    exact Nat.le_add_right _ _
  · rw [Nat.add_mul, Nat.mul_left_comm]
    omega

theorem roundHalfUp_mono (den : Nat) {a b : Nat} (h : a ≤ b) : roundHalfUp a den ≤ roundHalfUp b den :=
  Nat.div_le_div_right (by omega)

/-- The nearest whole number of a finite value is the value of a finite code. -/
theorem exists_whole {x : Binary64} (finite : x.isFinite = true) :
    ∃ code, code < infinityCode
      ∧ unitsOfCode code = roundHalfUp x.units unitsPerOne * unitsPerOne := by
  have hpos := unitsPerOne_pos
  by_cases large : 2 ^ 52 * unitsPerOne ≤ x.units
  · -- The value is whole already.
    obtain ⟨k, hk⟩ := units_whole large
    refine ⟨x.code, by simpa [isFinite] using finite, ?_⟩
    rw [hk, roundHalfUp_self hpos, ← hk, units]
  · -- The whole number has at most 53 binary digits.
    have hround : roundHalfUp x.units unitsPerOne < 2 ^ 53 := by
      rw [roundHalfUp]
      apply (Nat.div_lt_iff_lt_mul (by omega)).mpr
      omega
    refine ⟨_, nearestCode_lt_infinity (hround.trans (by decide)), ?_⟩
    rw [← code_ofNat (hround.trans (by decide)), ← units, units_ofNat_small hround]

/-! ## Whole numbers beyond 64 bits -/

theorem unitsOfCode_edge_next : unitsOfCode (edgeCode + 1) = (2 ^ 63 + 2048) * unitsPerOne := by
  have hstep : step edgeCode = 2048 * unitsPerOne := by
    have hcode : edgeCode = (11 + 1074) * 2 ^ 52 + 2 ^ 52 := rfl
    have hpower : 2 ^ 11 = 2048 := rfl
    rw [hcode, step_scaled (by decide) (.inr (Nat.le_refl _)), pow_add, ← unitsPerOne_eq, hpower]
  rw [unitsOfCode_succ, unitsOfCode_edge, hstep, ← Nat.add_mul]

theorem unitsOfCode_edge_previous : unitsOfCode (edgeCode - 1) + 1024 * unitsPerOne
    = 2 ^ 63 * unitsPerOne := by
  have hstep : step (edgeCode - 1) = 1024 * unitsPerOne := by
    have hcode : edgeCode - 1 = (10 + 1074) * 2 ^ 52 + (2 ^ 53 - 1) := by decide
    have hpower : 2 ^ 10 = 1024 := rfl
    rw [hcode, step_scaled (by decide) (.inr (by decide)), pow_add, ← unitsPerOne_eq, hpower]
  rw [← unitsOfCode_edge, ← hstep, ← unitsOfCode_succ]
  rfl

/-- The whole numbers within half a step around 2^63 have it as their nearest value. -/
theorem nearestCode_edge {n : Nat} (low : 2 ^ 63 ≤ n + 512) (high : n ≤ 2 ^ 63 + 1024) :
    nearestCode (n * unitsPerOne) 1 = edgeCode := by
  have hedge := unitsOfCode_edge
  have hnext := unitsOfCode_edge_next
  have hprevious := unitsOfCode_edge_previous
  have hlow := Nat.mul_le_mul_right unitsPerOne low
  rw [Nat.add_mul] at hlow
  have hhigh := Nat.mul_le_mul_right unitsPerOne high
  apply Nearest.nearestCode_eq Nat.one_pos
  constructor
  · omega
  · omega
  · intro _
    decide

theorem edge_lt_nearestCode {n : Nat} (beyond : 2 ^ 63 + 1024 < n) :
    edgeCode < nearestCode (n * unitsPerOne) 1 := by
  by_contra hle
  have hhigh := (nearest_nearestCode (n * unitsPerOne) Nat.one_pos).high
  have hthis : unitsOfCode (nearestCode (n * unitsPerOne) 1) ≤ unitsOfCode edgeCode :=
    unitsOfCode_mono (by omega)
  have hnext : unitsOfCode (nearestCode (n * unitsPerOne) 1 + 1) ≤ unitsOfCode (edgeCode + 1) :=
    unitsOfCode_mono (by omega)
  have hlt := Nat.mul_lt_mul_of_pos_right beyond unitsPerOne_pos
  rw [unitsOfCode_edge] at hthis
  rw [unitsOfCode_edge_next] at hnext
  omega

/-! ## Decimals without a power of ten -/

theorem two_pow_lt_ten_pow {k m : Nat} (h : k ≤ 3 * m) (pos : m ≠ 0) : 2 ^ k < 10 ^ m := by
  calc 2 ^ k ≤ 2 ^ (3 * m) := Nat.pow_le_pow_right Nat.two_pos h
    _ = (2 ^ 3) ^ m := pow_mul 2 3 m
    _ < 10 ^ m := Nat.pow_lt_pow_left (by decide) pos

/-- A decimal without a power of ten is the value nearest to its digits, however many there are. -/
theorem toBinary64_whole (negative : Bool) (n : Nat) :
    Decimal.toBinary64 ⟨negative, n, 0⟩ = ofRatio negative n 1 := by
  unfold Decimal.toBinary64
  dsimp only
  by_cases hzero : n = 0
  · rw [if_pos hzero, hzero, ofRatio, Nat.zero_mul]
    rfl
  rw [if_neg hzero]
  by_cases hmany : 400 < ((Nat.toDigits 10 n).length : Int) + 0
  · -- So many digits are beyond the last finite value.
    have hlarge : 2 ^ 1024 ≤ n := by
      by_contra hlt
      have hbound : n < 10 ^ 400 :=
        (Nat.lt_of_not_le hlt).trans (two_pow_lt_ten_pow (by decide) (by decide))
      have := (Nat.length_toDigits_le_iff (by decide) (by decide)).mpr hbound
      clear hlt hbound
      omega
    have hcode : infinityCode ≤ nearestCode (n * unitsPerOne) 1 := by
      apply le_nearestCode Nat.one_pos
      rw [unitsOfCode_infinity, Nat.mul_one]
      exact Nat.mul_le_mul_right _ hlarge
    rw [if_pos hmany, ofRatio, Nat.min_eq_right hcode, infinity]
  · rw [if_neg hmany, if_neg (by omega), if_pos (Int.le_refl 0), Int.toNat_zero, Nat.pow_eq, pow_zero,
      Nat.mul_one]

end PowerBench.Binary64
