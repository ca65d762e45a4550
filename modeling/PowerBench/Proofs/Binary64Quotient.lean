import PowerBench.Proofs.ShortestDecimal

set_option autoImplicit false

/-! # How far a rounded quotient is off

The value nearest to a quotient is on the grid of its scale (`unitsOfCode_nearestCode`), so where values
have all their digits it is off by at most one part in 2^53 (`nearestCode_error`). Rounding does not
pass a value (`nearestCode_le`), so the quotient of a finite value by a positive integer is finite.
-/

namespace PowerBench.Binary64

/-! ## Values of codes -/

theorem infinityCode_lt : infinityCode < 2 ^ 63 := by decide

theorem code_ofCode (negative : Bool) {code : Nat} (h : code < 2 ^ 63) :
    (ofCode negative code).code = code := by
  cases negative <;> simp only [ofCode, Binary64.code, Nat.pow_eq, Bool.false_eq_true, if_false,
    if_true, UInt64.toNat_ofNat'] <;> omega

theorem isNegative_ofCode (negative : Bool) {code : Nat} (h : code < 2 ^ 63) :
    (ofCode negative code).isNegative = negative := by
  cases negative <;> simp only [ofCode, isNegative, Nat.pow_eq, Bool.false_eq_true, if_false,
    if_true, UInt64.toNat_ofNat', decide_eq_true_eq, decide_eq_false_iff_not] <;> omega

theorem not_isNaN_of_isFinite {x : Binary64} (finite : x.isFinite = true) :
    x.isNaN = false := by
  simp only [isFinite, isNaN, decide_eq_true_eq, decide_eq_false_iff_not] at finite ⊢
  omega

/-! ## Rounding does not pass a value -/

theorem nearestCode_units (code : Nat) {den : Nat} (hden : 0 < den) :
    nearestCode (unitsOfCode code * den) den = code := by
  have hbelow : unitsOfCode (code - 1) ≤ unitsOfCode code := unitsOfCode_mono (by omega)
  have habove : unitsOfCode code < unitsOfCode (code + 1) := unitsOfCode_lt (by omega)
  have hlow := Nat.mul_le_mul_right den hbelow
  have hhigh := Nat.mul_lt_mul_of_pos_right habove hden
  refine Nearest.nearestCode_eq hden ⟨?_, ?_, fun h => ?_⟩
  · rw [Nat.add_mul]
    omega
  · rw [Nat.add_mul]
    omega
  · -- No other value is as large, so it is no midpoint, but for zero, which is even.
    by_cases hzero : code = 0
    · rw [hzero]
    · have hstrict : unitsOfCode (code - 1) < unitsOfCode code := unitsOfCode_lt (by omega)
      have hlow' := Nat.mul_lt_mul_of_pos_right hstrict hden
      rw [Nat.add_mul, Nat.add_mul] at h
      omega

theorem nearestCode_le {num den code : Nat} (hden : 0 < den) (h : num ≤ unitsOfCode code * den) :
    nearestCode num den ≤ code := by
  calc nearestCode num den ≤ nearestCode (unitsOfCode code * den) den := nearestCode_mono hden h
    _ = code := nearestCode_units code hden

theorem le_nearestCode {num den code : Nat} (hden : 0 < den) (h : unitsOfCode code * den ≤ num) :
    code ≤ nearestCode num den := by
  calc code = nearestCode (unitsOfCode code * den) den := (nearestCode_units code hden).symm
    _ ≤ nearestCode num den := nearestCode_mono hden h

/-- A quotient of a finite value is not beyond it. -/
theorem code_divNat_le {x : Binary64} {d : Nat} (hd : 0 < d) :
    nearestCode (x.units * unitsPerOne) (unitsPerOne * d) ≤ x.code := by
  refine nearestCode_le (Nat.mul_pos unitsPerOne_pos hd) ?_
  rw [← Nat.mul_assoc]
  exact Nat.le_mul_of_pos_right _ hd

section

variable {x : Binary64} (finite : x.isFinite = true) {d : Nat} (hd : 0 < d)

include finite hd

theorem divNat_eq :
    x.divNat d = ofCode x.isNegative (nearestCode (x.units * unitsPerOne) (unitsPerOne * d)) := by
  have hcode : x.code < infinityCode := by simpa [isFinite] using finite
  rw [divNat, ofRatio, Nat.min_eq_left ((code_divNat_le hd).trans hcode.le)]

theorem isFinite_divNat : (x.divNat d).isFinite = true := by
  have hcode : x.code < infinityCode := by simpa [isFinite] using finite
  have hle := code_divNat_le (x := x) hd
  have hlt := infinityCode_lt
  rw [divNat_eq finite hd, isFinite, code_ofCode _ (by omega)]
  simpa using Nat.lt_of_le_of_lt hle hcode

theorem isNegative_divNat : (x.divNat d).isNegative = x.isNegative := by
  have hcode : x.code < infinityCode := by simpa [isFinite] using finite
  have hle := code_divNat_le (x := x) hd
  have hlt := infinityCode_lt
  rw [divNat_eq finite hd, isNegative_ofCode _ (by omega)]

theorem units_divNat :
    (x.divNat d).units = unitsOfCode (nearestCode (x.units * unitsPerOne) (unitsPerOne * d)) := by
  have hcode : x.code < infinityCode := by simpa [isFinite] using finite
  have hle := code_divNat_le (x := x) hd
  have hlt := infinityCode_lt
  rw [divNat_eq finite hd, units, code_ofCode _ (by omega)]

end

/-! ## The grid of a quotient -/

/-- The magnitude nearest to a quotient that has all its digits is the rounded multiple of a power of
two, by which the quotient has 53 digits. -/
theorem unitsOfCode_nearestCode {num den : Nat} (hden : 0 < den) (large : 2 ^ 52 * den ≤ num) :
    ∃ s, unitsOfCode (nearestCode num den) = roundHalfEven num (den * 2 ^ s) * 2 ^ s
      ∧ 2 ^ 52 * (den * 2 ^ s) ≤ num ∧ num < 2 ^ 53 * (den * 2 ^ s) := by
  -- Whatever the scale, the rounded significand has at most one digit more.
  have hunits : ∀ s, 2 ^ 52 * (den * 2 ^ s) ≤ num → num < 2 ^ 53 * (den * 2 ^ s) →
      unitsOfCode (s * 2 ^ 52 + roundHalfEven num (den * 2 ^ s))
        = roundHalfEven num (den * 2 ^ s) * 2 ^ s := by
    intro s hlow hhigh
    have hscaled : 0 < den * 2 ^ s := Nat.mul_pos hden (Nat.two_pow_pos s)
    exact unitsOfCode_scaled (roundHalfEven_le hscaled hhigh) (.inr (le_roundHalfEven hscaled hlow))
  unfold nearestCode
  simp only [Nat.pow_eq]
  split
  · rename_i hsmall
    have hhigh : num < 2 ^ 53 * (den * 2 ^ 0) := by
      rw [pow_zero, Nat.mul_one]
      exact (Nat.div_lt_iff_lt_mul hden).mp hsmall
    have hlow : 2 ^ 52 * (den * 2 ^ 0) ≤ num := by rwa [pow_zero, Nat.mul_one]
    refine ⟨0, ?_, hlow, hhigh⟩
    simpa using hunits 0 hlow hhigh
  · rename_i hlarge
    have hne : num / den ≠ 0 := by omega
    have hlow := Nat.log2_self_le hne
    have hhigh := Nat.lt_log2_self (n := num / den)
    have hlog : 52 ≤ (num / den).log2 := by
      rw [Nat.le_log2 hne]
      omega
    obtain ⟨s, hs⟩ := Nat.exists_eq_add_of_le hlog
    rw [hs] at hlow hhigh ⊢
    rw [Nat.add_sub_cancel_left]
    have hlow' : 2 ^ 52 * (den * 2 ^ s) ≤ num := by
      calc 2 ^ 52 * (den * 2 ^ s) = 2 ^ (52 + s) * den := by ring
        _ ≤ num := (Nat.le_div_iff_mul_le hden).mp hlow
    have hhigh' : num < 2 ^ 53 * (den * 2 ^ s) := by
      calc num < 2 ^ (52 + s + 1) * den := (Nat.div_lt_iff_lt_mul hden).mp hhigh
        _ = 2 ^ 53 * (den * 2 ^ s) := by ring
    exact ⟨s, hunits s hlow' hhigh', hlow', hhigh'⟩

/-- Half a step of the grid is all that the nearest magnitude is off. -/
theorem nearestCode_halfStep {num den : Nat} (hden : 0 < den) (large : 2 ^ 52 * den ≤ num) :
    ∃ s, 2 ^ 52 * (den * 2 ^ s) ≤ num
      ∧ 2 * num ≤ 2 * (unitsOfCode (nearestCode num den) * den) + den * 2 ^ s
      ∧ 2 * (unitsOfCode (nearestCode num den) * den) ≤ 2 * num + den * 2 ^ s := by
  obtain ⟨s, hunits, hlow, -⟩ := unitsOfCode_nearestCode hden large
  obtain ⟨hup, hdown, -⟩ := roundHalfEven_spec num (Nat.mul_pos hden (Nat.two_pow_pos s))
  have hmul : unitsOfCode (nearestCode num den) * den
      = roundHalfEven num (den * 2 ^ s) * (den * 2 ^ s) := by
    rw [hunits]
    ring
  rw [Nat.add_mul, Nat.one_mul, Nat.mul_assoc] at hup
  rw [Nat.mul_assoc] at hdown
  exact ⟨s, hlow, by rw [hmul]; exact hup, by rw [hmul]; exact hdown⟩

/-- The nearest magnitude is off by at most one part in 2^53. -/
theorem nearestCode_error {num den : Nat} (hden : 0 < den) (large : 2 ^ 52 * den ≤ num) :
    2 ^ 53 * (unitsOfCode (nearestCode num den) * den) ≤ (2 ^ 53 + 1) * num
      ∧ (2 ^ 53 - 1) * num ≤ 2 ^ 53 * (unitsOfCode (nearestCode num den) * den) := by
  obtain ⟨s, hlow, hup, hdown⟩ := nearestCode_halfStep hden large
  omega

/-- A quotient by a positive integer is off by at most one part in 2^53, unless it is tiny. -/
theorem units_divNat_error {x : Binary64} (finite : x.isFinite = true) {d : Nat} (hd : 0 < d)
    (large : 2 ^ 52 * d ≤ x.units) :
    2 ^ 53 * ((x.divNat d).units * d) ≤ (2 ^ 53 + 1) * x.units
      ∧ (2 ^ 53 - 1) * x.units ≤ 2 ^ 53 * ((x.divNat d).units * d) := by
  have hden : 0 < unitsPerOne * d := Nat.mul_pos unitsPerOne_pos hd
  have hlarge : 2 ^ 52 * (unitsPerOne * d) ≤ x.units * unitsPerOne := by
    calc 2 ^ 52 * (unitsPerOne * d) = 2 ^ 52 * d * unitsPerOne := by ring
      _ ≤ x.units * unitsPerOne := Nat.mul_le_mul_right _ large
  obtain ⟨hup, hdown⟩ := nearestCode_error hden hlarge
  rw [← units_divNat finite hd] at hup hdown
  constructor
  · refine Nat.le_of_mul_le_mul_right ?_ unitsPerOne_pos
    calc 2 ^ 53 * ((x.divNat d).units * d) * unitsPerOne
        = 2 ^ 53 * ((x.divNat d).units * (unitsPerOne * d)) := by ring
      _ ≤ (2 ^ 53 + 1) * (x.units * unitsPerOne) := hup
      _ = (2 ^ 53 + 1) * x.units * unitsPerOne := by ring
  · refine Nat.le_of_mul_le_mul_right ?_ unitsPerOne_pos
    calc (2 ^ 53 - 1) * x.units * unitsPerOne
        = (2 ^ 53 - 1) * (x.units * unitsPerOne) := by ring
      _ ≤ 2 ^ 53 * ((x.divNat d).units * (unitsPerOne * d)) := hdown
      _ = 2 ^ 53 * ((x.divNat d).units * d) * unitsPerOne := by ring

/-- A common factor does not matter to rounding. -/
theorem roundHalfEven_mul {k : Nat} (hk : 0 < k) (num den : Nat) :
    roundHalfEven (num * k) (den * k) = roundHalfEven num den := by
  have hlt : ∀ a b : Nat, a * k < b * k ↔ a < b := fun a b => Nat.mul_lt_mul_right hk
  simp only [roundHalfEven, Nat.mul_div_mul_right _ _ hk, Nat.mul_mod_mul_right, ← Nat.mul_assoc, hlt]

/-- A whole number is rounded to itself. -/
theorem roundHalfEven_self {den : Nat} (hden : 0 < den) (k : Nat) :
    roundHalfEven (k * den) den = k := by
  simp [roundHalfEven, Nat.mul_div_cancel _ hden, hden]

end PowerBench.Binary64
