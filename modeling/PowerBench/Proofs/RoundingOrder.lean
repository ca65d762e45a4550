import Mathlib.Tactic.FieldSimp
import Mathlib.Tactic.Linarith
import PowerBench.Proofs.Binary64Quotient
import PowerBench.Proofs.DenotedDecimal
import PowerBench.Binary64.Fixed

set_option autoImplicit false

/-! # Roundings keep the order

A decimal is rounded to a value, the value is divided with a second rounding, and the quotient is
written with a number of places, which is a third. Each of the three keeps the order of magnitudes and
leaves zero as it is, so all of them keep the order of signed numbers (`signed_mono`), though different
numbers may become equal (`scaled_divNat_mono`).
-/

namespace PowerBench

open Binary64

/-! ## Signs -/

/-- What becomes of two magnitudes is in the order of the signed magnitudes, if it is in the order of
the magnitudes and nothing becomes of zero. -/
theorem signed_mono {s t : Bool} {a b m n : ℚ} (ha : 0 ≤ a) (hb : 0 ≤ b) (hm : 0 ≤ m) (hn : 0 ≤ n)
    (up : a ≤ b → m ≤ n) (down : b ≤ a → n ≤ m) (zero : b = 0 → n = 0) (h : signed s a ≤ signed t b) :
    signed s m ≤ signed t n := by
  unfold signed at h ⊢
  cases s with
  | true =>
      cases t with
      | true =>
          simp only [if_true, neg_le_neg_iff] at h ⊢
          exact down h
      | false =>
          simp only [if_true, Bool.false_eq_true, if_false]
          linarith
  | false =>
      cases t with
      | true =>
          -- A number that is not negative is at most one that is not positive: both are zero.
          simp only [if_true, Bool.false_eq_true, if_false] at h ⊢
          have hzero : b = 0 := by linarith
          have hle : m ≤ n := up (by linarith)
          rw [zero hzero] at hle ⊢
          linarith
      | false =>
          simp only [Bool.false_eq_true, if_false] at h ⊢
          exact up h

/-! ## Reading -/

/-- A quotient that rounds to a finite value gives it its sign and its code. -/
theorem Binary64.ofRatio_of_finite {negative : Bool} {num den : Nat}
    (finite : (ofRatio negative num den).isFinite = true) :
    (ofRatio negative num den).isNegative = negative
      ∧ (ofRatio negative num den).code = nearestCode (num * unitsPerOne) den := by
  have hinfinity := infinityCode_lt
  have hsmall : min (nearestCode (num * unitsPerOne) den) infinityCode < 2 ^ 63 := by omega
  have hcode : (ofRatio negative num den).code
      = min (nearestCode (num * unitsPerOne) den) infinityCode := code_ofCode _ hsmall
  rw [isFinite, decide_eq_true_eq, hcode] at finite
  refine ⟨isNegative_ofCode _ hsmall, ?_⟩
  rw [hcode]
  omega

namespace Decimal

theorem magnitude_nonneg (d : Decimal) : 0 ≤ d.magnitude := by
  exact mul_nonneg (Nat.cast_nonneg _) (zpow_nonneg (by norm_num) _)

theorem magnitude_mono {d d' : Decimal} (exponent : d.exponent = d'.exponent)
    (digits : d.digits ≤ d'.digits) : d.magnitude ≤ d'.magnitude := by
  have hdigits : (d.digits : ℚ) ≤ d'.digits := by exact_mod_cast digits
  rw [magnitude, magnitude, exponent]
  exact mul_le_mul_of_nonneg_right hdigits (zpow_nonneg (by norm_num) _)

/-- The magnitude as a quotient of whole numbers. -/
theorem magnitude_eq (d : Decimal) :
    d.magnitude = (d.digits * 10 ^ d.exponent.toNat : ℕ) / (10 ^ (-d.exponent).toNat : ℕ) := by
  have hpower : ((10 : ℚ) ^ d.exponent.toNat) = 10 ^ d.exponent * 10 ^ (-d.exponent).toNat := by
    rw [← zpow_natCast, ← zpow_natCast, ← zpow_add₀ (by norm_num)]
    congr 1
    omega
  have hpos : (0 : ℚ) < 10 ^ (-d.exponent).toNat := by positivity
  rw [magnitude, eq_div_iff (by push_cast; exact hpos.ne')]
  push_cast
  rw [hpower, mul_assoc]

/-- Of two decimals the one of the smaller magnitude rounds to the smaller code. -/
theorem code_mono {d d' : Decimal} {code code' : Nat} (h : RoundsTo code d.digits d.exponent)
    (h' : RoundsTo code' d'.digits d'.exponent) (order : d.magnitude ≤ d'.magnitude) :
    code ≤ code' := by
  have hden : ∀ e : Int, 0 < 10 ^ (-e).toNat := fun e => Nat.pow_pos (by decide)
  have hcross : d.digits * 10 ^ d.exponent.toNat * 10 ^ (-d'.exponent).toNat
      ≤ d'.digits * 10 ^ d'.exponent.toNat * 10 ^ (-d.exponent).toNat := by
    rw [magnitude_eq, magnitude_eq, div_le_div_iff₀ (by exact_mod_cast hden _)
      (by exact_mod_cast hden _)] at order
    exact_mod_cast order
  refine Nearest.mono (hden _) (hden _) h h' ?_
  calc d.digits * unitsPerOne * 10 ^ d.exponent.toNat * 10 ^ (-d'.exponent).toNat
      = unitsPerOne * (d.digits * 10 ^ d.exponent.toNat * 10 ^ (-d'.exponent).toNat) := by ring
    _ ≤ unitsPerOne * (d'.digits * 10 ^ d'.exponent.toNat * 10 ^ (-d.exponent).toNat) :=
        Nat.mul_le_mul_left _ hcross
    _ = d'.digits * unitsPerOne * 10 ^ d'.exponent.toNat * 10 ^ (-d.exponent).toNat := by ring

/-- A decimal that is read as a finite value has its sign and rounds to its code. -/
theorem roundsTo_of_finite {d : Decimal} (finite : d.toBinary64.isFinite = true) :
    d.toBinary64.isNegative = d.negative ∧ RoundsTo d.toBinary64.code d.digits d.exponent := by
  have hzeroSign : (ofCode d.negative 0).isNegative = d.negative := isNegative_ofCode _ (by decide)
  have hzeroCode : (ofCode d.negative 0).code = 0 := code_ofCode _ (by decide)
  have hden : ∀ e : Int, 0 < 10 ^ (-e).toNat := fun e => Nat.pow_pos (by decide)
  have hnearest : RoundsTo _ d.digits d.exponent := nearest_nearestCode _ (hden d.exponent)
  unfold toBinary64 at finite ⊢
  dsimp only at finite ⊢
  by_cases hdigits : d.digits = 0
  · rw [if_pos hdigits, hzeroSign, hzeroCode, hdigits]
    refine ⟨rfl, ?_, ?_, fun _ => rfl⟩
    · simp [unitsOfCode_zero]
    · simp
  rw [if_neg hdigits] at finite ⊢
  by_cases hhuge : 400 < ((Nat.toDigits 10 d.digits).length : Int) + d.exponent
  · rw [if_pos hhuge] at finite
    have hinfinity : ∀ negative, (infinity negative).isFinite = false := by decide
    rw [hinfinity] at finite
    cases finite
  rw [if_neg hhuge] at finite ⊢
  by_cases htiny : ((Nat.toDigits 10 d.digits).length : Int) + d.exponent < -400
  · -- Other codes are only nearest to decimals with less zeros behind the point.
    rw [if_pos htiny, hzeroSign, hzeroCode]
    refine ⟨rfl, ?_⟩
    rcases Nat.eq_zero_or_pos (nearestCode (d.digits * unitsPerOne * 10 ^ d.exponent.toNat)
      (10 ^ (-d.exponent).toNat)) with hzero | hpos
    · rwa [hzero] at hnearest
    · have := hnearest.le_places hpos
      omega
  rw [if_neg htiny] at finite ⊢
  by_cases hwhole : 0 ≤ d.exponent
  · rw [if_pos hwhole] at finite ⊢
    obtain ⟨hsign, hcode⟩ := ofRatio_of_finite finite
    refine ⟨hsign, ?_⟩
    rw [hcode, RoundsTo, Int.toNat_of_nonpos (by omega : -d.exponent ≤ 0), pow_zero,
      Nat.mul_right_comm]
    exact nearest_nearestCode _ Nat.one_pos
  · rw [if_neg hwhole] at finite ⊢
    obtain ⟨hsign, hcode⟩ := ofRatio_of_finite finite
    refine ⟨hsign, ?_⟩
    rw [hcode, RoundsTo, Int.toNat_of_nonpos (by omega : d.exponent ≤ 0), pow_zero, Nat.mul_one]
    exact nearest_nearestCode _ (hden d.exponent)

end Decimal

/-! ## Dividing and writing -/

namespace Binary64

section

variable {k places : Nat} {x y : Binary64} (hk : 0 < k)

include hk

/-- Of two quotients by one number the smaller is written with the smaller digits. -/
theorem scaled_divNat_mono (hx : x.isFinite = true) (hy : y.isFinite = true) (h : x.code ≤ y.code) :
    (x.divNat k).scaled places ≤ (y.divNat k).scaled places := by
  have hunits : (x.divNat k).units ≤ (y.divNat k).units := by
    rw [units_divNat hx hk, units_divNat hy hk]
    apply unitsOfCode_mono
    apply nearestCode_mono (Nat.mul_pos unitsPerOne_pos hk)
    exact Nat.mul_le_mul_right _ (unitsOfCode_mono h)
  unfold scaled
  apply roundHalfEven_mono unitsPerOne_pos
  exact Nat.mul_le_mul_right _ hunits

/-- A quotient of zero is written as zero. -/
theorem scaled_divNat_zero (hx : x.isFinite = true) (h : x.code = 0) :
    (x.divNat k).scaled places = 0 := by
  have hunits : (x.divNat k).units = 0 := by
    have hzero := nearestCode_units 0 (Nat.mul_pos unitsPerOne_pos hk)
    rw [unitsOfCode_zero, Nat.zero_mul] at hzero
    rw [units_divNat hx hk, units, h, unitsOfCode_zero, Nat.zero_mul, hzero, unitsOfCode_zero]
  rw [scaled, hunits, Nat.zero_mul]
  simp [roundHalfEven, unitsPerOne_pos]

end

end Binary64

/-- The decimal that the quotient of a decimal by `k` is written as, with `places`. -/
def Decimal.quotient (k places : Nat) (d : Decimal) : Decimal :=
  ⟨d.negative, (d.toBinary64.divNat k).scaled places, -places⟩

/-- **Roundings keep the order.** Two decimals are read, divided and written in their order. -/
theorem Decimal.quotient_mono {k : Nat} (hk : 0 < k) (places : Nat) {d d' : Decimal}
    (finite : d.toBinary64.isFinite = true) (finite' : d'.toBinary64.isFinite = true)
    (h : d.value ≤ d'.value) : (d.quotient k places).value ≤ (d'.quotient k places).value := by
  have hrounds := (roundsTo_of_finite finite).2
  have hrounds' := (roundsTo_of_finite finite').2
  have hmono : ∀ {a b : Decimal}, a.toBinary64.isFinite = true → b.toBinary64.isFinite = true →
      a.toBinary64.code ≤ b.toBinary64.code →
      (a.quotient k places).magnitude ≤ (b.quotient k places).magnitude := by
    intro a b ha hb hcode
    have hscaled : (a.toBinary64.divNat k).scaled places ≤ (b.toBinary64.divNat k).scaled places :=
      scaled_divNat_mono hk ha hb hcode
    rw [quotient, quotient]
    generalize (a.toBinary64.divNat k).scaled places = m at hscaled ⊢
    generalize (b.toBinary64.divNat k).scaled places = n at hscaled ⊢
    exact magnitude_mono rfl hscaled
  have hsign : ∀ a : Decimal, (a.quotient k places).negative = a.negative := fun a => by rw [quotient]
  rw [value, value, hsign, hsign]
  refine signed_mono d.magnitude_nonneg d'.magnitude_nonneg (magnitude_nonneg _) (magnitude_nonneg _)
    ?_ ?_ ?_ h
  · intro horder
    exact hmono finite finite' (code_mono hrounds hrounds' horder)
  · intro horder
    exact hmono finite' finite (code_mono hrounds' hrounds horder)
  · intro hzero
    have hcode : d'.toBinary64.code = 0 := by
      rcases Nat.eq_zero_or_pos d'.toBinary64.code with hcode | hcode
      · exact hcode
      · -- What rounds to another code than that of zero has digits.
        have hpos : (0 : ℚ) < d'.digits := by exact_mod_cast hrounds'.pos hcode
        have : 0 < d'.magnitude := mul_pos hpos (zpow_pos (by norm_num) _)
        linarith
    rw [magnitude, quotient, scaled_divNat_zero hk finite' hcode]
    simp

end PowerBench
