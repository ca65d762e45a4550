import PowerBench.Binary64.Decimal
import PowerBench.Binary64.Shortest
import PowerBench.Proofs.Binary64Nearest
import Mathlib.Tactic.Ring

set_option autoImplicit false

/-! # Shortest decimals read back

The search for the shortest decimal only ever returns one that rounds to the value it is made for
(`search_roundsTo`): on the grid of seventeen digits the two points around a value are closer together
than the midpoints to its neighbours, so the search ends there at the latest. Such a decimal, in
whatever way it is written with an integer and a power of ten, is read as the value
(`toBinary64_of_roundsTo`).
-/

namespace PowerBench.Binary64

/-! ## Powers of ten -/

/-- A number has as many digits as the power of ten it stays below. -/
theorem lt_pow_length_toDigits (n : Nat) : n < 10 ^ (Nat.toDigits 10 n).length :=
  (Nat.length_toDigits_le_iff (by decide) Nat.length_toDigits_pos).mp (Nat.le_refl _)

/-- A positive number has as many digits as the power of ten it reaches, and one more. -/
theorem pow_length_toDigits_le {n : Nat} (hn : 0 < n) :
    10 ^ ((Nat.toDigits 10 n).length - 1) ≤ n := by
  rcases Nat.eq_zero_or_pos ((Nat.toDigits 10 n).length - 1) with hone | hmore
  · rw [hone]
    exact hn
  · by_contra hlt
    have := (Nat.length_toDigits_le_iff (by decide) hmore).mpr (Nat.lt_of_not_le hlt)
    omega

/-- Powers of ten with integer exponents, as quotients. -/
theorem pow_cross {a b c d : Nat} (h : (a : Int) - b = (c : Int) - d) :
    10 ^ a * 10 ^ d = 10 ^ c * 10 ^ b := by
  rw [← pow_add, ← pow_add]
  congr 1
  omega

/-- The magnitude of a quotient is no larger than the power of ten above it. -/
theorem magnitude_low {num den a b : Nat} (hnum : 0 < num)
    (h : (a : Int) - b = Shortest.magnitude num den - 1) : den * 10 ^ a ≤ num * 10 ^ b := by
  unfold Shortest.magnitude at h
  split at h
  · rename_i hle
    rcases Nat.eq_zero_or_pos den with rfl | hden
    · rw [Nat.zero_mul]
      exact Nat.zero_le _
    · have hquotient := pow_length_toDigits_le (Nat.div_pos hle hden)
      have hlength := Nat.length_toDigits_pos (b := 10) (n := num / den)
      generalize (Nat.toDigits 10 (num / den)).length = len at h hquotient hlength
      have ha : a = (len - 1) + b := by omega
      calc den * 10 ^ a = 10 ^ (len - 1) * den * 10 ^ b := by rw [ha, pow_add]; ring
        _ ≤ num * 10 ^ b := Nat.mul_le_mul_right _ ((Nat.le_div_iff_mul_le hden).mp hquotient)
  · dsimp only at h
    rw [Int.ofNat_eq_natCast] at h
    have hinverse := lt_pow_length_toDigits ((den + num - 1) / num - 1)
    generalize (Nat.toDigits 10 ((den + num - 1) / num - 1)).length = len at h hinverse
    have hceil : (den + num - 1) / num ≤ 10 ^ len := by omega
    have hden : den ≤ num * 10 ^ len := by
      have := Nat.lt_mul_of_div_lt (Nat.lt_succ_of_le hceil) hnum
      rw [Nat.succ_eq_add_one, Nat.add_mul, Nat.one_mul, Nat.mul_comm] at this
      omega
    have hb : b = len + a := by omega
    calc den * 10 ^ a ≤ num * 10 ^ len * 10 ^ a := Nat.mul_le_mul_right _ hden
      _ = num * 10 ^ b := by rw [hb, pow_add]; ring

/-! ## Decimals that round to a code -/

/-- The decimal `n * 10^e` rounds to the value with a code. -/
def RoundsTo (code n : Nat) (e : Int) : Prop :=
  Nearest code (n * unitsPerOne * 10 ^ e.toNat) (10 ^ (-e).toNat)

theorem unitsPerOne_eq : unitsPerOne = 2 ^ 1074 := by
  delta unitsPerOne
  generalize 1074 = k
  exact Nat.pow_eq

theorem unitsPerOne_pos : 0 < unitsPerOne := by
  rw [unitsPerOne_eq]
  generalize 1074 = k
  exact Nat.two_pow_pos k

theorem scaleUp_eq (e : Int) : (if 0 ≤ e then Nat.pow 10 e.toNat else 1) = 10 ^ e.toNat := by
  split
  · rfl
  · rename_i h
    rw [Int.toNat_of_nonpos (by omega), pow_zero]

theorem scaleDown_eq (e : Int) : (if 0 ≤ e then 1 else Nat.pow 10 (-e).toNat) = 10 ^ (-e).toNat := by
  split
  · rw [Int.toNat_of_nonpos (by omega), pow_zero]
  · rfl

theorem readsBack_iff {code n : Nat} {e : Int} :
    Shortest.readsBack code n e = true ↔ RoundsTo code n e := by
  have hpoint : 2 * n * unitsPerOne * 10 ^ e.toNat = 2 * (n * unitsPerOne * 10 ^ e.toNat) := by ring
  unfold Shortest.readsBack
  dsimp only
  rw [scaleUp_eq, scaleDown_eq, hpoint]
  constructor
  · intro h
    split at h
    · rename_i heven
      rw [Bool.and_eq_true, decide_eq_true_eq, decide_eq_true_eq] at h
      exact ⟨h.1, h.2, fun _ => heven⟩
    · rw [Bool.and_eq_true, decide_eq_true_eq, decide_eq_true_eq] at h
      exact ⟨h.1.le, h.2.le, fun htie => by omega⟩
  · rintro ⟨hlow, hhigh, heven⟩
    split
    · rw [Bool.and_eq_true, decide_eq_true_eq, decide_eq_true_eq]
      exact ⟨hlow, hhigh⟩
    · rename_i hodd
      rw [Bool.and_eq_true, decide_eq_true_eq, decide_eq_true_eq]
      have hlow' : ¬ _ = _ := fun h => hodd (heven (.inl h))
      have hhigh' : ¬ _ = _ := fun h => hodd (heven (.inr h))
      omega

/-- Zeros at the end of the digits and the exponent make up for each other. -/
theorem RoundsTo.shift {code n : Nat} {e : Int} (j : Nat) (h : RoundsTo code n e) :
    RoundsTo code (n * 10 ^ j) (e - j) := by
  refine Nearest.of_cross (Nat.pow_pos (by decide)) (Nat.pow_pos (by decide)) h ?_
  have hcross : 10 ^ e.toNat * 10 ^ (-(e - j)).toNat = 10 ^ (j + (e - j).toNat) * 10 ^ (-e).toNat :=
    pow_cross (by omega)
  calc n * unitsPerOne * 10 ^ e.toNat * 10 ^ (-(e - j)).toNat
      = n * unitsPerOne * (10 ^ e.toNat * 10 ^ (-(e - j)).toNat) := by ring
    _ = n * 10 ^ j * unitsPerOne * 10 ^ (e - j).toNat * 10 ^ (-e).toNat := by
        rw [hcross, pow_add]
        ring

/-- Zeros at the end of the digits may be left out. -/
theorem RoundsTo.of_shift {code n : Nat} {e : Int} (j : Nat)
    (h : RoundsTo code (n * 10 ^ j) e) : RoundsTo code n (e + j) := by
  refine Nearest.of_cross (Nat.pow_pos (by decide)) (Nat.pow_pos (by decide)) h ?_
  have hcross : 10 ^ (j + e.toNat) * 10 ^ (-(e + j)).toNat = 10 ^ (e + j).toNat * 10 ^ (-e).toNat :=
    pow_cross (by omega)
  calc n * 10 ^ j * unitsPerOne * 10 ^ e.toNat * 10 ^ (-(e + j)).toNat
      = n * unitsPerOne * (10 ^ (j + e.toNat) * 10 ^ (-(e + j)).toNat) := by rw [pow_add]; ring
    _ = n * unitsPerOne * 10 ^ (e + j).toNat * 10 ^ (-e).toNat := by
        rw [hcross]
        ring

/-- Nothing but zero is rounded from zero. -/
theorem RoundsTo.pos {code n : Nat} {e : Int} (hcode : 0 < code) (h : RoundsTo code n e) : 0 < n := by
  by_contra hn
  obtain rfl : n = 0 := by omega
  have hunits : 0 < unitsOfCode code := unitsOfCode_lt hcode
  have hlow := h.low
  have hpow : 0 < 10 ^ (-e).toNat := Nat.pow_pos (by decide)
  have : 0 < (unitsOfCode (code - 1) + unitsOfCode code) * 10 ^ (-e).toNat :=
    Nat.mul_pos (by omega) hpow
  simp only [Nat.zero_mul, Nat.mul_zero] at hlow
  omega

/-! ## The search -/

/-- The steps before and after a value are together more than a part in `10^16` of twice the value. -/
theorem gap_large (code : Nat) :
    2 * unitsOfCode (code + 1) < (step code + step (code + 1)) * 10 ^ 16 := by
  obtain ⟨s, m, hcode, high, low⟩ := exists_scaled (code + 1)
  rw [hcode, unitsOfCode_scaled high.le low, step_scaled high low]
  have hs : 0 < 2 ^ s := Nat.two_pow_pos s
  by_cases hfirst : s = 0 ∨ 2 ^ 52 < m
  · have hback : code = s * 2 ^ 52 + (m - 1) := by omega
    have hm : m * 2 ^ s ≤ 2 ^ 53 * 2 ^ s := Nat.mul_le_mul_right _ high.le
    rw [hback, step_scaled (by omega) (by omega)]
    omega
  · obtain rfl : m = 2 ^ 52 := by omega
    omega

theorem onGrid_eq_some {code count n : Nat} {k e : Int}
    (h : Shortest.onGrid code count k = some (n, e)) : RoundsTo code n e := by
  unfold Shortest.onGrid at h
  dsimp only at h
  rw [scaleUp_eq, scaleDown_eq] at h
  split at h
  · rename_i hdown
    obtain ⟨rfl, rfl⟩ := Prod.mk.inj (Option.some.inj h)
    exact readsBack_iff.mp (Bool.and_eq_true_iff.mp hdown).1
  · split at h
    · rename_i hup
      obtain ⟨rfl, rfl⟩ := Prod.mk.inj (Option.some.inj h)
      exact readsBack_iff.mp hup
    · cases h

/-- Where a grid has no decimal, neither of the points around the value rounds to it. -/
theorem onGrid_eq_none {code count : Nat} {k e : Int} (he : e = k - count)
    (h : Shortest.onGrid code count k = none) :
    let floor := unitsOfCode code * 10 ^ (-e).toNat / (unitsPerOne * 10 ^ e.toNat)
    ¬ RoundsTo code floor e ∧ ¬ RoundsTo code (floor + 1) e := by
  subst he
  unfold Shortest.onGrid at h
  dsimp only at h
  rw [Int.ofNat_eq_natCast, scaleUp_eq, scaleDown_eq] at h
  dsimp only
  rw [← readsBack_iff, ← readsBack_iff]
  split at h
  · cases h
  · rename_i hdown
    split at h
    · cases h
    · rename_i hup
      refine ⟨fun hfloor => hdown ?_, hup⟩
      rw [hfloor, Bool.eq_false_of_not_eq_true hup]
      rfl

/-- Of the two points of a grid around a value, one lies between the midpoints to the neighbours, if
these are further apart than two points of the grid. -/
theorem gridPoint_between {grid prev value next : Nat} (hgrid : 0 < grid) (hprev : prev < value)
    (hnext : value < next) (apart : prev + 2 * grid < next) :
    (prev + value < 2 * (value / grid * grid) ∧ 2 * (value / grid * grid) < value + next)
      ∨ (prev + value < 2 * ((value / grid + 1) * grid)
        ∧ 2 * ((value / grid + 1) * grid) < value + next) := by
  have hbelow := Nat.div_mul_le_self value grid
  have habove := Nat.lt_div_mul_add (a := value) hgrid
  rw [Nat.add_mul, Nat.one_mul]
  omega

/-- A decimal strictly between the midpoints to the neighbours rounds to the value. -/
theorem RoundsTo.of_between {code n : Nat} {e : Int}
    (h : unitsOfCode (code - 1) * 10 ^ (-e).toNat + unitsOfCode code * 10 ^ (-e).toNat
        < 2 * (n * (unitsPerOne * 10 ^ e.toNat))
      ∧ 2 * (n * (unitsPerOne * 10 ^ e.toNat))
        < unitsOfCode code * 10 ^ (-e).toNat + unitsOfCode (code + 1) * 10 ^ (-e).toNat) :
    RoundsTo code n e := by
  rw [← Nat.add_mul, ← Nat.add_mul, ← Nat.mul_assoc n] at h
  exact ⟨h.1.le, h.2.le, fun htie => by omega⟩

/-- On the grid of seventeen digits there is a decimal that rounds to the value. -/
theorem onGrid_seventeen (code : Nat) :
    Shortest.onGrid (code + 1) 17 (Shortest.magnitude (unitsOfCode (code + 1)) unitsPerOne)
      ≠ none := by
  intro hnone
  obtain ⟨k, hk⟩ : ∃ k, Shortest.magnitude (unitsOfCode (code + 1)) unitsPerOne = k := ⟨_, rfl⟩
  obtain ⟨e, he⟩ : ∃ e : Int, e = k - (17 : Nat) := ⟨_, rfl⟩
  rw [hk] at hnone
  obtain ⟨hfloor, hceil⟩ := onGrid_eq_none he hnone
  have hscale : 0 < 10 ^ (-e).toNat := Nat.pow_pos (by decide)
  have hgrid : 0 < unitsPerOne * 10 ^ e.toNat :=
    Nat.mul_pos unitsPerOne_pos (Nat.pow_pos (by decide))
  have hprev := Nat.mul_lt_mul_of_pos_right (unitsOfCode_lt (Nat.lt_add_one code)) hscale
  have hnext := Nat.mul_lt_mul_of_pos_right (unitsOfCode_lt (Nat.lt_add_one (code + 1))) hscale
  have hlow : unitsPerOne * 10 ^ e.toNat * 10 ^ 16 ≤ unitsOfCode (code + 1) * 10 ^ (-e).toNat := by
    rw [Nat.mul_assoc, ← pow_add]
    exact magnitude_low (unitsOfCode_lt (Nat.succ_pos code)) (by omega)
  -- A step of the grid is at most a part in `10^16` of the value, and the neighbours are further apart.
  have hgap := Nat.mul_lt_mul_of_pos_right (gap_large code) hscale
  have hsteps : (step code + step (code + 1)) * 10 ^ 16 * 10 ^ (-e).toNat
      + unitsOfCode code * 10 ^ (-e).toNat * 10 ^ 16
      = unitsOfCode (code + 1 + 1) * 10 ^ (-e).toNat * 10 ^ 16 := by
    rw [unitsOfCode_succ, unitsOfCode_succ]
    ring
  have hapart : unitsOfCode code * 10 ^ (-e).toNat + 2 * (unitsPerOne * 10 ^ e.toNat)
      < unitsOfCode (code + 1 + 1) * 10 ^ (-e).toNat := by
    rw [Nat.mul_assoc 2] at hgap
    omega
  -- Whichever of the two points it is, the search has tried it.
  rcases gridPoint_between hgrid hprev hnext hapart with hpoint | hpoint
  · exact hfloor (.of_between hpoint)
  · exact hceil (.of_between hpoint)

/-- The search ends with a decimal that rounds to the value. -/
theorem search_roundsTo (code : Nat) {fuel count : Nat} (hfuel : 0 < fuel)
    (hcount : count + fuel = 18) :
    RoundsTo (code + 1)
      (Shortest.search (code + 1) (Shortest.magnitude (unitsOfCode (code + 1)) unitsPerOne)
        fuel count).1
      (Shortest.search (code + 1) (Shortest.magnitude (unitsOfCode (code + 1)) unitsPerOne)
        fuel count).2 := by
  -- The last step of the search is the one with seventeen digits.
  induction fuel generalizing count with
  | zero => exact absurd hfuel (Nat.lt_irrefl 0)
  | succ fuel ih =>
      rw [Shortest.search]
      cases hgrid : Shortest.onGrid (code + 1) count
          (Shortest.magnitude (unitsOfCode (code + 1)) unitsPerOne) with
      | some found => exact onGrid_eq_some hgrid
      | none =>
          rcases Nat.eq_zero_or_pos fuel with rfl | hmore
          · obtain rfl : count = 17 := by omega
            exact absurd hgrid (onGrid_seventeen code)
          · exact ih hmore (by omega)

/-! ## Reading the decimal -/

theorem unitsOfCode_infinity : unitsOfCode infinityCode = 2 ^ 1024 * unitsPerOne := by
  have hcode : infinityCode = 2046 * 2 ^ 52 + 2 ^ 52 := rfl
  rw [hcode, unitsOfCode_scaled (by decide) (.inr (Nat.le_refl _)), unitsPerOne_eq, ← pow_add,
    ← pow_add]

/-- A decimal that rounds to a finite value has at most 310 digits before the point. -/
theorem RoundsTo.places_le {code n : Nat} {e : Int} (hcode : 0 < code) (finite : code < infinityCode)
    (h : RoundsTo code n e) : (Nat.toDigits 10 n).length + e ≤ 310 := by
  have hdigits := pow_length_toDigits_le (h.pos hcode)
  have hunits : unitsOfCode code + unitsOfCode (code + 1) ≤ 2 * (2 ^ 1024 * unitsPerOne) := by
    rw [← unitsOfCode_infinity]
    have hthis := unitsOfCode_mono finite.le
    have hnext : unitsOfCode (code + 1) ≤ unitsOfCode infinityCode := unitsOfCode_mono finite
    omega
  have hbound : 2 ^ 1024 ≤ 10 ^ 309 := by decide +kernel
  have hvalue : n * 10 ^ e.toNat ≤ 2 ^ 1024 * 10 ^ (-e).toNat := by
    refine Nat.le_of_mul_le_mul_left ?_ (Nat.mul_pos Nat.two_pos unitsPerOne_pos)
    calc 2 * unitsPerOne * (n * 10 ^ e.toNat) = 2 * (n * unitsPerOne * 10 ^ e.toNat) := by ring
      _ ≤ (unitsOfCode code + unitsOfCode (code + 1)) * 10 ^ (-e).toNat := h.high
      _ ≤ 2 * (2 ^ 1024 * unitsPerOne) * 10 ^ (-e).toNat := Nat.mul_le_mul_right _ hunits
      _ = 2 * unitsPerOne * (2 ^ 1024 * 10 ^ (-e).toNat) := by
          rw [Nat.mul_comm (2 ^ 1024), ← Nat.mul_assoc 2, Nat.mul_assoc (2 * unitsPerOne)]
  have hpowers : 10 ^ ((Nat.toDigits 10 n).length - 1 + e.toNat) ≤ 10 ^ (309 + (-e).toNat) := by
    rw [pow_add, pow_add]
    calc 10 ^ ((Nat.toDigits 10 n).length - 1) * 10 ^ e.toNat ≤ n * 10 ^ e.toNat :=
          Nat.mul_le_mul_right _ hdigits
      _ ≤ 2 ^ 1024 * 10 ^ (-e).toNat := hvalue
      _ ≤ 10 ^ 309 * 10 ^ (-e).toNat := Nat.mul_le_mul_right _ hbound
  have := (Nat.pow_le_pow_iff_right (by decide)).mp hpowers
  omega

/-- A decimal that rounds to a value other than zero has at most 324 zeros behind the point. -/
theorem RoundsTo.le_places {code n : Nat} {e : Int} (hcode : 0 < code) (h : RoundsTo code n e) :
    -324 < (Nat.toDigits 10 n).length + e := by
  have hdigits := lt_pow_length_toDigits n
  have hunits : 1 ≤ unitsOfCode (code - 1) + unitsOfCode code := by
    have := unitsOfCode_lt hcode
    omega
  have hbound : 2 * unitsPerOne ≤ 10 ^ 324 := by decide +kernel
  have hten : 0 < 10 ^ 324 := by decide +kernel
  have hpowers : 10 ^ (-e).toNat < 10 ^ (324 + (Nat.toDigits 10 n).length + e.toNat) := by
    have hup : 0 < 10 ^ e.toNat := Nat.pow_pos (by decide)
    calc 10 ^ (-e).toNat = 1 * 10 ^ (-e).toNat := (Nat.one_mul _).symm
      _ ≤ (unitsOfCode (code - 1) + unitsOfCode code) * 10 ^ (-e).toNat :=
          Nat.mul_le_mul_right _ hunits
      _ ≤ 2 * (n * unitsPerOne * 10 ^ e.toNat) := h.low
      _ = 2 * unitsPerOne * (n * 10 ^ e.toNat) := by ring
      _ ≤ 10 ^ 324 * (n * 10 ^ e.toNat) := Nat.mul_le_mul_right _ hbound
      _ < 10 ^ 324 * (10 ^ (Nat.toDigits 10 n).length * 10 ^ e.toNat) :=
          Nat.mul_lt_mul_of_pos_left (Nat.mul_lt_mul_of_pos_right hdigits hup) hten
      _ = 10 ^ (324 + (Nat.toDigits 10 n).length + e.toNat) := by
          rw [pow_add, pow_add, Nat.mul_assoc]
  have := (Nat.pow_lt_pow_iff_right (by decide)).mp hpowers
  omega

theorem ofRatio_of_nearest {negative : Bool} {code num den : Nat} (hden : 0 < den)
    (finite : code < infinityCode) (h : Nearest code (num * unitsPerOne) den) :
    ofRatio negative num den = ofCode negative code := by
  rw [ofRatio, h.nearestCode_eq hden, Nat.min_eq_left finite.le]

/-- **Reading decimals.** A decimal is read as the finite value it rounds to. -/
theorem toBinary64_of_roundsTo {negative : Bool} {code n : Nat} {e : Int} (hcode : 0 < code)
    (finite : code < infinityCode) (h : RoundsTo code n e) :
    Decimal.toBinary64 ⟨negative, n, e⟩ = ofCode negative code := by
  have hn := h.pos hcode
  have hhigh := h.places_le hcode finite
  have hlow := h.le_places hcode
  unfold Decimal.toBinary64
  dsimp only
  rw [if_neg (by omega), if_neg (by omega), if_neg (by omega)]
  unfold RoundsTo at h
  split
  · rename_i he
    rw [Int.toNat_of_nonpos (by omega : -e ≤ 0), pow_zero, Nat.mul_right_comm] at h
    exact ofRatio_of_nearest Nat.one_pos finite h
  · rename_i he
    rw [Int.toNat_of_nonpos (by omega : e ≤ 0), pow_zero, Nat.mul_one] at h
    exact ofRatio_of_nearest (Nat.pow_pos (by decide)) finite h

/-- A value is its sign and its code. -/
theorem ofCode_code (x : Binary64) : ofCode x.isNegative x.code = x := by
  obtain ⟨bits⟩ := x
  have hbits : bits.toNat < 2 ^ 64 := bits.toNat_lt
  have hsplit : (if (⟨bits⟩ : Binary64).isNegative then Nat.pow 2 63 else 0)
      + (⟨bits⟩ : Binary64).code = bits.toNat := by
    simp only [isNegative, code, Nat.pow_eq, decide_eq_true_eq]
    split <;> omega
  rw [ofCode, hsplit, UInt64.ofNat_toNat]

end PowerBench.Binary64
