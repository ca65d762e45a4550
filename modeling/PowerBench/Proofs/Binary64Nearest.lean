import PowerBench.Binary64.Basic
import Mathlib.Algebra.Order.Ring.Nat
import Mathlib.Tactic.Ring

set_option autoImplicit false

/-! # Nearest values

From one code to the next the magnitude grows by a power of two. A code is nearest to a quotient when
the quotient lies between the midpoints to the two neighbours, which count as inside for an even code
(`Nearest`). No two codes are nearest to one quotient, and `nearestCode` finds the one that is.
-/

namespace PowerBench.Binary64

/-! ## Magnitudes of codes -/

/-- The step from the magnitude of a code to that of the next, in units. -/
def step (code : Nat) : Nat := 2 ^ (code / 2 ^ 52 - 1)

/-- A code as a scale and a significand. -/
theorem exists_scaled (code : Nat) :
    ∃ s m, code = s * 2 ^ 52 + m ∧ m < 2 ^ 53 ∧ (s = 0 ∨ 2 ^ 52 ≤ m) := by
  refine ⟨code / 2 ^ 52 - 1, code - (code / 2 ^ 52 - 1) * 2 ^ 52, ?_, ?_, ?_⟩ <;> omega

/-- The magnitude of a scaled significand. The first significand of the next scale is one of this
scale as well. -/
theorem unitsOfCode_scaled {s m : Nat} (high : m ≤ 2 ^ 53) (low : s = 0 ∨ 2 ^ 52 ≤ m) :
    unitsOfCode (s * 2 ^ 52 + m) = m * 2 ^ s := by
  have hunits : ∀ e f, f < 2 ^ 52 → unitsOfCode (e * 2 ^ 52 + f)
      = if e = 0 then f else (2 ^ 52 + f) * 2 ^ (e - 1) := by
    intro e f hf
    have hdiv : (e * 2 ^ 52 + f) / Nat.pow 2 52 = e := by rw [Nat.pow_eq]; omega
    have hmod : (e * 2 ^ 52 + f) % Nat.pow 2 52 = f := by rw [Nat.pow_eq]; omega
    rw [unitsOfCode, hdiv, hmod]
    rfl
  -- Without the leading bit, with it, and with a carry into the next scale.
  rcases Nat.lt_or_ge m (2 ^ 52) with hm | hm
  · obtain rfl : s = 0 := by omega
    rw [hunits 0 m hm, if_pos rfl, pow_zero, Nat.mul_one]
  · rcases Nat.lt_or_ge m (2 ^ 53) with hlt | hge
    · have hcode : s * 2 ^ 52 + m = (s + 1) * 2 ^ 52 + (m - 2 ^ 52) := by omega
      have hm' : 2 ^ 52 + (m - 2 ^ 52) = m := by omega
      rw [hcode, hunits _ _ (by omega), if_neg (by omega), hm', Nat.add_sub_cancel]
    · obtain rfl : m = 2 ^ 53 := by omega
      have hcode : s * 2 ^ 52 + 2 ^ 53 = (s + 2) * 2 ^ 52 + 0 := by omega
      have hexponent : s + 2 - 1 = s + 1 := by omega
      rw [hcode, hunits _ _ (by omega), if_neg (by omega), hexponent, pow_succ]
      ring

theorem step_scaled {s m : Nat} (high : m < 2 ^ 53) (low : s = 0 ∨ 2 ^ 52 ≤ m) :
    step (s * 2 ^ 52 + m) = 2 ^ s := by
  rw [step]
  congr 1
  omega

theorem step_pos (code : Nat) : 0 < step code := Nat.two_pow_pos _

theorem unitsOfCode_succ (code : Nat) : unitsOfCode (code + 1) = unitsOfCode code + step code := by
  obtain ⟨s, m, rfl, high, low⟩ := exists_scaled code
  rw [Nat.add_assoc, unitsOfCode_scaled (by omega) (by omega), unitsOfCode_scaled (by omega) low,
    step_scaled high low]
  ring

theorem unitsOfCode_zero : unitsOfCode 0 = 0 := rfl

theorem unitsOfCode_mono {a b : Nat} (h : a ≤ b) : unitsOfCode a ≤ unitsOfCode b := by
  induction h with
  | refl => exact Nat.le_refl _
  | step _ ih =>
      rw [unitsOfCode_succ]
      exact Nat.le_add_right_of_le ih

theorem unitsOfCode_lt {a b : Nat} (h : a < b) : unitsOfCode a < unitsOfCode b := by
  have hstep := step_pos a
  have hmono := unitsOfCode_mono (Nat.succ_le_of_lt h)
  rw [Nat.succ_eq_add_one, unitsOfCode_succ] at hmono
  omega

/-! ## Rounding a quotient to an integer -/

/-- A rounded quotient is no further than one half from the quotient, and an even number where it is
as far as that. -/
theorem roundHalfEven_spec (num : Nat) {den : Nat} (hden : 0 < den) :
    2 * num ≤ (2 * roundHalfEven num den + 1) * den
      ∧ 2 * roundHalfEven num den * den ≤ 2 * num + den
      ∧ (2 * num = (2 * roundHalfEven num den + 1) * den
          ∨ 2 * roundHalfEven num den * den = 2 * num + den → roundHalfEven num den % 2 = 0) := by
  have hsplit := Nat.div_add_mod num den
  have hmod := Nat.mod_lt num hden
  have hdown : 2 * (num / den) * den = 2 * (den * (num / den)) := by ring
  have hdown' : (2 * (num / den) + 1) * den = 2 * (den * (num / den)) + den := by ring
  have hup : 2 * (num / den + 1) * den = 2 * (den * (num / den)) + 2 * den := by ring
  have hup' : (2 * (num / den + 1) + 1) * den = 2 * (den * (num / den)) + 3 * den := by ring
  unfold roundHalfEven
  dsimp only
  split
  · rw [hdown, hdown']
    omega
  · split
    · rw [hup, hup']
      omega
    · split
      · rw [hdown, hdown']
        omega
      · rw [hup, hup']
        omega

theorem roundHalfEven_le {num den k : Nat} (hden : 0 < den) (h : num < k * den) :
    roundHalfEven num den ≤ k := by
  by_contra hlt
  have hmul : (k + 1) * den ≤ roundHalfEven num den * den := Nat.mul_le_mul_right den (by omega)
  have hdown := (roundHalfEven_spec num hden).2.1
  rw [Nat.add_mul, Nat.one_mul] at hmul
  rw [Nat.mul_assoc] at hdown
  omega

theorem le_roundHalfEven {num den k : Nat} (hden : 0 < den) (h : k * den ≤ num) :
    k ≤ roundHalfEven num den := by
  by_contra hlt
  have hmul : (roundHalfEven num den + 1) * den ≤ k * den := Nat.mul_le_mul_right den (by omega)
  have hup := (roundHalfEven_spec num hden).1
  rw [Nat.add_mul, Nat.one_mul] at hmul
  rw [Nat.add_mul, Nat.one_mul, Nat.mul_assoc] at hup
  omega

/-- A larger quotient has no smaller nearest integer. -/
theorem roundHalfEven_mono {num num' den : Nat} (hden : 0 < den) (h : num ≤ num') :
    roundHalfEven num den ≤ roundHalfEven num' den := by
  by_contra hlt
  have hdown := (roundHalfEven_spec num hden).2.1
  have hup := (roundHalfEven_spec num' hden).1
  have hstep : (2 * roundHalfEven num' den + 1) * den + den ≤ 2 * roundHalfEven num den * den := by
    calc (2 * roundHalfEven num' den + 1) * den + den
        = 2 * (roundHalfEven num' den + 1) * den := by ring
      _ ≤ 2 * roundHalfEven num den * den := Nat.mul_le_mul_right den (by omega)
  -- Both are off by one half, so the quotients are equal.
  have heq : num = num' := by omega
  rw [heq] at hlt
  exact hlt (Nat.le_refl _)

/-! ## The nearest code -/

/-- The quotient `num / den`, in units, lies between the midpoints from a code to its neighbours, and
on one of them only if the code is even. -/
structure Nearest (code num den : Nat) : Prop where
  low : (unitsOfCode (code - 1) + unitsOfCode code) * den ≤ 2 * num
  high : 2 * num ≤ (unitsOfCode code + unitsOfCode (code + 1)) * den
  even : (unitsOfCode (code - 1) + unitsOfCode code) * den = 2 * num
    ∨ 2 * num = (unitsOfCode code + unitsOfCode (code + 1)) * den → code % 2 = 0

/-- The code nearest to a quotient is not above the one nearest to a larger quotient. -/
theorem Nearest.mono {a b num den num' den' : Nat} (hden : 0 < den) (hden' : 0 < den')
    (ha : Nearest a num den) (hb : Nearest b num' den') (h : num * den' ≤ num' * den) : a ≤ b := by
  by_contra hlt
  have hprev : unitsOfCode b ≤ unitsOfCode (a - 1) := unitsOfCode_mono (by omega)
  have hnext : unitsOfCode (b + 1) ≤ unitsOfCode a := unitsOfCode_mono (by omega)
  have hlow := Nat.mul_le_mul_right den' ha.low
  have hhigh := Nat.mul_le_mul_right den hb.high
  have hmid : (unitsOfCode b + unitsOfCode (b + 1)) * den' * den
      ≤ (unitsOfCode (a - 1) + unitsOfCode a) * den * den' := by
    rw [Nat.mul_right_comm _ den den']
    exact Nat.mul_le_mul_right den (Nat.mul_le_mul_right den' (Nat.add_le_add hprev hnext))
  rw [Nat.mul_assoc 2] at hlow hhigh
  -- Both quotients are the midpoint of both, so both codes are even, and there is one between them.
  have heven_a := ha.even (.inl (Nat.eq_of_mul_eq_mul_right hden' (by rw [Nat.mul_assoc 2]; omega)))
  have heven_b := hb.even (.inr (Nat.eq_of_mul_eq_mul_right hden (by rw [Nat.mul_assoc 2]; omega)))
  have hbetween : unitsOfCode (b + 1) < unitsOfCode a := unitsOfCode_lt (by omega)
  have hstrict : (unitsOfCode b + unitsOfCode (b + 1)) * den' * den
      < (unitsOfCode (a - 1) + unitsOfCode a) * den * den' := by
    rw [Nat.mul_right_comm _ den den']
    exact Nat.mul_lt_mul_of_pos_right (Nat.mul_lt_mul_of_pos_right (by omega) hden') hden
  omega

theorem Nearest.unique {a b num den : Nat} (hden : 0 < den) (ha : Nearest a num den)
    (hb : Nearest b num den) : a = b :=
  Nat.le_antisymm (ha.mono hden hden hb (Nat.le_refl _)) (hb.mono hden hden ha (Nat.le_refl _))

/-- Which code is nearest depends on the quotient alone. -/
theorem Nearest.of_cross {code num den num' den' : Nat} (hden : 0 < den) (hden' : 0 < den')
    (h : Nearest code num den) (cross : num * den' = num' * den) : Nearest code num' den' := by
  have hleft : ∀ a, a * den * den' = a * den' * den := fun a => by ring
  have hright : 2 * num * den' = 2 * num' * den := by rw [Nat.mul_assoc, cross, Nat.mul_assoc]
  refine ⟨?_, ?_, ?_⟩
  · have hlow := Nat.mul_le_mul_right den' h.low
    rw [hleft, hright] at hlow
    exact Nat.le_of_mul_le_mul_right hlow hden
  · have hhigh := Nat.mul_le_mul_right den' h.high
    rw [hleft, hright] at hhigh
    exact Nat.le_of_mul_le_mul_right hhigh hden
  · rintro (htie | htie)
    · refine h.even (.inl (Nat.eq_of_mul_eq_mul_right hden' ?_))
      rw [hleft, hright, htie]
    · refine h.even (.inr (Nat.eq_of_mul_eq_mul_right hden' ?_))
      rw [hleft, hright, htie]

/-- The midpoint above a scaled significand. Above the last significand of a scale the steps are
wider. -/
theorem midpoint_above {s m : Nat} (high : m ≤ 2 ^ 53) (low : s = 0 ∨ 2 ^ 52 ≤ m) :
    (2 * m + 1) * 2 ^ s ≤ unitsOfCode (s * 2 ^ 52 + m) + unitsOfCode (s * 2 ^ 52 + m + 1)
      ∧ (m < 2 ^ 53 →
        unitsOfCode (s * 2 ^ 52 + m) + unitsOfCode (s * 2 ^ 52 + m + 1) = (2 * m + 1) * 2 ^ s) := by
  have hwide : 2 ^ s ≤ step (s * 2 ^ 52 + m) := by
    rcases Nat.eq_zero_or_pos s with rfl | hs
    · exact Nat.one_le_two_pow
    · exact Nat.pow_le_pow_right (by decide) (by omega)
  have hmid : (2 * m + 1) * 2 ^ s = m * 2 ^ s + (m * 2 ^ s + 2 ^ s) := by ring
  rw [unitsOfCode_succ, unitsOfCode_scaled high low, hmid]
  exact ⟨by omega, fun hlt => by rw [step_scaled hlt low]⟩

/-- The midpoint below a scaled significand. Below the first significand of a scale the steps are
narrower. -/
theorem midpoint_below {s m : Nat} (high : m ≤ 2 ^ 53) (low : s = 0 ∨ 2 ^ 52 ≤ m)
    (positive : 0 < s * 2 ^ 52 + m) :
    unitsOfCode (s * 2 ^ 52 + m - 1) + unitsOfCode (s * 2 ^ 52 + m) < 2 * m * 2 ^ s
      ∧ (s = 0 ∨ 2 ^ 52 < m → unitsOfCode (s * 2 ^ 52 + m - 1) + unitsOfCode (s * 2 ^ 52 + m) + 2 ^ s
        = 2 * m * 2 ^ s) := by
  have hprev := unitsOfCode_succ (s * 2 ^ 52 + m - 1)
  have hstep := step_pos (s * 2 ^ 52 + m - 1)
  have hmid : 2 * m * 2 ^ s = m * 2 ^ s + m * 2 ^ s := by ring
  rw [Nat.sub_add_cancel positive, unitsOfCode_scaled high low] at hprev
  rw [unitsOfCode_scaled high low, hmid]
  refine ⟨by omega, fun hinside => ?_⟩
  have hback : s * 2 ^ 52 + m - 1 = s * 2 ^ 52 + (m - 1) := by omega
  have hwidth : step (s * 2 ^ 52 + m - 1) = 2 ^ s := by
    rw [hback]
    exact step_scaled (by omega) (by omega)
  omega

/-- The rounded significand of a scale gives the nearest code, if the quotient belongs to the scale. -/
theorem nearest_scaled {s num den : Nat} (hden : 0 < den)
    (low : s = 0 ∨ 2 ^ 52 * (den * 2 ^ s) ≤ num) (high : num < 2 ^ 53 * (den * 2 ^ s)) :
    Nearest (s * 2 ^ 52 + roundHalfEven num (den * 2 ^ s)) num den := by
  have hscaled : 0 < den * 2 ^ s := Nat.mul_pos hden (Nat.two_pow_pos s)
  have hm_high := roundHalfEven_le hscaled high
  have hm_low := low.imp_right (le_roundHalfEven hscaled)
  obtain ⟨hup, hdown, htie⟩ := roundHalfEven_spec num hscaled
  generalize roundHalfEven num (den * 2 ^ s) = m at hm_high hm_low hup hdown htie
  have heven : m % 2 = 0 → (s * 2 ^ 52 + m) % 2 = 0 := by omega
  have habove : 2 * num ≤ (unitsOfCode (s * 2 ^ 52 + m) + unitsOfCode (s * 2 ^ 52 + m + 1)) * den
      ∧ (2 * num = (unitsOfCode (s * 2 ^ 52 + m) + unitsOfCode (s * 2 ^ 52 + m + 1)) * den →
        m % 2 = 0) := by
    obtain ⟨hwide, hinside⟩ := midpoint_above hm_high hm_low
    have hcross : (2 * m + 1) * (den * 2 ^ s) = (2 * m + 1) * 2 ^ s * den := by ring
    rw [hcross] at hup htie
    refine ⟨hup.trans (Nat.mul_le_mul_right den hwide), fun h => ?_⟩
    rcases Nat.lt_or_ge m (2 ^ 53) with hlt | hge
    · rw [hinside hlt] at h
      exact htie (.inl h)
    · -- A carry leaves the significand `2 ^ 53`, which is even.
      omega
  have hbelow : (unitsOfCode (s * 2 ^ 52 + m - 1) + unitsOfCode (s * 2 ^ 52 + m)) * den ≤ 2 * num
      ∧ ((unitsOfCode (s * 2 ^ 52 + m - 1) + unitsOfCode (s * 2 ^ 52 + m)) * den = 2 * num →
        m % 2 = 0) := by
    rcases Nat.eq_zero_or_pos (s * 2 ^ 52 + m) with hzero | hpositive
    · obtain ⟨rfl, rfl⟩ : s = 0 ∧ m = 0 := by omega
      simp [unitsOfCode_zero]
    · obtain ⟨hnarrow, hinside⟩ := midpoint_below hm_high hm_low hpositive
      by_cases hfirst : s = 0 ∨ 2 ^ 52 < m
      · have hcross : (unitsOfCode (s * 2 ^ 52 + m - 1) + unitsOfCode (s * 2 ^ 52 + m)) * den
            + den * 2 ^ s = 2 * m * (den * 2 ^ s) := by
          rw [Nat.mul_comm den, ← Nat.add_mul, hinside hfirst]
          ring
        exact ⟨by omega, fun h => htie (.inr (by omega))⟩
      · -- The quotient is not below the first significand of its scale, but the midpoint is.
        obtain rfl : m = 2 ^ 52 := by omega
        have hscale := low.resolve_left (by omega)
        have hcross := Nat.mul_lt_mul_of_pos_right hnarrow hden
        rw [Nat.mul_assoc (2 * 2 ^ 52), Nat.mul_comm (2 ^ s), Nat.mul_assoc 2] at hcross
        exact ⟨by omega, fun h => by omega⟩
  exact ⟨hbelow.1, habove.1, fun h => heven (h.elim hbelow.2 habove.2)⟩

theorem nearest_nearestCode (num : Nat) {den : Nat} (hden : 0 < den) :
    Nearest (nearestCode num den) num den := by
  unfold nearestCode
  simp only [Nat.pow_eq]
  split
  · rename_i hsmall
    have h := nearest_scaled (s := 0) hden (.inl rfl)
      (by rw [pow_zero, Nat.mul_one]; exact (Nat.div_lt_iff_lt_mul hden).mp hsmall)
    rwa [Nat.zero_mul, Nat.zero_add, pow_zero, Nat.mul_one] at h
  · rename_i hlarge
    have hne : num / den ≠ 0 := by omega
    have hlow := Nat.log2_self_le hne
    have hhigh := Nat.lt_log2_self (n := num / den)
    have hlog : 52 ≤ (num / den).log2 := by
      rw [Nat.le_log2 hne]
      omega
    obtain ⟨s, hs⟩ := Nat.exists_eq_add_of_le hlog
    rw [hs] at hlow hhigh ⊢
    rw [Nat.add_sub_cancel_left]
    refine nearest_scaled hden (.inr ?_) ?_
    · calc 2 ^ 52 * (den * 2 ^ s) = 2 ^ (52 + s) * den := by ring
        _ ≤ num := (Nat.le_div_iff_mul_le hden).mp hlow
    · calc num < 2 ^ (52 + s + 1) * den := (Nat.div_lt_iff_lt_mul hden).mp hhigh
        _ = 2 ^ 53 * (den * 2 ^ s) := by ring

/-- The code that a quotient is nearest to is the one that is found. -/
theorem Nearest.nearestCode_eq {code num den : Nat} (hden : 0 < den) (h : Nearest code num den) :
    nearestCode num den = code :=
  (nearest_nearestCode num hden).unique hden h

/-- A larger quotient has no smaller nearest code. -/
theorem nearestCode_mono {num num' den : Nat} (hden : 0 < den) (h : num ≤ num') :
    nearestCode num den ≤ nearestCode num' den :=
  (nearest_nearestCode num hden).mono hden hden (nearest_nearestCode num' hden)
    (Nat.mul_le_mul_right den h)

end PowerBench.Binary64
