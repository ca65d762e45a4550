import Mathlib.Data.Int.Init
import Mathlib.Data.Nat.Init
import Mathlib.Order.Nat
import Mathlib.Tactic.SplitIfs
import PowerBench.Calendar

set_option autoImplicit false

/-! # Counting days

The proleptic Gregorian calendar, told by what the day after a date is, and the days since 1970-01-01,
counted one by one along it in both directions (`DaysSince1970`). A day number is that count
(`daysSince1970_iff`): it is one more on the next day, and every date is reached.
-/

namespace PowerBench.Calendar

/-- The second date is the day after the first. -/
inductive Follows : Int → Nat → Nat → Int → Nat → Nat → Prop
  | day {y : Int} {m d : Nat} (positive : 1 ≤ d) (inside : d < daysInMonth y m) :
      Follows y m d y m (d + 1)
  | month {y : Int} {m : Nat} (positive : 1 ≤ m) (inside : m < 12) :
      Follows y m (daysInMonth y m) y (m + 1) 1
  | year {y : Int} : Follows y 12 31 (y + 1) 1 1

/-- The date is `n` days after 1970-01-01, or `-n` days before it. -/
inductive DaysSince1970 : Int → Nat → Nat → Int → Prop
  | first : DaysSince1970 1970 1 1 0
  | later {y y' n : Int} {m m' d d' : Nat} (count : DaysSince1970 y m d n)
      (next : Follows y m d y' m' d') : DaysSince1970 y' m' d' (n + 1)
  | earlier {y y' n : Int} {m m' d d' : Nat} (count : DaysSince1970 y' m' d' n)
      (next : Follows y m d y' m' d') : DaysSince1970 y m d (n - 1)

/-! ## Lengths -/

theorem daysInMonth_pos (y : Int) (m : Nat) : 1 ≤ daysInMonth y m := by
  unfold daysInMonth
  split_ifs <;> decide

theorem daysBeforeMonth_succ (y : Int) {m : Nat} (h : 1 ≤ m) :
    daysBeforeMonth y (m + 1) = daysBeforeMonth y m + daysInMonth y m := by
  obtain ⟨k, rfl⟩ := Nat.exists_eq_add_of_le' h
  rfl

theorem daysInMonth_december (y : Int) : daysInMonth y 12 = 31 := rfl

/-- Only February differs from year to year. -/
theorem daysBeforeMonth_december (y : Int) :
    daysBeforeMonth y 12 = 306 + if isLeapYear y then 29 else 28 := by
  have hshort : ∀ m, m = 4 ∨ m = 6 ∨ m = 9 ∨ m = 11 → daysInMonth y m = 30 := by
    rintro m (rfl | rfl | rfl | rfl) <;> rfl
  have hlong : ∀ m, m = 1 ∨ m = 3 ∨ m = 5 ∨ m = 7 ∨ m = 8 ∨ m = 10 → daysInMonth y m = 31 := by
    rintro m (rfl | rfl | rfl | rfl | rfl | rfl) <;> rfl
  have hfebruary : daysInMonth y 2 = if isLeapYear y then 29 else 28 := rfl
  simp only [daysBeforeMonth]
  rw [hlong 1 (by decide), hlong 3 (by decide), hlong 5 (by decide), hlong 7 (by decide),
    hlong 8 (by decide), hlong 10 (by decide), hshort 4 (by decide), hshort 6 (by decide),
    hshort 9 (by decide), hshort 11 (by decide), hfebruary]
  omega

/-- The length of a year, told by its months and by the years before it. -/
theorem daysBeforeYear_succ (y : Int) :
    daysBeforeYear (y + 1) = daysBeforeYear y + daysBeforeMonth y 12 + daysInMonth y 12 := by
  have hleap : isLeapYear y = true ↔ y % 4 = 0 ∧ (y % 100 ≠ 0 ∨ y % 400 = 0) := by
    simp [isLeapYear]
  rw [daysBeforeMonth_december, daysInMonth_december]
  -- One of the quotients by 4, 100 and 400 grows exactly if the year before the new one is a leap year.
  unfold daysBeforeYear
  by_cases h : isLeapYear y = true
  · rw [if_pos h]
    rw [hleap] at h
    dsimp only
    omega
  · rw [if_neg h]
    rw [hleap] at h
    dsimp only
    omega

/-! ## A day number is a count -/

variable {y y' n : Int} {m m' d d' : Nat}

theorem dayNumber_follows (h : Follows y m d y' m' d') :
    dayNumber y' m' d' = dayNumber y m d + 1 := by
  unfold dayNumber
  cases h with
  | day positive inside => simp only [Int.ofNat_eq_natCast]; omega
  | month positive inside =>
      rw [daysBeforeMonth_succ _ positive]
      simp only [Int.ofNat_eq_natCast]
      omega
  | year =>
      have hfirst : daysBeforeMonth (y + 1) 1 = 0 := rfl
      rw [daysBeforeYear_succ, daysInMonth_december, hfirst]
      simp only [Int.ofNat_eq_natCast]
      omega

theorem eq_dayNumber (h : DaysSince1970 y m d n) : n = dayNumber y m d := by
  -- Each step of the count is one step of the day number, forwards and backwards.
  induction h with
  | first => decide
  | later count next ih => rw [dayNumber_follows next, ih]
  | earlier count next ih => rw [ih, dayNumber_follows next]; omega

theorem exists_of_daysSince1970 (h : DaysSince1970 y m d n) :
    1 ≤ m ∧ m ≤ 12 ∧ 1 ≤ d ∧ d ≤ daysInMonth y m := by
  induction h with
  | first => decide
  | later count next ih =>
      cases next with
      | day positive inside => omega
      | month positive inside => exact ⟨by omega, by omega, le_rfl, daysInMonth_pos _ _⟩
      | year => exact ⟨by decide, by decide, le_rfl, daysInMonth_pos _ _⟩
  | earlier count next ih =>
      cases next with
      | day positive inside => omega
      | month positive inside => exact ⟨positive, by omega, daysInMonth_pos _ _, le_rfl⟩
      | year => exact ⟨by decide, by decide, by decide, le_rfl⟩

/-! ## Every date is counted -/

/-- The date is counted, and its day number is the count. -/
def Counted (y : Int) (m d : Nat) : Prop := DaysSince1970 y m d (dayNumber y m d)

theorem counted_follows (h : Follows y m d y' m' d') : Counted y' m' d' ↔ Counted y m d := by
  have hnumber := dayNumber_follows h
  constructor
  · intro hlater
    have hearlier := hlater.earlier h
    rwa [hnumber, Int.add_sub_cancel] at hearlier
  · intro hearlier
    have hlater := hearlier.later h
    rwa [← hnumber] at hlater

theorem counted_month (hd : 1 ≤ d) (h : d ≤ daysInMonth y m) : Counted y m d ↔ Counted y m 1 := by
  induction d, hd using Nat.le_induction with
  | base => rfl
  | succ d hd ih => rw [counted_follows (.day hd (by omega)), ih (by omega)]

theorem counted_year (hm : 1 ≤ m) (h : m ≤ 12) : Counted y m 1 ↔ Counted y 1 1 := by
  induction m, hm using Nat.le_induction with
  | base => rfl
  | succ m hm ih =>
      rw [counted_follows (.month hm (by omega)), counted_month (daysInMonth_pos y m) le_rfl,
        ih (by omega)]

theorem counted_first (y : Int) : Counted y 1 1 := by
  have hnext : ∀ y, Counted (y + 1) 1 1 ↔ Counted y 1 1 := by
    intro y
    -- The last day of a year is counted exactly if its first day is.
    rw [counted_follows .year, counted_month (by omega) (daysInMonth_december y).ge,
      counted_year (by omega) le_rfl]
  refine Int.inductionOn' y 1970 DaysSince1970.first ?_ ?_
  · intro y _ ih
    exact (hnext y).mpr ih
  · intro y _ ih
    rw [← hnext, Int.sub_add_cancel]
    exact ih

/-- **Day numbers.** The days since 1970-01-01 are counted for the dates that exist, and the day number
of a date is its count. -/
theorem daysSince1970_iff :
    DaysSince1970 y m d n
      ↔ (1 ≤ m ∧ m ≤ 12 ∧ 1 ≤ d ∧ d ≤ daysInMonth y m) ∧ n = dayNumber y m d := by
  constructor
  · intro h
    exact ⟨exists_of_daysSince1970 h, eq_dayNumber h⟩
  · rintro ⟨⟨hm, hm', hd, hd'⟩, rfl⟩
    exact (counted_month hd hd').mpr ((counted_year hm hm').mpr (counted_first y))

/-! ## The ends of the calendar -/

theorem daysBeforeMonth_last_le {k : Nat} (hm : 1 ≤ m) (h : m ≤ k) :
    daysBeforeMonth y m + daysInMonth y m ≤ daysBeforeMonth y k + daysInMonth y k := by
  induction k, h using Nat.le_induction with
  | base => exact le_rfl
  | succ k hk ih =>
      have hlast := daysBeforeMonth_succ y (hm.trans hk)
      omega

/-- A date lies in its year. -/
theorem dayNumber_bounds (h : DaysSince1970 y m d n) :
    daysBeforeYear y - 719162 ≤ n ∧ n < daysBeforeYear (y + 1) - 719162 := by
  obtain ⟨⟨hm, hm', hd, hd'⟩, rfl⟩ := daysSince1970_iff.mp h
  have hlast := daysBeforeMonth_last_le (y := y) hm hm'
  rw [daysBeforeYear_succ]
  unfold dayNumber
  simp only [Int.ofNat_eq_natCast]
  omega

theorem daysBeforeYear_mono (h : y ≤ y') : daysBeforeYear y ≤ daysBeforeYear y' := by
  unfold daysBeforeYear
  dsimp only
  omega

/-- The days of the years in the range, and no others, are reached. -/
theorem reaches_iff (h : DaysSince1970 y m d n) :
    reaches n = true ↔ -262143 ≤ y ∧ y ≤ 262142 := by
  have hbounds := dayNumber_bounds h
  have hlow : dayNumber (-262143) 1 1 = daysBeforeYear (-262143) - 719162 := by decide
  have hhigh : dayNumber 262142 12 31 = daysBeforeYear 262143 - 719163 := by decide
  rw [reaches, Bool.and_eq_true, decide_eq_true_eq, decide_eq_true_eq, hlow, hhigh]
  constructor
  · rintro ⟨hfirst, hlast⟩
    constructor
    · by_contra hyear
      have hnext : daysBeforeYear (y + 1) ≤ daysBeforeYear (-262143) := daysBeforeYear_mono (by omega)
      omega
    · by_contra hyear
      have hlater : daysBeforeYear 262143 ≤ daysBeforeYear y := daysBeforeYear_mono (by omega)
      omega
  · rintro ⟨hfirst, hlast⟩
    have hearlier := daysBeforeYear_mono hfirst
    have hnext : daysBeforeYear (y + 1) ≤ daysBeforeYear 262143 := daysBeforeYear_mono (by omega)
    omega

end PowerBench.Calendar
