import Mathlib.Tactic.Ring
import PowerBench.Proofs.DayCount
import PowerBench.Timestamp.Basic

set_option autoImplicit false

/-! # Calendar instants as times

An instant is scaled to nanoseconds in 64 bits, step by step. The steps are arranged so that none of
them decides the result: whenever the sum has 64 bits the scaled seconds have, also where the seconds
before 1970 alone would not, and a leap second does not undo that because it ends a minute
(`nanos64?_eq`). Civil times and readings of the clock become instants first, with the same number of
nanoseconds (`calendar_time`).
-/

namespace PowerBench

/-- A second has fewer than 2·10^9 nanoseconds, and 10^9 or more only if it ends a minute. -/
structure Instant.IsProper (t : Instant) : Prop where
  nanos_lt : t.nanos < 2 * 10 ^ 9
  leap : 10 ^ 9 ≤ t.nanos → t.secs % 60 = 59

/-- The date exists in its year, and the time of day is one of its clock's. -/
structure CivilTime.IsProper (c : CivilTime) : Prop where
  month_pos : 1 ≤ c.month
  month_le : c.month ≤ 12
  day_pos : 1 ≤ c.day
  day_le : c.day ≤ Calendar.daysInMonth c.year c.month
  hour_lt : c.hour < 24
  minute_lt : c.minute < 60
  second_lt : c.second < 60
  nanos_lt : c.nanos < 2 * 10 ^ 9
  leap : 10 ^ 9 ≤ c.nanos → c.second = 59

/-- The nanoseconds since 1970-01-01 that the clock tells. -/
def ClockReading.nanosSince1970 (c : ClockReading) : Int :=
  if c.before then -(c.secs * 10 ^ 9 + c.nanos) else c.secs * 10 ^ 9 + c.nanos

/-- The time `n` if it has 64 bits, and otherwise the refusal of a calendar instant. -/
def Timestamp.timeOrRefusal (n : Int) (text : String) : Except BadTimestamp Int :=
  if -2 ^ 63 ≤ n ∧ n < 2 ^ 63 then .ok n else .error ⟨.datetime, text⟩

/-! ## Arithmetic of 64 bits -/

theorem within64?_eq (n : Int) :
    within64? n = if -2 ^ 63 ≤ n ∧ n < 2 ^ 63 then some n else none := by
  rw [within64?]
  congr 1
  rw [fitsSigned, Bool.and_eq_true, decide_eq_true_eq, decide_eq_true_eq]
  rfl

/-- A sum in two steps, if the first is in the range whenever the sum is. -/
theorem within64?_add {a b : Int}
    (first : -2 ^ 63 ≤ a + b ∧ a + b < 2 ^ 63 → -2 ^ 63 ≤ a ∧ a < 2 ^ 63) :
    (within64? a >>= fun s => within64? (s + b)) = within64? (a + b) := by
  by_cases ha : -2 ^ 63 ≤ a ∧ a < 2 ^ 63
  · rw [within64?_eq a, if_pos ha]
    rfl
  · rw [within64?_eq a, if_neg ha, within64?_eq, if_neg (mt first ha)]
    rfl

namespace Instant

/-- **Checked nanoseconds.** Computed in 64 bits, the nanoseconds of an instant are there exactly if they
have 64 bits. -/
theorem nanos64?_eq {t : Instant} (h : t.IsProper) :
    t.nanos64? = if -2 ^ 63 ≤ t.toNanos ∧ t.toNanos < 2 ^ 63 then some t.toNanos else none := by
  have hnanos := h.nanos_lt
  have hleap := h.leap
  rw [← within64?_eq, nanos64?]
  by_cases hsecs : t.secs < 0
  · have hsum : t.toNanos = (t.secs + 1) * 1000000000 + ((t.nanos : Int) - 1000000000) := by
      rw [toNanos]
      omega
    rw [if_pos hsecs, hsum]
    apply within64?_add
    intro hrange
    -- At the lower end the scaled second is outside, and the sum is not if its nanoseconds are those
    -- of a leap second. But that second is the 42nd of its minute.
    omega
  · rw [if_neg hsecs, toNanos]
    apply within64?_add
    intro hrange
    omega

end Instant

/-- The instant so many seconds earlier. -/
def Instant.earlier (t : Instant) (secs : Int) : Instant := ⟨t.secs - secs, t.nanos⟩

theorem Instant.toNanos_earlier (t : Instant) (secs : Int) :
    (t.earlier secs).toNanos = t.toNanos - secs * 10 ^ 9 := by
  unfold earlier toNanos
  dsimp only
  omega

theorem Instant.IsProper.earlier {t : Instant} (h : t.IsProper) (minutes : Int) :
    (t.earlier (minutes * 60)).IsProper where
  nanos_lt := h.nanos_lt
  leap hleap := by
    have hsecs := h.leap hleap
    unfold Instant.earlier
    dsimp only
    omega

namespace Timestamp

theorem normalize_calendar {t : Instant} (h : t.IsProper) :
    normalize (.calendar t) = timeOrRefusal t.toNanos t.text := by
  rw [normalize, Instant.nanos64?_eq h, timeOrRefusal]
  by_cases hrange : -2 ^ 63 ≤ t.toNanos ∧ t.toNanos < 2 ^ 63
  · rw [if_pos hrange, if_pos hrange]
  · rw [if_neg hrange, if_neg hrange]

end Timestamp

/-! ## Civil times -/

namespace CivilTime

variable {c : CivilTime}

theorem universal_proper (h : c.IsProper) : c.universal.IsProper where
  nanos_lt := h.nanos_lt
  leap hleap := by
    have hsecond := h.leap hleap
    unfold universal
    dsimp only
    omega

theorem daysSince1970 (h : c.IsProper) :
    Calendar.DaysSince1970 c.year c.month c.day (Calendar.dayNumber c.year c.month c.day) :=
  Calendar.daysSince1970_iff.mpr ⟨⟨h.month_pos, h.month_le, h.day_pos, h.day_le⟩, rfl⟩

theorem toNanos_universal (c : CivilTime) :
    c.universal.toNanos
      = (Calendar.dayNumber c.year c.month c.day * 86400 + c.hour * 3600 + c.minute * 60 + c.second)
          * 10 ^ 9 + c.nanos := by
  unfold universal Instant.toNanos
  dsimp only
  ring

end CivilTime

/-! ## Readings of the clock -/

namespace Instant

theorem toNanos_ofNanos (n : Int) : (ofNanos n).toNanos = n := by
  unfold ofNanos toNanos
  dsimp only
  omega

theorem ofNanos_proper (n : Int) : (ofNanos n).IsProper where
  nanos_lt := by
    unfold ofNanos
    dsimp only
    omega
  leap h := by
    unfold ofNanos at h
    dsimp only at h
    omega

/-- Also before 1970 the instant is the one so many nanoseconds away. -/
theorem ofClock?_eq {c : ClockReading} (h : c.nanos < 10 ^ 9) :
    ofClock? c = if Calendar.reaches (c.nanosSince1970 / (86400 * 10 ^ 9)) then
      some (ofNanos c.nanosSince1970) else none := by
  have hinstant : (if c.before then
      if c.nanos = 0 then ⟨-Int.ofNat c.secs, 0⟩
      else ⟨-Int.ofNat c.secs - 1, 1000000000 - c.nanos⟩
    else ⟨c.secs, c.nanos⟩ : Instant) = ofNanos c.nanosSince1970 := by
    unfold ofNanos ClockReading.nanosSince1970
    simp only [Int.ofNat_eq_natCast]
    by_cases hbefore : c.before = true
    · rw [if_pos hbefore, if_pos hbefore]
      -- Without nanoseconds no second is borrowed.
      by_cases hnanos : c.nanos = 0
      · rw [if_pos hnanos, Instant.mk.injEq]
        omega
      · rw [if_neg hnanos, Instant.mk.injEq]
        omega
    · rw [if_neg hbefore, if_neg hbefore, Instant.mk.injEq]
      omega
  have hday : (ofNanos c.nanosSince1970).secs / 86400 = c.nanosSince1970 / (86400 * 10 ^ 9) := by
    unfold ofNanos
    dsimp only
    omega
  unfold ofClock?
  dsimp only
  rw [hinstant, hday]

end Instant

/-! ## Times -/

namespace Timestamp

/-- **Calendar times.** The time of an instant is its seconds and nanoseconds as nanoseconds, if they
have 64 bits, and else it is refused. A civil time counts as universal time, and a reading of the clock
as the nanoseconds it tells, as long as its date is one of the calendar's. -/
theorem calendar_time :
    (∀ t : Instant, t.IsProper →
        normalize (.calendar t) = timeOrRefusal (t.secs * 10 ^ 9 + t.nanos) t.text)
      ∧ (∀ c : CivilTime, c.IsProper →
          ∃ day, Calendar.DaysSince1970 c.year c.month c.day day
            ∧ normalize (ofCivil c)
              = timeOrRefusal
                  ((day * 86400 + c.hour * 3600 + c.minute * 60 + c.second) * 10 ^ 9 + c.nanos)
                  c.universal.text)
      ∧ (∀ c : ClockReading, c.nanos < 10 ^ 9 → ∀ y m d,
          Calendar.DaysSince1970 y m d (c.nanosSince1970 / (86400 * 10 ^ 9)) →
          -262143 ≤ y → y ≤ 262142 →
          ∃ t, ofClock? c = some (.calendar t)
            ∧ normalize (.calendar t) = timeOrRefusal c.nanosSince1970 t.text) := by
  refine ⟨fun t h => ?_, fun c h => ?_, fun c h y m d hdate hlow hhigh => ?_⟩
  · exact normalize_calendar h
  · refine ⟨_, c.daysSince1970 h, ?_⟩
    rw [ofCivil, normalize_calendar (c.universal_proper h), CivilTime.toNanos_universal]
  · refine ⟨.ofNanos c.nanosSince1970, ?_, ?_⟩
    · rw [ofClock?, Instant.ofClock?_eq h, if_pos ((Calendar.reaches_iff hdate).mpr ⟨hlow, hhigh⟩)]
      rfl
    · rw [normalize_calendar (Instant.ofNanos_proper _), Instant.toNanos_ofNanos]

/-- The lower end of the range is the time of an instant in 1677, of the civil time that it is, and of
the clock. -/
theorem calendar_time_lower_end :
    normalize (.calendar ⟨-9223372037, 145224192⟩) = .ok (-2 ^ 63)
      ∧ normalize (ofCivil ⟨1677, 9, 21, 0, 12, 43, 145224192⟩) = .ok (-2 ^ 63)
      ∧ ∃ t, ofClock? ⟨true, 9223372036, 854775808⟩ = some (.calendar t)
        ∧ normalize (.calendar t) = .ok (-2 ^ 63) := by
  obtain ⟨hinstant, hcivil, hclock⟩ := calendar_time
  refine ⟨?_, ?_, ?_⟩
  · exact hinstant ⟨-9223372037, 145224192⟩ ⟨by decide, by decide⟩
  · obtain ⟨day, hday, htime⟩ := hcivil ⟨1677, 9, 21, 0, 12, 43, 145224192⟩
      ⟨by decide, by decide, by decide, by decide, by decide, by decide, by decide, by decide,
        by decide⟩
    rw [htime, Calendar.eq_dayNumber hday]
    rfl
  · have hdate : Calendar.DaysSince1970 1677 9 21 (-106752) :=
      Calendar.daysSince1970_iff.mpr ⟨by decide, by decide⟩
    exact hclock ⟨true, 9223372036, 854775808⟩ (by decide) 1677 9 21 hdate (by decide) (by decide)

end Timestamp

end PowerBench
