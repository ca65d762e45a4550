import Mathlib.Algebra.Order.Field.Rat
import Mathlib.Tactic.Linarith
import Mathlib.Tactic.NormNum
import PowerBench.Proofs.TraceText
import PowerBench.Proofs.WholeValues

set_option autoImplicit false

/-! # Seconds of nanoseconds

A time in nanoseconds is rounded to a value, divided by 10^9 with a second rounding, and written with
seven places, which is a third. Before 2^25 seconds the three come to half of the last place
(`scaled_seconds_early`); from then on the first two show (`scaled_seconds_bound`). Each line of a trace
tells the time of its row within these bounds (`times_told`).
-/

namespace PowerBench

namespace Binary64

/-! ## Nanoseconds as seconds -/

/-- A value with places is off by at most one half of the last one. -/
theorem scaled_spec (places : Nat) (x : Binary64) :
    2 * (x.units * 10 ^ places) ≤ (2 * x.scaled places + 1) * unitsPerOne
      ∧ 2 * x.scaled places * unitsPerOne ≤ 2 * (x.units * 10 ^ places) + unitsPerOne := by
  obtain ⟨hup, hdown, -⟩ := roundHalfEven_spec (x.units * 10 ^ places) unitsPerOne_pos
  exact ⟨hup, hdown⟩

/-- The seven places of a value that is less than `e` billionths away from `t` billionths. -/
theorem scaled_of_close {x : Binary64} {t e : Nat}
    (low : t * unitsPerOne < x.units * 1000000000 + e * unitsPerOne)
    (high : x.units * 1000000000 < (t + e) * unitsPerOne) :
    t < 100 * x.scaled 7 + (50 + e) ∧ 100 * x.scaled 7 < t + (50 + e) := by
  obtain ⟨hup, hdown⟩ := scaled_spec 7 x
  constructor
  · refine Nat.lt_of_mul_lt_mul_right (a := unitsPerOne) ?_
    calc t * unitsPerOne < x.units * 1000000000 + e * unitsPerOne := low
      _ = 50 * (2 * (x.units * 10 ^ 7)) + e * unitsPerOne := by ring
      _ ≤ 50 * ((2 * x.scaled 7 + 1) * unitsPerOne) + e * unitsPerOne := by omega
      _ = (100 * x.scaled 7 + (50 + e)) * unitsPerOne := by ring
  · refine Nat.lt_of_mul_lt_mul_right (a := unitsPerOne) ?_
    calc 100 * x.scaled 7 * unitsPerOne = 50 * (2 * x.scaled 7 * unitsPerOne) := by ring
      _ ≤ 50 * (2 * (x.units * 10 ^ 7) + unitsPerOne) := Nat.mul_le_mul_left _ hdown
      _ = x.units * 1000000000 + 50 * unitsPerOne := by ring
      _ < (t + e) * unitsPerOne + 50 * unitsPerOne := Nat.add_lt_add_right high _
      _ = (t + (50 + e)) * unitsPerOne := by ring

/-- The number of seconds of a time that is a whole number of nanoseconds. -/
def seconds (t : Nat) : Binary64 := (ofNat t).divNat 1000000000

section

variable {t : Nat}

theorem isNegative_seconds (h : t < 2 ^ 63) : (seconds t).isNegative = false := by
  rw [seconds, isNegative_divNat (isFinite_ofNat h) (by decide), isNegative_ofNat h]

theorem units_ofNat_pos (h : t < 2 ^ 63) (pos : 0 < t) : 2 ^ 52 * 1000000000 ≤ (ofNat t).units := by
  obtain ⟨-, hdown⟩ := units_ofNat_error h
  have hone : unitsPerOne ≤ t * unitsPerOne := Nat.le_mul_of_pos_left _ pos
  have hhuge : 2 ^ 100 ≤ unitsPerOne := two_pow_le_unitsPerOne (by decide)
  omega

/-- The seconds are off by at most one part in 2^53 from the value of the nanoseconds. -/
theorem units_seconds_error (h : t < 2 ^ 63) :
    2 ^ 53 * ((seconds t).units * 1000000000) ≤ (2 ^ 53 + 1) * (ofNat t).units
      ∧ (2 ^ 53 - 1) * (ofNat t).units ≤ 2 ^ 53 * ((seconds t).units * 1000000000) := by
  rcases Nat.eq_zero_or_pos t with rfl | hpos
  · have hzero : (ofNat 0).units = 0 := by rw [units_ofNat_small (by decide), Nat.zero_mul]
    have hden : 0 < unitsPerOne * 1000000000 := Nat.mul_pos unitsPerOne_pos (by decide)
    have hcode := nearestCode_units 0 hden
    rw [unitsOfCode_zero, Nat.zero_mul] at hcode
    have hseconds : (seconds 0).units = 0 := by
      rw [seconds, units_divNat (isFinite_ofNat h) (by decide), hzero, Nat.zero_mul, hcode]
      exact unitsOfCode_zero
    simp [hzero, hseconds]
  · exact units_divNat_error (isFinite_ofNat h) (by decide) (units_ofNat_pos h hpos)

/-- Below 2^25 seconds, half a step of the seconds is less than two nanoseconds. -/
theorem units_seconds_close {T : Nat} (h : t < 2 ^ 63) (pos : 0 < t)
    (whole : (ofNat t).units = T * unitsPerOne) (early : T ≤ 2 ^ 25 * 1000000000) :
    T * unitsPerOne < (seconds t).units * 1000000000 + 2 * unitsPerOne
      ∧ (seconds t).units * 1000000000 < (T + 2) * unitsPerOne := by
  have hden : 0 < unitsPerOne * 1000000000 := Nat.mul_pos unitsPerOne_pos (by decide)
  have hunits : (seconds t).units
      = unitsOfCode (nearestCode (T * unitsPerOne * unitsPerOne) (unitsPerOne * 1000000000)) := by
    rw [seconds, units_divNat (isFinite_ofNat h) (by decide), whole]
  rcases Nat.lt_or_eq_of_le early with hlt | rfl
  · have hlarge : 2 ^ 52 * (unitsPerOne * 1000000000) ≤ T * unitsPerOne * unitsPerOne := by
      have hX := units_ofNat_pos h pos
      calc 2 ^ 52 * (unitsPerOne * 1000000000) = 2 ^ 52 * 1000000000 * unitsPerOne := by ring
        _ ≤ T * unitsPerOne * unitsPerOne := Nat.mul_le_mul_right _ (by rw [← whole]; exact hX)
    obtain ⟨s, hlow, hup, hdown⟩ := nearestCode_halfStep hden hlarge
    rw [← hunits] at hup hdown
    have hs : s ≤ 1046 := by
      by_contra hlarger
      have hscale : unitsPerOne ≤ 2 ^ 27 * 2 ^ s := by
        calc unitsPerOne ≤ 2 ^ 27 * 2 ^ 1047 := by decide +kernel
          _ ≤ 2 ^ 27 * 2 ^ s :=
              Nat.mul_le_mul_left _ (Nat.pow_le_pow_right (by decide) (Nat.lt_of_not_le hlarger))
      refine Nat.lt_irrefl (T * (unitsPerOne * unitsPerOne)) ?_
      calc T * (unitsPerOne * unitsPerOne) < 2 ^ 25 * 1000000000 * (unitsPerOne * unitsPerOne) :=
            Nat.mul_lt_mul_of_pos_right hlt (Nat.mul_pos unitsPerOne_pos unitsPerOne_pos)
        _ = 2 ^ 25 * (unitsPerOne * 1000000000) * unitsPerOne := by ring
        _ ≤ 2 ^ 25 * (unitsPerOne * 1000000000) * (2 ^ 27 * 2 ^ s) := Nat.mul_le_mul_left _ hscale
        _ = 2 ^ 52 * (unitsPerOne * 1000000000 * 2 ^ s) := by ring
        _ ≤ T * (unitsPerOne * unitsPerOne) := hlow.trans_eq (Nat.mul_assoc _ _ _)
    have hstep : 1000000000 * 2 ^ s < 4 * unitsPerOne := by
      calc 1000000000 * 2 ^ s ≤ 1000000000 * 2 ^ 1046 :=
            Nat.mul_le_mul_left _ (Nat.pow_le_pow_right (by decide) hs)
        _ < 4 * unitsPerOne := by decide +kernel
    -- One factor of the units cancels.
    have hup' : 2 * (T * unitsPerOne)
        ≤ 2 * ((seconds t).units * 1000000000) + 1000000000 * 2 ^ s := by
      refine Nat.le_of_mul_le_mul_right ?_ unitsPerOne_pos
      calc 2 * (T * unitsPerOne) * unitsPerOne = 2 * (T * unitsPerOne * unitsPerOne) := by ring
        _ ≤ _ := hup
        _ = (2 * ((seconds t).units * 1000000000) + 1000000000 * 2 ^ s) * unitsPerOne := by ring
    have hdown' : 2 * ((seconds t).units * 1000000000)
        ≤ 2 * (T * unitsPerOne) + 1000000000 * 2 ^ s := by
      refine Nat.le_of_mul_le_mul_right ?_ unitsPerOne_pos
      calc 2 * ((seconds t).units * 1000000000) * unitsPerOne
          = 2 * ((seconds t).units * (unitsPerOne * 1000000000)) := by ring
        _ ≤ _ := hdown
        _ = (2 * (T * unitsPerOne) + 1000000000 * 2 ^ s) * unitsPerOne := by ring
    rw [Nat.add_mul]
    omega
  · -- These seconds are a value.
    have hvalue : unitsOfCode (1047 * 2 ^ 52 + 2 ^ 52) = 2 ^ 25 * unitsPerOne := by
      rw [unitsOfCode_scaled (by decide) (.inr (Nat.le_refl _)), unitsPerOne_eq, ← pow_add, ← pow_add]
    have hproduct : 2 ^ 25 * 1000000000 * unitsPerOne * unitsPerOne
        = unitsOfCode (1047 * 2 ^ 52 + 2 ^ 52) * (unitsPerOne * 1000000000) := by
      rw [hvalue]
      ring
    rw [hunits, hproduct, nearestCode_units _ hden, hvalue]
    have := unitsPerOne_pos
    omega

/-- Before 2^25 seconds, the seven places of the seconds are those of the nanoseconds. -/
theorem scaled_seconds_early (early : t < 2 ^ 25 * 1000000000) :
    100 * (seconds t).scaled 7 ≤ t + 50 ∧ t ≤ 100 * (seconds t).scaled 7 + 50 := by
  have h : t < 2 ^ 63 := early.trans (by decide)
  rcases Nat.lt_or_ge t (2 ^ 53) with hsmall | hlarge
  · -- The nanoseconds are a value.
    obtain ⟨hup, hdown⟩ := units_seconds_error h
    rw [units_ofNat_small hsmall] at hup hdown
    have hlt := Nat.mul_lt_mul_of_pos_right hsmall unitsPerOne_pos
    obtain ⟨hlow, hhigh⟩ := scaled_of_close (x := seconds t) (t := t) (e := 1) (by omega)
      (by rw [Nat.add_mul]; omega)
    omega
  · have pos : 0 < t := by omega
    rcases Nat.lt_or_ge t (2 ^ 54) with hmiddle | htop
    · -- They are rounded to an even number, and to a multiple of four if they are in the middle.
      have hunits := units_ofNat_large h (j := 1) (by omega) (by omega)
      obtain ⟨hup, hdown, heven⟩ := roundHalfEven_spec t (Nat.two_pow_pos 1)
      generalize roundHalfEven t (2 ^ 1) = r at hunits hup hdown heven
      obtain ⟨hlow, hhigh⟩ := units_seconds_close h pos hunits (by omega)
      obtain ⟨hlow, hhigh⟩ := scaled_of_close hlow hhigh
      omega
    · -- They are rounded to a multiple of four.
      have hunits := units_ofNat_large h (j := 2) (by omega) (by omega)
      obtain ⟨hup, hdown, -⟩ := roundHalfEven_spec t (Nat.two_pow_pos 2)
      generalize roundHalfEven t (2 ^ 2) = r at hunits hup hdown
      obtain ⟨hlow, hhigh⟩ := units_seconds_close h pos hunits (by omega)
      obtain ⟨hlow, hhigh⟩ := scaled_of_close hlow hhigh
      omega

/-- The seven places of the seconds are off by half a place and what two roundings to 53 binary digits
come to. -/
theorem scaled_seconds_bound (h : t < 2 ^ 63) :
    2 ^ 106 * (100 * (seconds t).scaled 7) ≤ 2 ^ 106 * 50 + (2 ^ 53 + 1) ^ 2 * t
      ∧ (2 ^ 53 - 1) ^ 2 * t ≤ 2 ^ 106 * (100 * (seconds t).scaled 7 + 50) := by
  obtain ⟨hup, hdown⟩ := units_ofNat_error h
  obtain ⟨hup', hdown'⟩ := units_seconds_error h
  obtain ⟨hup'', hdown''⟩ := scaled_spec 7 (seconds t)
  rw [Nat.add_mul] at hup''
  rw [Nat.mul_assoc] at hup'' hdown''
  constructor
  · refine Nat.le_of_mul_le_mul_right (c := unitsPerOne) ?_ unitsPerOne_pos
    calc 2 ^ 106 * (100 * (seconds t).scaled 7) * unitsPerOne
        = 2 ^ 106 * (100 * ((seconds t).scaled 7 * unitsPerOne)) := by ring
      _ ≤ 2 ^ 106 * (50 * unitsPerOne) + (2 ^ 53 + 1) ^ 2 * (t * unitsPerOne) := by omega
      _ = (2 ^ 106 * 50 + (2 ^ 53 + 1) ^ 2 * t) * unitsPerOne := by ring
  · refine Nat.le_of_mul_le_mul_right (c := unitsPerOne) ?_ unitsPerOne_pos
    calc (2 ^ 53 - 1) ^ 2 * t * unitsPerOne = (2 ^ 53 - 1) ^ 2 * (t * unitsPerOne) := by ring
      _ ≤ 2 ^ 106 * (100 * ((seconds t).scaled 7 * unitsPerOne) + 50 * unitsPerOne) := by omega
      _ = 2 ^ 106 * (100 * (seconds t).scaled 7 + 50) * unitsPerOne := by ring

end

/-! ## Written whole numbers -/

/-- A text that denotes a whole number is read as the value nearest to it. -/
theorem readFinite?_of_denotes {cs : List Char} {n : Nat} (h : DenotesUInt64 cs n)
    (small : n < 2 ^ 63) : readFinite? cs = some (ofNat n) := by
  obtain ⟨digits, hform, nonempty, hdigits, hvalue, -⟩ := h
  have hdecimal : ∀ c ∈ digits, isDecimalDigit c = true :=
    fun c hc => isDecimalDigit_of_isDigit (hdigits c hc)
  obtain ⟨d, rest, rfl⟩ := List.exists_cons_of_ne_nil nonempty
  have hd : isDecimalDigit d = true := hdecimal d List.mem_cons_self
  have hsign : splitSign cs = (false, d :: rest) := by
    rcases hform with rfl | rfl
    · exact splitSign_of_digit hd
    · rfl
  rw [readFinite?, read?_of_digit hsign hd, Decimal.readUnsigned?_of_digits false nonempty hdecimal,
    hvalue, Option.map_some, toBinary64_whole, ← ofNat, Option.filter_some,
    if_pos (isFinite_ofNat small)]

end Binary64

namespace Trace

/-! ## Lines with seconds -/

/-- A row that begins with a whole number of nanoseconds and a current. -/
def Timed (row : List (List Char)) (t : Nat) : Prop :=
  ∃ a b more current, row = a :: b :: more ∧ DenotesUInt64 (trimBlanks a) t ∧ t < 2 ^ 63
    ∧ Binary64.readFinite? (trimBlanks b) = some current

/-- A line that begins with a number of seconds, `n` of the seventh place. -/
def SecondsLine (n : Nat) (line : List Char) : Prop :=
  ∃ seconds amps negative m, line = seconds ++ ' ' :: amps ++ ['\n'] ∧ IsFixed 7 false n seconds
    ∧ IsFixed 12 negative m amps

/-- The line of a time in nanoseconds: the seconds are off by half of the seventh place and, from 2^25
seconds on, by what two roundings to 53 binary digits come to. -/
def TellsTime (t : Nat) (line : List Char) : Prop :=
  ∃ n, SecondsLine n line
    ∧ |(n : ℚ) / 10 ^ 7 - (t : ℚ) / 10 ^ 9|
      ≤ 5 / 10 ^ 8 + (t : ℚ) / 10 ^ 9 * (2 / 2 ^ 53 + 1 / 2 ^ 106)
    ∧ (t < 2 ^ 25 * 1000000000 → |(n : ℚ) / 10 ^ 7 - (t : ℚ) / 10 ^ 9| ≤ 5 / 10 ^ 8)

theorem Timed.reads {row : List (List Char)} {t : Nat} (h : Timed row t) :
    t < 2 ^ 63 ∧ ∃ s, Reads row s ∧ s.nanos = .ofNat t := by
  obtain ⟨a, b, more, current, rfl, hdenotes, small, hcurrent⟩ := h
  have hnanos := Binary64.readFinite?_of_denotes hdenotes small
  exact ⟨small, ⟨.ofNat t, current⟩, ⟨a, b, more, rfl, hnanos, hcurrent⟩, rfl⟩

theorem tellsTime_of_nanos {s : Sample} {t : Nat} (small : t < 2 ^ 63) (h : s.nanos = .ofNat t) :
    TellsTime t s.line := by
  have hseconds : s.seconds = Binary64.seconds t := by rw [Sample.seconds, h, Binary64.seconds]
  refine ⟨(Binary64.seconds t).scaled 7, ?_, ?_, fun early => ?_⟩
  · refine ⟨s.seconds.fixed 7, s.amps.fixed 12, _, _, rfl, ?_, isFixed_fixed (by decide) s.amps⟩
    have hfixed := isFixed_fixed (by decide : 0 < 7) (Binary64.seconds t)
    rw [Binary64.isNegative_seconds small] at hfixed
    rw [hseconds]
    exact hfixed
  · obtain ⟨hup, hdown⟩ := Binary64.scaled_seconds_bound small
    generalize (Binary64.seconds t).scaled 7 = n at hup hdown ⊢
    have hup : (2 ^ 106 * (100 * n) : ℚ) ≤ 2 ^ 106 * 50 + (2 ^ 53 + 1) ^ 2 * t := by exact_mod_cast hup
    have hdown : ((2 ^ 53 - 1) ^ 2 * t : ℚ) ≤ 2 ^ 106 * (100 * n + 50) := by
      have : (((2 ^ 53 - 1) ^ 2 * t : ℕ) : ℚ) ≤ ((2 ^ 106 * (100 * n + 50) : ℕ) : ℚ) :=
        Nat.cast_le.mpr hdown
      push_cast at this
      linarith
    have ht : (0 : ℚ) ≤ t := Nat.cast_nonneg t
    rw [abs_le]
    constructor <;> linarith
  · obtain ⟨hup, hdown⟩ := Binary64.scaled_seconds_early early
    generalize (Binary64.seconds t).scaled 7 = n at hup hdown ⊢
    have hup : (100 * n : ℚ) ≤ t + 50 := by exact_mod_cast hup
    have hdown : (t : ℚ) ≤ 100 * n + 50 := by exact_mod_cast hdown
    rw [abs_le]
    constructor <;> linarith

/-- Samples of rows with times make lines that tell them. -/
theorem tellsTime_samples {rows : List (List (List Char))} {times : List Nat} {samples : List Sample}
    (timed : List.Forall₂ Timed rows times) (reads : List.Forall₂ Reads rows samples) :
    List.Forall₂ TellsTime times (samples.map Sample.line) := by
  induction timed generalizing samples with
  | nil =>
      cases reads
      exact .nil
  | @cons row t rows times htimed _ ih =>
      cases reads with
      | @cons _ s _ samples hreads hrest =>
          obtain ⟨small, s', hreads', hnanos⟩ := htimed.reads
          obtain rfl := hreads.unique hreads'
          exact .cons (tellsTime_of_nanos small hnanos) (ih hrest)

/-- **Times in seconds.** If each row begins with a whole number of nanoseconds and a current, the
conversion succeeds, and each line tells the time of its row. -/
theorem times_told {text : String} {records : List Csv.Record}
    (sheet : Csv.Sheet (Csv.withoutMark text.toList) records) {times : List Nat}
    (timed : List.Forall₂ Timed (rowsIn records) times) :
    (convert (Utf8.encode text) false {}).1 = .ok times.length
      ∧ ∃ lines, (convert (Utf8.encode text) false {}).2.written = lines.flatten
        ∧ List.Forall₂ TellsTime times lines := by
  rcases convert_sheet sheet with ⟨samples, hall, hresult, hwritten⟩
    | ⟨good, line, bad, rest, samples, cause, hsplit, -, hbad, -, -⟩
  · have hlines := tellsTime_samples timed (forall₂_rowsIn.mpr hall)
    have hlength : times.length = samples.length := by simpa using hlines.length_eq
    exact ⟨hlength ▸ hresult, _, hwritten, hlines⟩
  · -- The row that is unfit has a time and a current.
    have hmem : bad.fields ∈ rowsIn records := by simp [rowsIn_eq 1, hsplit]
    have hall : ∀ row ∈ rowsIn records, ∃ s, Reads row s := by
      refine ((List.forall₂_and_left _ _).mp (timed.imp fun row t htimed => ⟨?_, htimed⟩)).1
      obtain ⟨-, s, hreads, -⟩ := htimed.reads
      exact ⟨s, hreads⟩
    exact (hbad.not_reads (hall _ hmem)).elim

/-- A header and one row, a number of digits and a current of half an ampere. -/
def oneRow (digits : List Char) : List Csv.Record :=
  [⟨[], ['t', ',', 'c'], [['t'], ['c']], ['\n']⟩,
    ⟨[], digits ++ [',', '5', '0', '0'], [digits, ['5', '0', '0']], ['\n']⟩]

section

variable (digits : List Char) (hdigits : ∀ c ∈ digits, c.isDigit = true)

include hdigits

theorem sheet_oneRow :
    Csv.Sheet ("t,c\n".toList ++ (digits ++ [',', '5', '0', '0'] ++ ['\n'])) (oneRow digits) := by
  have blank : Csv.LineEnds [] := by simp [Csv.LineEnds]
  have time : Csv.FieldText true ['t'] ['t'] := .bare (by simp [Csv.Plain]) (by simp)
  have current : Csv.FieldText true ['c'] ['c'] := .bare (by simp [Csv.Plain]) (by simp)
  have header : Csv.RecordText true ['t', ',', 'c'] [['t'], ['c']] := .more time (.one current)
  have nanos : Csv.FieldText true digits digits := by
    have hdigit : ∀ d, d.isDigit = false → ∀ c ∈ digits, c ≠ d := fun d hd c hc h => by
      rw [← h, hdigits c hc] at hd
      cases hd
    refine .bare (fun c hc => ⟨hdigit _ rfl c hc, hdigit _ rfl c hc, hdigit _ rfl c hc⟩) fun h => ?_
    exact hdigit '"' rfl '"' (List.mem_of_mem_head? h) rfl
  have milliamps : Csv.FieldText true ['5', '0', '0'] ['5', '0', '0'] :=
    .bare (by simp [Csv.Plain]) (by simp)
  have row := Csv.Sheet.next
    (r := ⟨[], digits ++ [',', '5', '0', '0'], [digits, ['5', '0', '0']], ['\n']⟩) blank (by simp)
    (.more nanos (.one milliamps)) (.inl rfl) (.finished blank)
  have sheet := Csv.Sheet.next (r := ⟨[], ['t', ',', 'c'], [['t'], ['c']], ['\n']⟩) blank (by simp)
    header (.inl rfl) row
  simpa [Csv.Record.whole, oneRow] using sheet

theorem timed_oneRow {t : Nat} (nonempty : digits ≠ []) (trimmed : trimBlanks digits = digits)
    (value : Nat.ofDigitChars 10 digits 0 = t) (small : t < 2 ^ 63) :
    List.Forall₂ Timed (rowsIn (oneRow digits)) [t] := by
  have current : DenotesUInt64 (trimBlanks ['5', '0', '0']) 500 :=
    ⟨['5', '0', '0'], .inl rfl, by simp, List.all_eq_true.mp (by decide), by decide, by decide⟩
  have denotes : DenotesUInt64 (trimBlanks digits) t := by
    rw [trimmed]
    exact ⟨digits, .inl rfl, nonempty, hdigits, value, small.trans (by decide)⟩
  have timed : Timed [digits, ['5', '0', '0']] t :=
    ⟨_, _, [], _, rfl, denotes, small, Binary64.readFinite?_of_denotes current (by decide)⟩
  exact .cons timed .nil

end

/-- A time shortly after the start of 1970. -/
theorem times_told_early :
    ∃ records, Csv.Sheet (Csv.withoutMark "t,c\n1500000100,500\n".toList) records
      ∧ List.Forall₂ Timed (rowsIn records) [1500000100]
      ∧ (convert (Utf8.encode "t,c\n1500000100,500\n") false {}).1 = .ok 1
      ∧ ∃ lines, (convert (Utf8.encode "t,c\n1500000100,500\n") false {}).2.written = lines.flatten
        ∧ List.Forall₂ TellsTime [1500000100] lines := by
  have hdigits : ∀ c ∈ "1500000100".toList, c.isDigit = true :=
    List.all_eq_true.mp (by decide)
  have sheet : Csv.Sheet (Csv.withoutMark "t,c\n1500000100,500\n".toList) _ :=
    sheet_oneRow _ hdigits
  have timed : List.Forall₂ Timed _ [1500000100] :=
    timed_oneRow _ hdigits (by decide) (by decide +kernel) (by decide +kernel) (by decide)
  exact ⟨_, sheet, timed, times_told sheet timed⟩

/-- A time of the year 2023 is told a ten-millionth of a second too early. -/
theorem late_time_off :
    ∃ records, Csv.Sheet (Csv.withoutMark "t,c\n1700000000000000100,500\n".toList) records
      ∧ List.Forall₂ Timed (rowsIn records) [1700000000000000100]
      ∧ (convert (Utf8.encode "t,c\n1700000000000000100,500\n") false {}).2.written
        = "1700000000.0000000".toList ++ ' ' :: "0.500000000000".toList ++ ['\n']
      ∧ IsFixed 7 false 17000000000000000 "1700000000.0000000".toList
      ∧ (5 : ℚ) / 10 ^ 8 < |(17000000000000000 : ℚ) / 10 ^ 7 - 1700000000000000100 / 10 ^ 9| := by
  have hdigits : ∀ c ∈ "1700000000000000100".toList, c.isDigit = true :=
    List.all_eq_true.mp (by decide)
  have sheet : Csv.Sheet (Csv.withoutMark "t,c\n1700000000000000100,500\n".toList) _ :=
    sheet_oneRow _ hdigits
  have timed : List.Forall₂ Timed _ [1700000000000000100] :=
    timed_oneRow _ hdigits (by decide) (by decide +kernel) (by decide +kernel) (by decide)
  refine ⟨_, sheet, timed, by decide +kernel, ?_, ?_⟩
  · exact ⟨"1700000000".toList, "0000000".toList, by decide, by decide, List.all_eq_true.mp (by decide),
      by decide, by decide +kernel⟩
  · rw [lt_abs]
    norm_num

end Trace

end PowerBench
