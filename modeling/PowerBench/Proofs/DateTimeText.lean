import PowerBench.Proofs.CalendarTime
import PowerBench.Proofs.DecimalText
import PowerBench.Proofs.TimestampText

set_option autoImplicit false

/-! # Dates and times as texts

A date and a time of day are written in decimal digits (`CivilText`), with a blank or a `T` between them
and no zone, or as RFC 3339 with the zone `Z` or an offset (`ZoneText`). Each of the spellings passes the
readers that are tried before its own: none is a number, one without zone is no text with an offset, and
one with a `T` does not begin a time of day with a digit. All of them come to one instant, up to the
offset (`date_time_text`).
-/

namespace PowerBench

/-- A number in decimal digits, so many of them. -/
structure Digits (width : Nat) where
  text : List Char
  length_text : text.length = width
  isDigit_text : ∀ c ∈ text, c.isDigit = true

/-- The number that the digits denote. -/
def Digits.value {width : Nat} (n : Digits width) : Nat := Nat.ofDigitChars 10 n.text 0

/-- A date that exists and a time of day, in digits. Second 60 is a leap second; without places there is
no fraction and no point before it. -/
structure CivilText where
  year : Digits 4
  month : Digits 2
  day : Digits 2
  hour : Digits 2
  minute : Digits 2
  second : Digits 2
  places : Nat
  fraction : Digits places
  month_pos : 1 ≤ month.value
  month_le : month.value ≤ 12
  day_pos : 1 ≤ day.value
  day_le : day.value ≤ Calendar.daysInMonth year.value month.value
  hour_le : hour.value ≤ 23
  minute_le : minute.value ≤ 59
  second_le : second.value ≤ 60

/-- An offset from universal time in digits, east or west. -/
structure ZoneText where
  east : Bool
  hour : Digits 2
  minute : Digits 2
  hour_le : hour.value ≤ 23
  minute_le : minute.value ≤ 59

namespace CivilText

variable (t : CivilText)

def date : List Char := t.year.text ++ '-' :: (t.month.text ++ '-' :: t.day.text)

/-- The point and the places behind it. -/
def fractionText : List Char := if t.places = 0 then [] else '.' :: t.fraction.text

def time : List Char :=
  t.hour.text ++ ':' :: (t.minute.text ++ ':' :: (t.second.text ++ t.fractionText))

def nanos : Nat := t.fraction.value * 10 ^ 9 / 10 ^ t.places

/-- The nanoseconds since 1970-01-01 on a given day in a zone with an offset in seconds. -/
def nanosSince1970 (day offset : Int) : Int :=
  (day * 86400 + t.hour.value * 3600 + t.minute.value * 60 + t.second.value - offset) * 10 ^ 9 + t.nanos

/-- The fields as a civil time, with the leap second where it is kept. -/
def civil : CivilTime :=
  ⟨t.year.value, t.month.value, t.day.value, t.hour.value, t.minute.value,
    if t.second.value = 60 then 59 else t.second.value,
    if t.second.value = 60 then t.nanos + 10 ^ 9 else t.nanos⟩

end CivilText

namespace ZoneText

variable (z : ZoneText)

def text : List Char := (if z.east then '+' else '-') :: (z.hour.text ++ ':' :: z.minute.text)

def minutes : Int :=
  if z.east then z.hour.value * 60 + z.minute.value else -(z.hour.value * 60 + z.minute.value)

end ZoneText

/-! ## Digits -/

namespace Digits

variable {width : Nat} (n : Digits width)

theorem isDecimalDigit_text : ∀ c ∈ n.text, isDecimalDigit c = true :=
  fun c hc => isDecimalDigit_of_isDigit (n.isDigit_text c hc)

theorem value_eq : digitsValue n.text = n.value := digitsValue_eq n.text

theorem value_lt : n.value < 10 ^ width := by
  calc n.value = digitsValue n.text := n.value_eq.symm
    _ < 10 ^ n.text.length := digitsValue_lt n.isDecimalDigit_text
    _ = 10 ^ width := by rw [n.length_text]

theorem text_ne_nil (h : width ≠ 0) : n.text ≠ [] := by
  rw [← List.length_pos_iff, n.length_text]
  omega

theorem exists_head (h : width ≠ 0) : ∃ c cs, n.text = c :: cs ∧ c.isDigit = true := by
  obtain ⟨c, cs, hcs⟩ := List.exists_cons_of_ne_nil (n.text_ne_nil h)
  exact ⟨c, cs, hcs, n.isDigit_text c (hcs ▸ List.mem_cons_self)⟩

end Digits

/-! ## Fields -/

namespace CivilText

variable (t : CivilText)

theorem isDate_fields : Calendar.isDate t.year.value t.month.value t.day.value = true := by
  have hyear := t.year.value_lt
  have hmonth := t.month_pos
  have hmonth' := t.month_le
  have hday := t.day_pos
  have hday' := t.day_le
  simp only [Calendar.isDate, Calendar.yearInRange, Bool.and_eq_true, decide_eq_true_eq]
  omega

theorem nanos_lt : t.nanos < 10 ^ 9 := by
  rw [nanos, Nat.div_lt_iff_lt_mul (Nat.pow_pos (by decide)), Nat.mul_comm]
  exact Nat.mul_lt_mul_of_pos_left t.fraction.value_lt (Nat.pow_pos (by decide))

/-- A leap second is the 59th of its minute with 10^9 nanoseconds more. -/
theorem civil_cases :
    (t.second.value = 60 ∧ t.civil = ⟨t.year.value, t.month.value, t.day.value, t.hour.value,
        t.minute.value, 59, t.nanos + 10 ^ 9⟩)
      ∨ (t.second.value < 60 ∧ t.civil = ⟨t.year.value, t.month.value, t.day.value, t.hour.value,
        t.minute.value, t.second.value, t.nanos⟩) := by
  have hsecond := t.second_le
  unfold civil
  by_cases hleap : t.second.value = 60
  · rw [if_pos hleap, if_pos hleap]
    exact .inl ⟨hleap, rfl⟩
  · rw [if_neg hleap, if_neg hleap]
    exact .inr ⟨by omega, rfl⟩

theorem civil_proper : t.civil.IsProper := by
  have hnanos := t.nanos_lt
  have hhour := Nat.lt_succ_of_le t.hour_le
  have hminute := Nat.lt_succ_of_le t.minute_le
  rcases t.civil_cases with ⟨-, hcivil⟩ | ⟨hsecond, hcivil⟩
  · rw [hcivil]
    exact ⟨t.month_pos, t.month_le, t.day_pos, t.day_le, hhour, hminute, Nat.lt_succ_self 59,
      by dsimp only; omega, fun _ => rfl⟩
  · rw [hcivil]
    exact ⟨t.month_pos, t.month_le, t.day_pos, t.day_le, hhour, hminute, hsecond,
      by dsimp only; omega, fun hleap => absurd hleap (Nat.not_le_of_lt hnanos)⟩

theorem toNanos_text (offset : Int) :
    (t.civil.universal.earlier offset).toNanos
      = t.nanosSince1970 (Calendar.dayNumber t.year.value t.month.value t.day.value) offset := by
  rw [Instant.toNanos_earlier, CivilTime.toNanos_universal, nanosSince1970]
  rcases t.civil_cases with ⟨hsecond, hcivil⟩ | ⟨-, hcivil⟩
  · rw [hcivil, hsecond]
    push_cast
    ring
  · rw [hcivil]
    ring

end CivilText

/-! ## Ends -/

/-- The text is not empty and no blank ends it. -/
def NoBlankEnd (cs : List Char) : Prop := ∃ front c, cs = front ++ [c] ∧ isBlank c = false

theorem NoBlankEnd.append {cs : List Char} (h : NoBlankEnd cs) (front : List Char) :
    NoBlankEnd (front ++ cs) := by
  obtain ⟨inner, c, rfl, hc⟩ := h
  exact ⟨front ++ inner, c, (List.append_assoc _ _ _).symm, hc⟩

theorem NoBlankEnd.cons {cs : List Char} (h : NoBlankEnd cs) (c : Char) : NoBlankEnd (c :: cs) :=
  h.append [c]

theorem Digits.noBlankEnd {width : Nat} (n : Digits width) (h : width ≠ 0) : NoBlankEnd n.text := by
  have hne := n.text_ne_nil h
  refine ⟨n.text.dropLast, n.text.getLast hne, (List.dropLast_append_getLast hne).symm, ?_⟩
  exact isBlank_of_isDigit (n.isDigit_text _ (List.getLast_mem hne))

theorem CivilText.noBlankEnd (t : CivilText) : NoBlankEnd t.time := by
  have hend : NoBlankEnd (t.second.text ++ t.fractionText) := by
    unfold fractionText
    by_cases h : t.places = 0
    · rw [if_pos h, List.append_nil]
      exact t.second.noBlankEnd (by decide)
    · rw [if_neg h]
      exact ((t.fraction.noBlankEnd h).cons _).append _
  exact (((hend.cons _).append _).cons _).append _

theorem ZoneText.noBlankEnd (z : ZoneText) : NoBlankEnd z.text :=
  (((z.minute.noBlankEnd (by decide)).cons _).append _).cons _

namespace Timestamp

section

variable (rest : List Char)

theorem number_digits {width least : Nat} (n : Digits width) (h : least ≤ width) :
    number least width (n.text ++ rest) = some (n.value, rest) := by
  have hleading : leadingDigits width (n.text ++ rest) = n.text := by
    rw [leadingDigits, List.take_left' n.length_text]
    exact List.takeWhile_eq_self_iff.mpr n.isDecimalDigit_text
  unfold number
  dsimp only
  rw [hleading, n.length_text, if_neg (by omega), List.drop_left' n.length_text, n.value_eq]

/-- No blank stands before digits. -/
theorem dropWhile_digits {width : Nat} (n : Digits width) (h : width ≠ 0) :
    (n.text ++ rest).dropWhile isBlank = n.text ++ rest := by
  obtain ⟨c, cs, hcs, hdigit⟩ := n.exists_head h
  rw [hcs, List.cons_append]
  exact List.dropWhile_cons_of_neg (by simp [isBlank_of_isDigit hdigit])

theorem looseNumber_digits (n : Digits 2) : looseNumber (n.text ++ rest) = some (n.value, rest) := by
  rw [looseNumber, dropWhile_digits rest n (by decide), number_digits rest n (by decide)]

theorem looseYear_digits (n : Digits 4) :
    looseYear (n.text ++ rest) = some (Int.ofNat n.value, rest) := by
  obtain ⟨c, cs, hcs, hdigit⟩ := n.exists_head (by decide)
  have hyear := looseYear_of_digit (cs ++ rest) hdigit
  rw [← List.cons_append, ← hcs, number_digits rest n (by decide)] at hyear
  exact hyear

theorem literal_cons (c : Char) : literal c (c :: rest) = some rest := if_pos rfl

end

/-- A fraction is read as its nanoseconds. -/
theorem fraction_text (t : CivilText) (rest : List Char)
    (stop : ∀ c ∈ rest.head?, isDecimalDigit c = false ∧ c ≠ '.') :
    fraction (t.fractionText ++ rest) = some (t.nanos, rest) := by
  unfold CivilText.fractionText CivilText.nanos
  by_cases hplaces : t.places = 0
  · have hlength : t.fraction.text.length = 0 := t.fraction.length_text.trans hplaces
    rw [if_pos hplaces, List.nil_append, Digits.value, List.eq_nil_of_length_eq_zero hlength, fraction]
    · simp
    · rintro ds rfl
      exact (stop '.' rfl).2 rfl
  · -- The reader takes nine places and fills up fewer; both are the quotient.
    have hdigits := t.fraction.isDecimalDigit_text
    have hfront := takeWhile_front hdigits fun c hc => (stop c hc).1
    rw [if_neg hplaces, List.cons_append, fraction]
    dsimp only
    rw [hfront.1, if_neg (by simpa using t.fraction.text_ne_nil hplaces), List.drop_left, Nat.pow_eq,
      digitsValue_places hdigits, t.fraction.length_text, t.fraction.value_eq]

theorem offset_text (z : ZoneText) : offset z.text = some (z.minutes, []) := by
  have hrange : ¬(23 < z.hour.value ∨ 59 < z.minute.value) := by
    have := z.hour_le
    have := z.minute_le
    omega
  have hminute := number_digits [] z.minute (le_refl 2)
  rw [List.append_nil] at hminute
  unfold ZoneText.text ZoneText.minutes offset
  cases z.east with
  | true => simp [number_digits _ z.hour (le_refl 2), literal_cons, hminute, hrange]
  | false => simp [number_digits _ z.hour (le_refl 2), literal_cons, hminute, hrange]

/-! ## The readers -/

variable (t : CivilText)

theorem instant?_text : instant? t.year.value t.month.value t.day.value t.hour.value t.minute.value
    t.second.value t.nanos = some t.civil.universal := by
  have hhour := t.hour_le
  have hminute := t.minute_le
  have hsecond := t.second_le
  have hfields : ¬(!Calendar.isDate t.year.value t.month.value t.day.value || 23 < t.hour.value
      || 59 < t.minute.value || 60 < t.second.value) = true := by
    rw [t.isDate_fields]
    simp
    omega
  rw [instant?, civil?, if_neg hfields]
  rcases t.civil_cases with ⟨hleap, hcivil⟩ | ⟨hleap, hcivil⟩
  · rw [if_pos hleap, hcivil]
    rfl
  · rw [if_neg hleap.ne, hcivil]
    rfl

/-- Behind a date stands the time of day. -/
theorem readWithOffset?_date {divider : Char} (hdivider : divider ∈ ['T', 't', ' '])
    (rest : List Char) :
    readWithOffset? (t.date ++ divider :: rest)
      = clockWithOffset? t.year.value t.month.value t.day.value rest := by
  rw [readWithOffset?, CivilText.date]
  simp only [List.append_assoc, List.cons_append]
  -- Field by field: simplifying all at once would run into the branches for the divider.
  rw [number_digits _ t.year le_rfl, Option.bind_eq_bind, Option.bind_some]
  dsimp only
  rw [literal_cons, Option.bind_eq_bind, Option.bind_some, number_digits _ t.month le_rfl,
    Option.bind_some]
  dsimp only
  rw [literal_cons, Option.bind_some, number_digits _ t.day le_rfl, Option.bind_some]
  simp only [List.mem_cons, List.not_mem_nil, or_false] at hdivider
  rcases hdivider with rfl | rfl | rfl
  · rfl
  · rfl
  · rfl

theorem clockWithOffset?_time (zone : List Char)
    (stop : ∀ c ∈ zone.head?, isDecimalDigit c = false ∧ c ≠ '.') :
    clockWithOffset? t.year.value t.month.value t.day.value (t.time ++ zone)
      = (offset zone).bind fun p => if p.2 ≠ [] then none
          else some ⟨t.civil.universal.secs - p.1 * 60, t.civil.universal.nanos⟩ := by
  rw [clockWithOffset?, CivilText.time]
  simp only [List.append_assoc, List.cons_append, number_digits _ _ le_rfl, literal_cons,
    fraction_text t zone stop, instant?_text, Option.bind_eq_bind, Option.bind_some]

/-- What a text without offset gives from its time of day on, behind a date. -/
def looseClock? (y : Int) (mo d : Nat) (cs : List Char) : Option Instant := do
  let (h, cs) ← looseNumber cs
  let cs ← literal ':' cs
  let (mi, cs) ← looseNumber cs
  let cs ← literal ':' cs
  let (s, cs) ← looseNumber cs
  let (frac, cs) ← fraction cs
  if cs ≠ [] then none else instant? y mo d h mi s frac

theorem readWithoutOffset?_date (divider : List Char → Option (List Char)) (rest : List Char) :
    readWithoutOffset? divider (t.date ++ rest)
      = (divider rest).bind (looseClock? t.year.value t.month.value t.day.value) := by
  rw [readWithoutOffset?, CivilText.date]
  simp only [List.append_assoc, List.cons_append]
  -- Field by field, as above: the reader of a field stands in front of all that follow.
  rw [looseYear_digits, Option.bind_eq_bind, Option.bind_some]
  dsimp only
  rw [literal_cons, Option.bind_eq_bind, Option.bind_some, looseNumber_digits, Option.bind_eq_bind,
    Option.bind_some]
  dsimp only
  rw [literal_cons, Option.bind_some, looseNumber_digits, Option.bind_some]
  rfl

theorem looseClock?_time : looseClock? t.year.value t.month.value t.day.value t.time
    = some t.civil.universal := by
  have hfraction := fraction_text t [] nofun
  rw [List.append_nil] at hfraction
  rw [looseClock?, CivilText.time]
  simp only [looseNumber_digits, literal_cons, hfraction, Option.bind_eq_bind, Option.bind_some]
  exact instant?_text t

theorem readWithoutOffset?_text {divider : List Char → Option (List Char)} {rest : List Char}
    (divided : divider rest = some t.time) :
    readWithoutOffset? divider (t.date ++ rest) = some t.civil.universal := by
  rw [readWithoutOffset?_date, divided, Option.bind_some, looseClock?_time]

theorem readWithoutOffset?_letter {rest : List Char} :
    readWithoutOffset? blankDivider (t.date ++ 'T' :: rest) = none := by
  rw [readWithoutOffset?_date]
  rfl

/-! ## The cascade -/

/-- A text that begins with a date is no integer: its first sign stands behind a digit. -/
theorem not_integer_of_date (rest : List Char) (n : Int) : readInt64 (t.date ++ rest) ≠ .ok n := by
  intro hread
  obtain ⟨ds, -, hall, hds⟩ := digits_of_readInteger hread
  have hdash : '-' ∉ ds := fun hmem => absurd (hall _ hmem) (by decide)
  obtain ⟨c, year, hyear, hdigit⟩ := t.year.exists_head (by decide)
  rw [CivilText.date, hyear, List.cons_append, List.cons_append] at hds
  rcases hds with rfl | hplus | hminus
  · simp at hdash
  · obtain ⟨-, rfl⟩ := List.cons.inj hplus
    simp at hdash
  · obtain ⟨rfl, -⟩ := List.cons.inj hminus
    cases hdigit

/-- Nor is it a fractional number: behind the digits of the year stands neither a point nor an
exponent. -/
theorem not_number_of_date (rest : List Char) : Binary64.readFinite? (t.date ++ rest) = none := by
  have hdash : ∀ behind, Binary64.readFinite? (t.year.text ++ '-' :: behind) = none := by
    intro behind
    have hdigits := t.year.isDecimalDigit_text
    have hstop : ∀ c ∈ ('-' :: behind).head?, isDecimalDigit c = false := by simp [isDecimalDigit]
    obtain ⟨htake, hdrop⟩ := takeWhile_front hdigits hstop
    have hunsigned : Decimal.readUnsigned? false (t.year.text ++ '-' :: behind) = none := by
      unfold Decimal.readUnsigned?
      rw [htake, hdrop]
      simp [t.year.text_ne_nil (by decide), Decimal.readExponent?]
    obtain ⟨c, year, hyear, hdigit⟩ := t.year.exists_head (by decide)
    have hdecimal := isDecimalDigit_of_isDigit hdigit
    rw [hyear, List.cons_append] at hunsigned ⊢
    rw [Binary64.readFinite?, Binary64.read?_of_digit (splitSign_of_digit hdecimal) hdecimal, hunsigned]
    rfl
  rw [CivilText.date, List.append_assoc]
  exact hdash _

/-- So it is the instant that it is read as, if no blank ends it. -/
theorem read_of_date {rest : List Char} {instant : Instant}
    (found : readInstant? (t.date ++ rest) = some instant) (closed : NoBlankEnd rest) :
    read (String.ofList (t.date ++ rest)) = .ok (.calendar instant) := by
  obtain ⟨c, year, hyear, hdigit⟩ := t.year.exists_head (by decide)
  have htrim : trimBlanks (t.date ++ rest) = t.date ++ rest := by
    apply trimEnds_of_ends
    · rw [CivilText.date, hyear]
      simp [isBlank_of_isDigit hdigit]
    · obtain ⟨front, d, rfl, hd⟩ := closed
      rw [← List.append_assoc]
      simp [hd]
  unfold read
  rw [String.toList_ofList, htrim]
  dsimp only
  rw [not_number_of_date, found]
  cases hread : readInt64 (t.date ++ rest) with
  | ok n => exact absurd hread (not_integer_of_date t rest n)
  | error e => rfl

/-- With a zone the reader of offsets finds the instant. -/
theorem read_zone {divider : Char} (hdivider : divider ∈ ['T', 't', ' ']) {zone : List Char}
    {minutes : Int} (hzone : offset zone = some (minutes, []))
    (stop : ∀ c ∈ zone.head?, isDecimalDigit c = false ∧ c ≠ '.') (closed : NoBlankEnd zone) :
    read (String.ofList (t.date ++ divider :: (t.time ++ zone)))
      = .ok (.calendar (t.civil.universal.earlier (minutes * 60))) := by
  apply read_of_date t _ ((closed.append _).cons _)
  rw [readInstant?, readWithOffset?_date t hdivider, clockWithOffset?_time t zone stop, hzone]
  rfl

/-- Without one it finds none, and the divider decides between the others. -/
theorem read_without_zone {divider : Char} (hdivider : divider ∈ ['T', ' ']) :
    read (String.ofList (t.date ++ divider :: t.time)) = .ok (.calendar t.civil.universal) := by
  apply read_of_date t _ (t.noBlankEnd.cons _)
  have hoffset : readWithOffset? (t.date ++ divider :: t.time) = none := by
    have hall : divider ∈ ['T', 't', ' '] := by
      simp only [List.mem_cons, List.not_mem_nil, or_false] at hdivider ⊢
      exact hdivider.imp_right .inr
    have hclock := clockWithOffset?_time t [] nofun
    rw [List.append_nil] at hclock
    rw [readWithOffset?_date t hall, hclock]
    rfl
  rw [readInstant?, hoffset, Option.none_or]
  simp only [List.mem_cons, List.not_mem_nil, or_false] at hdivider
  rcases hdivider with rfl | rfl
  · -- The form with blanks finds the letter where the hour should begin.
    rw [readWithoutOffset?_letter, Option.none_or]
    exact readWithoutOffset?_text t (literal_cons _ _)
  · have hblank : blankDivider (' ' :: t.time) = some t.time := by
      rw [blankDivider, List.dropWhile_cons_of_pos rfl, CivilText.time,
        dropWhile_digits _ _ (by decide)]
    rw [readWithoutOffset?_text t hblank]
    rfl

/-! ## Times -/

/-- **Date and time texts.** The spellings of a date and a time of day are read as one instant, shifted
by the offset if there is one, and its time is counted from the fields, the fraction cut to
nanoseconds. -/
theorem date_time_text (t : CivilText) :
    ∃ (day : Int) (instant : Instant),
      Calendar.DaysSince1970 t.year.value t.month.value t.day.value day
      ∧ read (String.ofList (t.date ++ ' ' :: t.time)) = .ok (.calendar instant)
      ∧ read (String.ofList (t.date ++ 'T' :: t.time)) = .ok (.calendar instant)
      ∧ (∀ divider ∈ ['T', 't', ' '], ∀ zulu ∈ ['Z', 'z'],
          read (String.ofList (t.date ++ divider :: (t.time ++ [zulu]))) = .ok (.calendar instant))
      ∧ normalize (.calendar instant) = timeOrRefusal (t.nanosSince1970 day 0) instant.text
      ∧ ∀ divider ∈ ['T', 't', ' '], ∀ zone : ZoneText,
          read (String.ofList (t.date ++ divider :: (t.time ++ zone.text)))
              = .ok (.calendar (instant.earlier (zone.minutes * 60)))
            ∧ normalize (.calendar (instant.earlier (zone.minutes * 60)))
              = timeOrRefusal (t.nanosSince1970 day (zone.minutes * 60))
                  (instant.earlier (zone.minutes * 60)).text := by
  have htime : ∀ minutes, normalize (.calendar (t.civil.universal.earlier (minutes * 60)))
      = timeOrRefusal
          (t.nanosSince1970 (Calendar.dayNumber t.year.value t.month.value t.day.value) (minutes * 60))
          (t.civil.universal.earlier (minutes * 60)).text := by
    intro minutes
    rw [normalize_calendar ((CivilTime.universal_proper (t.civil_proper)).earlier minutes),
      t.toNanos_text]
  have hunshifted : t.civil.universal.earlier (0 * 60) = t.civil.universal := by
    simp [Instant.earlier]
  refine ⟨_, t.civil.universal, CivilTime.daysSince1970 (t.civil_proper),
    read_without_zone t (by decide), read_without_zone t (by decide), ?_, ?_, ?_⟩
  · intro divider hdivider zulu hzulu
    have hzone : offset [zulu] = some (0, []) ∧ isDecimalDigit zulu = false ∧ zulu ≠ '.'
        ∧ isBlank zulu = false := by
      simp only [List.mem_cons, List.not_mem_nil, or_false] at hzulu
      rcases hzulu with rfl | rfl <;> decide
    obtain ⟨hoffset, hdigit, hpoint, hblank⟩ := hzone
    rw [← hunshifted]
    exact read_zone t hdivider hoffset (by simp [hdigit, hpoint]) ⟨[], zulu, rfl, hblank⟩
  · have huniversal := htime 0
    rw [hunshifted] at huniversal
    exact huniversal
  · intro divider hdivider zone
    refine ⟨read_zone t hdivider (offset_text zone) ?_ zone.noBlankEnd, htime zone.minutes⟩
    unfold ZoneText.text
    cases zone.east with
    | true => simp [isDecimalDigit]
    | false => simp [isDecimalDigit]

/-- A leap second in a zone where the new year has begun already. -/
def leapText : CivilText where
  year := ⟨['2', '0', '1', '7'], rfl, List.all_eq_true.mp rfl⟩
  month := ⟨['0', '1'], rfl, List.all_eq_true.mp rfl⟩
  day := ⟨['0', '1'], rfl, List.all_eq_true.mp rfl⟩
  hour := ⟨['0', '0'], rfl, List.all_eq_true.mp rfl⟩
  minute := ⟨['5', '9'], rfl, List.all_eq_true.mp rfl⟩
  second := ⟨['6', '0'], rfl, List.all_eq_true.mp rfl⟩
  places := 2
  fraction := ⟨['2', '5'], rfl, List.all_eq_true.mp rfl⟩
  month_pos := by decide
  month_le := by decide
  day_pos := by decide
  day_le := by decide
  hour_le := by decide
  minute_le := by decide
  second_le := by decide

theorem date_time_text_leap_second :
    ∃ instant : Instant,
      read "2017-01-01 00:59:60.25" = .ok (.calendar instant)
      ∧ read "2017-01-01t00:59:60.25+01:00" = .ok (.calendar (instant.earlier 3600))
      ∧ normalize (.calendar (instant.earlier 3600)) = .ok 1483228800250000000 := by
  obtain ⟨day, instant, hday, hblank, -, -, -, hoffset⟩ := date_time_text leapText
  obtain ⟨hread, htime⟩ := hoffset 't' (by decide)
    ⟨true, ⟨['0', '1'], rfl, List.all_eq_true.mp rfl⟩, ⟨['0', '0'], rfl, List.all_eq_true.mp rfl⟩,
      by decide, by decide⟩
  refine ⟨instant, hblank, hread, ?_⟩
  rw [Calendar.eq_dayNumber hday] at htime
  exact htime

end Timestamp

end PowerBench
