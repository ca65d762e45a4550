import PowerBench.Text.Numeral

/-!
# Calendar instants

Dates are proleptic Gregorian, counted in days from 1970-01-01. An `Instant` is a second of universal
time and the nanoseconds in it; a leap second is the 59th second of its minute with 10^9 nanoseconds
and more. Instants come from civil times, which are of no zone and are taken as universal time, and
from the clock, which tells how far after or before 1970-01-01 it is.
-/

set_option autoImplicit false

namespace PowerBench

namespace Calendar

def isLeapYear (y : Int) : Bool := y % 4 == 0 && (y % 100 != 0 || y % 400 == 0)

def daysInMonth (y : Int) (m : Nat) : Nat :=
  if m = 2 then if isLeapYear y then 29 else 28
  else if m = 4 ∨ m = 6 ∨ m = 9 ∨ m = 11 then 30
  else 31

def daysBeforeMonth (y : Int) : Nat → Nat
  | 0 => 0
  | 1 => 0
  | m + 1 => daysBeforeMonth y m + daysInMonth y m

/-- The days from the start of year 1 to the start of year `y`. -/
def daysBeforeYear (y : Int) : Int :=
  let p := y - 1
  365 * p + p / 4 - p / 100 + p / 400

def dayNumber (y : Int) (m d : Nat) : Int :=
  daysBeforeYear y + daysBeforeMonth y m + (Int.ofNat d - 1) - 719162

/-- A month, then a day of it, found by taking whole months off a day of the year. -/
def monthOfDay (y : Int) : Nat → Nat → Nat → Nat × Nat
  | 0, m, d => (m, d + 1)
  | fuel + 1, m, d =>
    if d < daysInMonth y m then (m, d + 1) else monthOfDay y fuel (m + 1) (d - daysInMonth y m)

/-- The date of a day number. The first guess for the year is at most one off. -/
def dateOfDay (day : Int) : Int × Nat × Nat :=
  let fromYearOne := day + 719162
  let guess := fromYearOne * 400 / 146097 + 1
  let y :=
    if fromYearOne < daysBeforeYear guess then guess - 1
    else if daysBeforeYear (guess + 1) ≤ fromYearOne then guess + 1
    else guess
  let (m, d) := monthOfDay y 12 1 (fromYearOne - daysBeforeYear y).toNat
  (y, m, d)

def yearInRange (y : Int) : Bool := -262143 ≤ y && y ≤ 262142

def isDate (y : Int) (m d : Nat) : Bool :=
  yearInRange y && 1 ≤ m && m ≤ 12 && 1 ≤ d && d ≤ daysInMonth y m

/-- A day number whose date exists. -/
def reaches (day : Int) : Bool :=
  dayNumber (-262143) 1 1 ≤ day && day ≤ dayNumber 262142 12 31

end Calendar

/-- A second of universal time since 1970-01-01 and the nanoseconds in it. -/
structure Instant where
  secs : Int
  nanos : Nat
deriving DecidableEq, Repr, Inhabited

namespace Instant

/-- The instant `d` nanoseconds after (or before) 1970-01-01. -/
def ofNanos (n : Int) : Instant := ⟨n / 1000000000, (n % 1000000000).toNat⟩

def toNanos (t : Instant) : Int := t.secs * 1000000000 + t.nanos

/-- The nanoseconds since 1970-01-01 in arithmetic of 64 bits: first the seconds are scaled, then the
nanoseconds are added, and neither result may leave the range. Before 1970 one of the seconds goes with
the nanoseconds, since the scaled seconds may lie below the range where the sum does not. -/
def nanos64? (t : Instant) : Option Int := do
  let (s, n) : Int × Int :=
    if t.secs < 0 then (t.secs + 1, t.nanos - 1000000000) else (t.secs, t.nanos)
  let scaled ← within64? (s * 1000000000)
  within64? (scaled + n)

/-- A year with four digits, or with a sign and at least five places when it has more. -/
def yearText (y : Int) : List Char :=
  if 0 ≤ y ∧ y ≤ 9999 then padDigits 4 y.toNat
  else (if y < 0 then '-' else '+') :: padDigits 4 y.natAbs

/-- The shortest of 0, 3, 6 and 9 places that shows the nanoseconds in full. -/
def fractionText (n : Nat) : List Char :=
  if n = 0 then []
  else if n % 1000000 = 0 then '.' :: padDigits 3 (n / 1000000)
  else if n % 1000 = 0 then '.' :: padDigits 6 (n / 1000)
  else '.' :: padDigits 9 n

/-- An instant as date, time and the offset `+00:00`. A leap second is the 60th. -/
def text (t : Instant) : String :=
  let (y, m, d) := Calendar.dateOfDay (t.secs / 86400)
  let s := (t.secs % 86400).toNat
  let leap := t.nanos / 1000000000
  String.ofList <|
    yearText y ++ '-' :: padDigits 2 m ++ '-' :: padDigits 2 d
      ++ 'T' :: padDigits 2 (s / 3600) ++ ':' :: padDigits 2 (s / 60 % 60)
      ++ ':' :: padDigits 2 (s % 60 + leap) ++ fractionText (t.nanos % 1000000000)
      ++ ['+', '0', '0', ':', '0', '0']

end Instant

/-- A date and a time of day of no zone. A leap second is second 59 with 10^9 nanoseconds and more. -/
structure CivilTime where
  year : Int
  month : Nat
  day : Nat
  hour : Nat
  minute : Nat
  second : Nat
  nanos : Nat
deriving DecidableEq, Repr

def CivilTime.universal (c : CivilTime) : Instant :=
  let minute := Calendar.dayNumber c.year c.month c.day * 1440 + c.hour * 60 + c.minute
  ⟨minute * 60 + c.second, c.nanos⟩

/-- A reading of the clock: so many seconds and nanoseconds after, or before, 1970-01-01. -/
structure ClockReading where
  before : Bool
  secs : Nat
  nanos : Nat
deriving DecidableEq, Repr

/-- The instant of a reading, if the calendar reaches as far. Before 1970 the nanoseconds are taken off
a second that is borrowed. -/
def Instant.ofClock? (c : ClockReading) : Option Instant :=
  let t : Instant :=
    if c.before then
      if c.nanos = 0 then ⟨-Int.ofNat c.secs, 0⟩
      else ⟨-Int.ofNat c.secs - 1, 1000000000 - c.nanos⟩
    else ⟨c.secs, c.nanos⟩
  if Calendar.reaches (t.secs / 86400) then some t else none

end PowerBench
