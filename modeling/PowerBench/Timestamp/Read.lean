import PowerBench.Binary64.Decimal
import PowerBench.Text.Blank
import PowerBench.Timestamp.Basic

/-!
# Reading timestamps

A timestamp text, blanks at its ends aside, is tried as an integer, as a finite number, as a date and
time with an offset, and as a date and time without one. The form with an offset has fixed widths.
The form without is looser: each number may have blanks before it and need not be padded, the year
may carry a sign and then any number of digits, and blanks (or none) or a `T` divide date and time.
-/

set_option autoImplicit false

namespace PowerBench.Timestamp

/-- A reader of the front of a text: what it found and the rest. -/
abbrev Reader (α : Type) := List Char → Option (α × List Char)

/-- The digits at the front of a text, at most `most` of them. -/
def leadingDigits (most : Nat) (cs : List Char) : List Char :=
  (cs.take most).takeWhile isDecimalDigit

/-- A number of `least` to `most` digits. -/
def number (least most : Nat) : Reader Nat := fun cs =>
  let ds := leadingDigits most cs
  if ds.length < least then none else some (digitsValue ds, cs.drop ds.length)

def literal (c : Char) : List Char → Option (List Char)
  | d :: cs => if d = c then some cs else none
  | [] => none

/-- A fraction of a second after its point, cut to nanoseconds. -/
def fraction : Reader Nat
  | '.' :: cs =>
    let ds := cs.takeWhile isDecimalDigit
    if ds.isEmpty then none
    else
      let nine := ds.take 9
      some (digitsValue nine * Nat.pow 10 (9 - nine.length), cs.drop ds.length)
  | cs => some (0, cs)

/-- A date and time of day, each field in its range; second 60 is a leap second. -/
def civil? (y : Int) (mo d h mi s frac : Nat) : Option CivilTime :=
  if !Calendar.isDate y mo d || 23 < h || 59 < mi || 60 < s then none
  else if s = 60 then some ⟨y, mo, d, h, mi, 59, frac + 1000000000⟩
  else some ⟨y, mo, d, h, mi, s, frac⟩

/-- A date and time of day as universal time. -/
def instant? (y : Int) (mo d h mi s frac : Nat) : Option Instant :=
  (civil? y mo d h mi s frac).map CivilTime.universal

/-- An offset from universal time in minutes: `Z`, or a sign, two digits, a colon and two digits
below 60, less than a day. -/
def offset : Reader Int
  | [] => none
  | c :: cs =>
    if c = 'Z' ∨ c = 'z' then some (0, cs)
    else if c = '+' ∨ c = '-' ∨ c = '\u2212' then do
      let (h, cs) ← number 2 2 cs
      let cs ← literal ':' cs
      let (m, cs) ← number 2 2 cs
      if 23 < h ∨ 59 < m then none
      else some ((if c = '+' then 1 else -1) * Int.ofNat (h * 60 + m), cs)
    else none

def readWithOffset? (cs : List Char) : Option Instant := do
  let (y, cs) ← number 4 4 cs
  let cs ← literal '-' cs
  let (mo, cs) ← number 2 2 cs
  let cs ← literal '-' cs
  let (d, cs) ← number 2 2 cs
  let cs ← match cs with
    | 'T' :: r => some r
    | 't' :: r => some r
    | ' ' :: r => some r
    | _ => none
  let (h, cs) ← number 2 2 cs
  let cs ← literal ':' cs
  let (mi, cs) ← number 2 2 cs
  let cs ← literal ':' cs
  let (s, cs) ← number 2 2 cs
  let (frac, cs) ← fraction cs
  let (minutes, cs) ← offset cs
  if cs ≠ [] then none
  else do
    let t ← instant? y mo d h mi s frac
    some ⟨t.secs - minutes * 60, t.nanos⟩

/-- A number with blanks before it, of one or two digits. -/
def looseNumber : Reader Nat := fun cs => number 1 2 (cs.dropWhile isBlank)

/-- A year with blanks before it: up to four digits, or a sign and any number of digits. -/
def looseYear : Reader Int := fun cs =>
  match cs.dropWhile isBlank with
  | '-' :: r => (number 1 r.length r).map fun (n, rest) => (-Int.ofNat n, rest)
  | '+' :: r => (number 1 r.length r).map fun (n, rest) => (Int.ofNat n, rest)
  | r => (number 1 4 r).map fun (n, rest) => (Int.ofNat n, rest)

/-- A date and time without offset, the two divided as `divider` says. -/
def readWithoutOffset? (divider : List Char → Option (List Char)) (cs : List Char) :
    Option Instant := do
  let (y, cs) ← looseYear cs
  let cs ← literal '-' cs
  let (mo, cs) ← looseNumber cs
  let cs ← literal '-' cs
  let (d, cs) ← looseNumber cs
  let cs ← divider cs
  let (h, cs) ← looseNumber cs
  let cs ← literal ':' cs
  let (mi, cs) ← looseNumber cs
  let cs ← literal ':' cs
  let (s, cs) ← looseNumber cs
  let (frac, cs) ← fraction cs
  if cs ≠ [] then none else instant? y mo d h mi s frac

/-- Blanks, or none, between date and time. -/
def blankDivider (cs : List Char) : Option (List Char) := some (cs.dropWhile isBlank)

def readInstant? (cs : List Char) : Option Instant :=
  (readWithOffset? cs).or
    ((readWithoutOffset? blankDivider cs).or (readWithoutOffset? (literal 'T') cs))

def read (s : String) : Except BadTimestamp Timestamp :=
  let cs := trimBlanks s.toList
  match readInt64 cs with
  | .ok n => .ok (.nanos n)
  | .error _ =>
    match Binary64.readFinite? cs with
    | some x => .ok (.fractional x)
    | none =>
      match readInstant? cs with
      | some t => .ok (.calendar t)
      | none => .error ⟨.string, s⟩

end PowerBench.Timestamp
