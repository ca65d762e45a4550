import PowerBench.Text.Numeral

/-!
# Durations

A duration is a whole number of nanoseconds. Its text uses the largest of the units second,
millisecond, microsecond and nanosecond that it reaches, with as many decimal places as it needs.
-/

set_option autoImplicit false

namespace PowerBench

/-- A length of time in nanoseconds. -/
structure Duration where
  nanos : Nat
deriving DecidableEq, Repr, Inhabited

namespace Duration

def ofSecs (n : Nat) : Duration := ⟨n * 1000000000⟩

def ofMillis (n : Nat) : Duration := ⟨n * 1000000⟩

def secs (d : Duration) : Nat := d.nanos / 1000000000

def millis (d : Duration) : Nat := d.nanos / 1000000

def shorter (a b : Duration) : Duration := ⟨min a.nanos b.nanos⟩

/-- What is left of a duration after another one; nothing is left after a longer one. -/
def minus? (a b : Duration) : Option Duration :=
  if b.nanos ≤ a.nanos then some ⟨a.nanos - b.nanos⟩ else none

/-- `n` nanoseconds in a unit of `10^places` nanoseconds, without needless zeros. -/
def inUnit (places n : Nat) : List Char :=
  let fraction := trimZeros (padDigits places (n % Nat.pow 10 places))
  Nat.toDigits 10 (n / Nat.pow 10 places) ++ (if fraction.isEmpty then [] else '.' :: fraction)
where
  /-- Digits without the zeros at their end. -/
  trimZeros (cs : List Char) : List Char := (cs.reverse.dropWhile (· == '0')).reverse

/-- A duration as people read it: `1.5s`, `10ms`, `999.999µs`, `0ns`. -/
def text (d : Duration) : String :=
  String.ofList <|
    if 1000000000 ≤ d.nanos then inUnit 9 d.nanos ++ ['s']
    else if 1000000 ≤ d.nanos then inUnit 6 d.nanos ++ ['m', 's']
    else if 1000 ≤ d.nanos then inUnit 3 d.nanos ++ ['µ', 's']
    else inUnit 0 d.nanos ++ ['n', 's']

end Duration

end PowerBench
