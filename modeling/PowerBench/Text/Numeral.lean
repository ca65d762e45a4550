/-!
# Decimal integers

An integer text is an optional sign and decimal digits, nothing else. The digits are read from the
left, and reading stops at the first one that is no digit or that leaves the allowed range, so of
two faults the leftmost is reported. A minus sign is a sign only where negative numbers are allowed.
-/

set_option autoImplicit false

namespace PowerBench

/-- Why a text is not an integer of the wanted range. -/
inductive NumeralError where
  | empty
  | invalidDigit
  | tooLarge
  | tooSmall
deriving DecidableEq, Repr

def NumeralError.message : NumeralError → String
  | .empty => "cannot parse integer from empty string"
  | .invalidDigit => "invalid digit found in string"
  | .tooLarge => "number too large to fit in target type"
  | .tooSmall => "number too small to fit in target type"

def isDecimalDigit (c : Char) : Bool := 48 ≤ c.toNat && c.toNat ≤ 57

def digitValue (c : Char) : Nat := c.toNat - 48

/-- The number that a row of decimal digits denotes. -/
def digitsValue (cs : List Char) : Nat := cs.foldl (fun n c => n * 10 + digitValue c) 0

/-- Digits read from the left on top of `acc`, the value kept at most `limit`. -/
def accumulateDigits (limit : Nat) (overflow : NumeralError) : Nat → List Char →
    Except NumeralError Nat
  | acc, [] => .ok acc
  | acc, c :: cs =>
    if !isDecimalDigit c then .error .invalidDigit
    else if limit < acc * 10 + digitValue c then .error overflow
    else accumulateDigits limit overflow (acc * 10 + digitValue c) cs

/-- The integer between `-below` and `above` that a text denotes. A range without negative numbers
(`below = 0`) has no minus sign. -/
def readInteger (below above : Nat) : List Char → Except NumeralError Int
  | [] => .error .empty
  | '+' :: cs =>
    if cs.isEmpty then .error .invalidDigit
    else (accumulateDigits above .tooLarge 0 cs).map Int.ofNat
  | '-' :: cs =>
    if cs.isEmpty || below == 0 then .error .invalidDigit
    else (accumulateDigits below .tooSmall 0 cs).map fun n => -Int.ofNat n
  | cs => (accumulateDigits above .tooLarge 0 cs).map Int.ofNat

def fitsSigned (bits : Nat) (n : Int) : Bool :=
  -Int.ofNat (Nat.pow 2 (bits - 1)) ≤ n && n < Int.ofNat (Nat.pow 2 (bits - 1))

def fitsUnsigned (bits : Nat) (n : Int) : Bool := 0 ≤ n && n < Int.ofNat (Nat.pow 2 bits)

/-- An integer that stays within a signed 64-bit word. -/
def within64? (n : Int) : Option Int := if fitsSigned 64 n then some n else none

def readInt64 (cs : List Char) : Except NumeralError Int :=
  readInteger (Nat.pow 2 63) (Nat.pow 2 63 - 1) cs

def readUInt64 (cs : List Char) : Except NumeralError Nat :=
  (readInteger 0 (Nat.pow 2 64 - 1) cs).map Int.toNat

/-- A number with at least `width` digits, zeros in front. -/
def padDigits (width : Nat) (n : Nat) : List Char :=
  let ds := Nat.toDigits 10 n
  List.replicate (width - ds.length) '0' ++ ds

end PowerBench
