/-!
# Binary floating point, 64 bits

A `Binary64` is its 64 bits. Below the sign bit the bits are a `code`, and codes are ordered as the
magnitudes they stand for: a finite magnitude is a whole number of `units` of 2^-1074, so exact
arithmetic on values is arithmetic on natural numbers. Rounding a quotient to the nearest value
(`ofRatio`) picks a code, ties going to the even one; a carry out of the fraction moves to the next
exponent by itself, and out of the last exponent to infinity.
-/

set_option autoImplicit false

namespace PowerBench

/-- A binary floating-point number of 64 bits, as its bit pattern. -/
structure Binary64 where
  bits : UInt64
deriving DecidableEq, Repr, Inhabited

namespace Binary64

def isNegative (x : Binary64) : Bool := Nat.pow 2 63 ≤ x.bits.toNat

def code (x : Binary64) : Nat := x.bits.toNat % Nat.pow 2 63

def infinityCode : Nat := 0x7FF * Nat.pow 2 52

def ofCode (negative : Bool) (code : Nat) : Binary64 :=
  ⟨UInt64.ofNat ((if negative then Nat.pow 2 63 else 0) + code)⟩

def infinity (negative : Bool) : Binary64 := ofCode negative infinityCode

def nan : Binary64 := ofCode false (infinityCode + Nat.pow 2 51)

def isNaN (x : Binary64) : Bool := infinityCode < x.code

def isInfinite (x : Binary64) : Bool := x.code == infinityCode

def isFinite (x : Binary64) : Bool := x.code < infinityCode

/-- The magnitude that a code stands for, in units of 2^-1074. The code of infinity counts as the
value that would come next. -/
def unitsOfCode (code : Nat) : Nat :=
  let exponent := code / Nat.pow 2 52
  let fraction := code % Nat.pow 2 52
  if exponent = 0 then fraction else (Nat.pow 2 52 + fraction) * Nat.pow 2 (exponent - 1)

/-- The magnitude of a finite value, in units of 2^-1074. -/
def units (x : Binary64) : Nat := unitsOfCode x.code

def unitsPerOne : Nat := Nat.pow 2 1074

/-- A quotient rounded to the nearest integer, a tie to the even one. -/
def roundHalfEven (num den : Nat) : Nat :=
  let q := num / den
  let r := num % den
  if 2 * r < den then q
  else if den < 2 * r then q + 1
  else if q % 2 = 0 then q else q + 1

/-- A quotient rounded to the nearest integer, a tie upwards. -/
def roundHalfUp (num den : Nat) : Nat := (2 * num + den) / (2 * den)

/-- The code nearest to `num / den` units. -/
def nearestCode (num den : Nat) : Nat :=
  let q := num / den
  if q < Nat.pow 2 53 then roundHalfEven num den
  else
    let shift := q.log2 - 52
    shift * Nat.pow 2 52 + roundHalfEven num (den * Nat.pow 2 shift)

/-- The value nearest to the quotient `num / den` with a sign. -/
def ofRatio (negative : Bool) (num den : Nat) : Binary64 :=
  ofCode negative (min (nearestCode (num * unitsPerOne) den) infinityCode)

/-- A finite value divided by a positive integer that is itself such a value. -/
def divNat (x : Binary64) (d : Nat) : Binary64 :=
  ofRatio x.isNegative x.units (unitsPerOne * d)

def ofNat (n : Nat) : Binary64 := ofRatio false n 1

def ofInt (n : Int) : Binary64 := ofRatio (n < 0) n.natAbs 1

/-- The integer nearest to a finite value, halves away from zero. -/
def roundToInt (x : Binary64) : Int :=
  let n : Int := roundHalfUp x.units unitsPerOne
  if x.isNegative then -n else n

/-- Numeric equality: the two zeros are equal and a not-a-number equals nothing. -/
def numEq (x y : Binary64) : Bool :=
  !x.isNaN && !y.isNaN && (x.bits == y.bits || (x.code == 0 && y.code == 0))

end Binary64

end PowerBench
