import PowerBench.Binary64.Basic

/-!
# Whole values and integers of 64 bits

A value is rounded to a whole value, halves away from zero. The conversion to an integer of 64 bits
never fails: it cuts off a fraction, an end of the range stands for what lies beyond it, and a
not-a-number becomes zero. Who wants the exact integer compares with the ends of the range first, and
that comparison is one of values.
-/

set_option autoImplicit false

namespace PowerBench.Binary64

/-- The nearest whole value, halves away from zero. What is not finite stays as it is. -/
def round (x : Binary64) : Binary64 :=
  if x.isFinite then ofRatio x.isNegative x.roundToInt.natAbs 1 else x

def signedUnits (x : Binary64) : Int :=
  if x.isNegative then -Int.ofNat x.units else Int.ofNat x.units

/-- Numeric order. A not-a-number is neither below nor above anything. -/
def lt (x y : Binary64) : Bool := !x.isNaN && !y.isNaN && x.signedUnits < y.signedUnits

def le (x y : Binary64) : Bool := !x.isNaN && !y.isNaN && x.signedUnits ≤ y.signedUnits

def minInt64 : Int := -Int.ofNat (Nat.pow 2 63)

def maxInt64 : Int := Int.ofNat (Nat.pow 2 63 - 1)

/-- A value as an integer of 64 bits, without its fraction and held within the range. -/
def toInt64 (x : Binary64) : Int :=
  if x.isNaN then 0 else max minInt64 (min maxInt64 (x.signedUnits.tdiv unitsPerOne))

end PowerBench.Binary64
