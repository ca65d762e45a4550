import PowerBench.Binary64.Basic
import PowerBench.Text.Numeral

/-!
# Reading decimal numbers as binary floating point

A number text is an optional sign and then `inf`, `infinity` or `nan` in any case, or digits with an
optional point and an optional exponent, at least one digit standing before the exponent. The value
is the one nearest to the exact decimal.
-/

set_option autoImplicit false

namespace PowerBench

/-- A decimal number: a sign, an integer and the power of ten it is multiplied by. -/
structure Decimal where
  negative : Bool
  digits : Nat
  exponent : Int
deriving DecidableEq, Repr

namespace Decimal

/-- The binary value nearest to a decimal. Decimals that are far out of range are settled by their
number of digits. -/
def toBinary64 (d : Decimal) : Binary64 :=
  let places : Int := (Nat.toDigits 10 d.digits).length
  if d.digits = 0 then .ofCode d.negative 0
  else if 400 < places + d.exponent then .infinity d.negative
  else if places + d.exponent < -400 then .ofCode d.negative 0
  else if 0 ≤ d.exponent then .ofRatio d.negative (d.digits * Nat.pow 10 d.exponent.toNat) 1
  else .ofRatio d.negative d.digits (Nat.pow 10 (-d.exponent).toNat)

/-- The exponent part of a number text: nothing, or the letter, an optional sign and digits. -/
def readExponent? : List Char → Option Int
  | [] => some 0
  | c :: cs =>
    if c ≠ 'e' ∧ c ≠ 'E' then none
    else
      let (negative, ds) := match cs with
        | '-' :: r => (true, r)
        | '+' :: r => (false, r)
        | r => (false, r)
      if ds.isEmpty || !ds.all isDecimalDigit then none
      else some (if negative then -Int.ofNat (digitsValue ds) else Int.ofNat (digitsValue ds))

/-- Digits with an optional point and an optional exponent, without sign. -/
def readUnsigned? (negative : Bool) (cs : List Char) : Option Decimal :=
  let whole := cs.takeWhile isDecimalDigit
  let rest := cs.dropWhile isDecimalDigit
  let (fraction, rest) := match rest with
    | '.' :: r => (r.takeWhile isDecimalDigit, r.dropWhile isDecimalDigit)
    | r => ([], r)
  if whole.isEmpty && fraction.isEmpty then none
  else (readExponent? rest).map fun e =>
    ⟨negative, digitsValue (whole ++ fraction), e - Int.ofNat fraction.length⟩

end Decimal

/-- A sign at the front of a text, and what follows it. -/
def splitSign : List Char → Bool × List Char
  | '-' :: cs => (true, cs)
  | '+' :: cs => (false, cs)
  | cs => (false, cs)

namespace Binary64

def read? (cs : List Char) : Option Binary64 :=
  let (negative, body) := splitSign cs
  let word := String.ofList (body.map Char.toLower)
  if word = "inf" ∨ word = "infinity" then some (infinity negative)
  else if word = "nan" then some (ofCode negative nan.code)
  else (Decimal.readUnsigned? negative body).map Decimal.toBinary64

def readFinite? (cs : List Char) : Option Binary64 :=
  (read? cs).filter isFinite

end Binary64

end PowerBench
