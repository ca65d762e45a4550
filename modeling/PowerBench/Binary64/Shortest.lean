import PowerBench.Binary64.Basic

/-!
# The shortest decimal that reads back

`Shortest.decimal` finds, among the decimals that round to a value, those with the fewest digits,
and of these the nearest to the value. Two layouts print it: `plain` never uses an exponent, and
`scientific` uses one outside the range that the two data formats write out in full.
-/

set_option autoImplicit false

namespace PowerBench.Binary64

/-- A decimal by its significant digits: `0.digits * 10^point`. -/
structure Shortest where
  digits : List Char
  point : Int
deriving DecidableEq, Repr

namespace Shortest

/-- The integer `k` with `10^(k-1) ≤ num/den < 10^k`, for a positive quotient. -/
def magnitude (num den : Nat) : Int :=
  if den ≤ num then (Nat.toDigits 10 (num / den)).length
  else
    let inverse := (den + num - 1) / num
    1 - Int.ofNat (Nat.toDigits 10 (inverse - 1)).length

/-- Whether the decimal `n * 10^e` rounds to the value with this code: it lies between the midpoints
to the two neighbours, which count as inside when the code is even. Lengths are in half units. -/
def readsBack (code n : Nat) (e : Int) : Bool :=
  let low := unitsOfCode (code - 1) + unitsOfCode code
  let high := unitsOfCode code + unitsOfCode (code + 1)
  let up := if 0 ≤ e then Nat.pow 10 e.toNat else 1
  let down := if 0 ≤ e then 1 else Nat.pow 10 (-e).toNat
  let point := 2 * n * unitsPerOne * up
  if code % 2 = 0 then low * down ≤ point && point ≤ high * down
  else low * down < point && point < high * down

/-- The decimals on the grid of `count` digits next to a value, those that read back, nearest
first. -/
def onGrid (code count : Nat) (k : Int) : Option (Nat × Int) :=
  let e := k - Int.ofNat count
  let num := unitsOfCode code * (if 0 ≤ e then 1 else Nat.pow 10 (-e).toNat)
  let den := unitsPerOne * (if 0 ≤ e then Nat.pow 10 e.toNat else 1)
  let floor := num / den
  let downOk := readsBack code floor e
  let upOk := readsBack code (floor + 1) e
  if downOk && (!upOk || 2 * (num % den) < den || (2 * (num % den) = den && floor % 2 = 0)) then
    some (floor, e)
  else if upOk then some (floor + 1, e)
  else none

/-- The first grid, from `count` digits on, with a decimal that reads back. -/
def search (code : Nat) (k : Int) : Nat → Nat → Nat × Int
  | 0, count => (unitsOfCode code, k - Int.ofNat count)
  | fuel + 1, count =>
    match onGrid code count k with
    | some found => found
    | none => search code k fuel (count + 1)

/-- The digits of a number without the zeros at its end, and how many of these there were. -/
def stripZeros (n : Nat) : List Char :=
  ((Nat.toDigits 10 n).reverse.dropWhile (· == '0')).reverse

/-- The shortest decimal of a nonzero finite magnitude. -/
def decimal (code : Nat) : Shortest :=
  let k := magnitude (unitsOfCode code) unitsPerOne
  let (n, e) := search code k 17 1
  ⟨stripZeros n, e + Int.ofNat (Nat.toDigits 10 n).length⟩

/-- Digits around the point, without exponent. -/
def positional (s : Shortest) (pointZero : Bool) : List Char :=
  let count : Int := s.digits.length
  if s.point ≤ 0 then '0' :: '.' :: List.replicate (-s.point).toNat '0' ++ s.digits
  else if count ≤ s.point then
    s.digits ++ List.replicate (s.point - count).toNat '0' ++ (if pointZero then ['.', '0'] else [])
  else s.digits.take s.point.toNat ++ '.' :: s.digits.drop s.point.toNat

/-- One digit before the point and an exponent, `plus` before one that is not negative. -/
def withExponent (s : Shortest) (plus : List Char) : List Char :=
  let e := s.point - 1
  let exponent := 'e' :: (if 0 ≤ e then plus else []) ++ (toString e).toList
  match s.digits with
  | [d] => d :: exponent
  | d :: ds => d :: '.' :: ds ++ exponent
  | [] => exponent

end Shortest

/-- A value in full, without exponent and without a needless point. -/
def plain (x : Binary64) : String :=
  if x.isNaN then "NaN"
  else
    let sign := if x.isNegative then ['-'] else []
    if x.isInfinite then String.ofList (sign ++ ['i', 'n', 'f'])
    else if x.code = 0 then String.ofList (sign ++ ['0'])
    else String.ofList (sign ++ (Shortest.decimal x.code).positional false)

/-- A finite value as the data formats write it: always with a point or an exponent, the exponent
from 10^16 on and below 10^-5. The formats differ in the sign of the exponent. -/
def scientific (plus : List Char) (x : Binary64) : String :=
  let sign := if x.isNegative then ['-'] else []
  if x.code = 0 then String.ofList (sign ++ ['0', '.', '0'])
  else
    let s := Shortest.decimal x.code
    let body := if -5 < s.point ∧ s.point ≤ 16 then s.positional true else s.withExponent plus
    String.ofList (sign ++ body)

end PowerBench.Binary64
