import PowerBench.Binary64.Basic
import PowerBench.Text.Numeral

/-!
# Fixed decimal places

A finite value with a stated number of places is its exact decimal expansion rounded to that many
places, a tie going to the even last digit. The sign is written whenever the sign bit is set, zero
included.
-/

set_option autoImplicit false

namespace PowerBench.Binary64

/-- A finite magnitude times ten to the `places`, rounded to an integer. -/
def scaled (places : Nat) (x : Binary64) : Nat :=
  roundHalfEven (x.units * Nat.pow 10 places) unitsPerOne

/-- A finite value with `places` digits after the point. -/
def fixed (places : Nat) (x : Binary64) : List Char :=
  let n := scaled places x
  (if x.isNegative then ['-'] else [])
    ++ Nat.toDigits 10 (n / Nat.pow 10 places) ++ '.' :: padDigits places (n % Nat.pow 10 places)

end PowerBench.Binary64
