/-!
# Blank characters

Two classes of blank are in use: the characters of the Unicode property White_Space, and the six
ASCII blanks that the comma-separated format trims. Trimming takes them off both ends.
-/

set_option autoImplicit false

namespace PowerBench

/-- The Unicode property White_Space. -/
def isBlank (c : Char) : Bool :=
  let n := c.toNat
  (9 ≤ n && n ≤ 13) || n == 0x20 || n == 0x85 || n == 0xA0 || n == 0x1680
    || (0x2000 ≤ n && n ≤ 0x200A) || n == 0x2028 || n == 0x2029 || n == 0x202F || n == 0x205F
    || n == 0x3000

/-- The blanks of ASCII: space, tab, line feed, form feed, carriage return. -/
def isAsciiBlank (b : UInt8) : Bool :=
  b == 0x20 || b == 0x09 || b == 0x0A || b == 0x0C || b == 0x0D

/-- A list without the elements of class `p` at its two ends. -/
def trimEnds {α : Type} (p : α → Bool) (xs : List α) : List α :=
  ((xs.dropWhile p).reverse.dropWhile p).reverse

/-- A list without the elements of class `p` at its end. -/
def trimRight {α : Type} (p : α → Bool) (xs : List α) : List α :=
  (xs.reverse.dropWhile p).reverse

/-- A text without blanks at its two ends. -/
def trimBlanks (cs : List Char) : List Char := trimEnds isBlank cs

def trimTextRight (s : String) : String := String.ofList (trimRight isBlank s.toList)

def allBlank (s : String) : Bool := s.toList.all isBlank

end PowerBench
