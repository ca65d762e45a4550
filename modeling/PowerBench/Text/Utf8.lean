/-!
# UTF-8

Byte strings are lists of octets. `Utf8.pieces` cuts a byte string into the characters it holds and
the broken stretches between them; a broken stretch is the longest start of a well-formed character
that the bytes allow, and never shorter than one byte. Strict reading (`decode?`) wants no broken
stretch, lossy reading (`lossy`) shows each one as U+FFFD.
-/

set_option autoImplicit false

namespace PowerBench

abbrev Bytes := List UInt8

namespace Utf8

/-- One piece of a byte string: a character, or a broken stretch (`none`), and how many bytes follow
its first byte. -/
structure Piece where
  char? : Option Char
  extra : Nat
deriving DecidableEq, Repr

def Piece.size (p : Piece) : Nat := p.extra + 1

def isTail (b : UInt8) : Bool := 0x80 ≤ b && b ≤ 0xBF

/-- The six payload bits of a continuation byte. -/
def tailBits (b : UInt8) : Nat := b.toNat % 0x40

/-- The bytes that may follow the first byte of a character: overlong forms, surrogates and values
above U+10FFFF are ruled out by the second byte. -/
def isSecond (first second : UInt8) : Bool :=
  if first == 0xE0 then 0xA0 ≤ second && second ≤ 0xBF
  else if first == 0xED then 0x80 ≤ second && second ≤ 0x9F
  else if first == 0xF0 then 0x90 ≤ second && second ≤ 0xBF
  else if first == 0xF4 then 0x80 ≤ second && second ≤ 0x8F
  else isTail second

def front (first : UInt8) (rest : Bytes) : Piece :=
  if first < 0x80 then ⟨some (Char.ofNat first.toNat), 0⟩
  else if 0xC2 ≤ first && first ≤ 0xDF then
    match rest with
    | b :: _ =>
      if isTail b then ⟨some (Char.ofNat (first.toNat % 0x20 * 0x40 + tailBits b)), 1⟩
      else ⟨none, 0⟩
    | [] => ⟨none, 0⟩
  else if 0xE0 ≤ first && first ≤ 0xEF then
    match rest with
    | b :: c :: _ =>
      if !isSecond first b then ⟨none, 0⟩
      else if !isTail c then ⟨none, 1⟩
      else ⟨some (Char.ofNat ((first.toNat % 0x10 * 0x40 + tailBits b) * 0x40 + tailBits c)), 2⟩
    | [b] => if isSecond first b then ⟨none, 1⟩ else ⟨none, 0⟩
    | [] => ⟨none, 0⟩
  else if 0xF0 ≤ first && first ≤ 0xF4 then
    match rest with
    | b :: c :: d :: _ =>
      if !isSecond first b then ⟨none, 0⟩
      else if !isTail c then ⟨none, 1⟩
      else if !isTail d then ⟨none, 2⟩
      else
        ⟨some (Char.ofNat
          (((first.toNat % 0x08 * 0x40 + tailBits b) * 0x40 + tailBits c) * 0x40 + tailBits d)), 3⟩
    | [b, c] =>
      if !isSecond first b then ⟨none, 0⟩ else if isTail c then ⟨none, 2⟩ else ⟨none, 1⟩
    | [b] => if isSecond first b then ⟨none, 1⟩ else ⟨none, 0⟩
    | [] => ⟨none, 0⟩
  else ⟨none, 0⟩

def pieces : Bytes → List Piece
  | [] => []
  | b :: rest => front b rest :: pieces (rest.drop (front b rest).extra)
termination_by bs => bs.length
decreasing_by simp only [List.length_drop, List.length_cons]; omega

/-- The text of a byte string, every broken stretch shown as U+FFFD. -/
def lossyChars (bs : Bytes) : List Char :=
  (pieces bs).map fun p => p.char?.getD '\uFFFD'

/-- The text of a byte string, every broken stretch shown as U+FFFD. -/
def lossy (bs : Bytes) : String := String.ofList (lossyChars bs)

/-- The characters of a byte string without broken stretches. -/
def decodeChars? (bs : Bytes) : Option (List Char) :=
  (pieces bs).mapM Piece.char?

/-- The text of a byte string without broken stretches. -/
def decode? (bs : Bytes) : Option String := (decodeChars? bs).map String.ofList

/-- How many bytes stand before the first broken stretch; the whole length if there is none. -/
def validUpTo (bs : Bytes) : Nat :=
  ((pieces bs).takeWhile fun p => p.char?.isSome).foldr (fun p n => p.size + n) 0

def encodeChar (c : Char) : Bytes :=
  let n := c.toNat
  if n < 0x80 then [UInt8.ofNat n]
  else if n < 0x800 then [UInt8.ofNat (0xC0 + n / 0x40), UInt8.ofNat (0x80 + n % 0x40)]
  else if n < 0x10000 then
    [UInt8.ofNat (0xE0 + n / 0x1000), UInt8.ofNat (0x80 + n / 0x40 % 0x40),
      UInt8.ofNat (0x80 + n % 0x40)]
  else
    [UInt8.ofNat (0xF0 + n / 0x40000), UInt8.ofNat (0x80 + n / 0x1000 % 0x40),
      UInt8.ofNat (0x80 + n / 0x40 % 0x40), UInt8.ofNat (0x80 + n % 0x40)]

def encodeChars (cs : List Char) : Bytes := cs.flatMap encodeChar

def encode (s : String) : Bytes := encodeChars s.toList

end Utf8

end PowerBench
