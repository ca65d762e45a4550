import PowerBench.Binary64.Shortest
import PowerBench.Entries

/-!
# JSON values

A dynamic value with integers and fractional numbers kept apart. The entries of an object stand in
the order in which they are written. `Json.pretty` writes a value with two blanks per level, `Json.compact` on one
line.
-/

set_option autoImplicit false

namespace PowerBench

inductive Json where
  | null
  | bool (b : Bool)
  | int (n : Int)
  | float (x : Binary64)
  | string (s : String)
  | array (items : List Json)
  | object (entries : List (String × Json))
deriving Repr, Inhabited

namespace Json

mutual

/-- Equality of values: numbers of one kind by their value, so that the two zeros are equal, and
everything else part by part. -/
def same : Json → Json → Bool
  | .null, .null => true
  | .bool a, .bool b => a == b
  | .int a, .int b => a == b
  | .float a, .float b => a.numEq b
  | .string a, .string b => a == b
  | .array a, .array b => sameItems a b
  | .object a, .object b => sameEntries a b
  | _, _ => false

/-- Equality of the items of two arrays. -/
def sameItems : List Json → List Json → Bool
  | [], [] => true
  | a :: as, b :: bs => same a b && sameItems as bs
  | _, _ => false

/-- Equality of the entries of two objects. -/
def sameEntries : List (String × Json) → List (String × Json) → Bool
  | [], [] => true
  | (k, a) :: as, (l, b) :: bs => k == l && same a b && sameEntries as bs
  | _, _ => false

end

/-- One character of a string: the quote, the backslash and the control characters are escaped. -/
def escapeChar (c : Char) : List Char :=
  if c = '"' then ['\\', '"']
  else if c = '\\' then ['\\', '\\']
  else if c = '\x08' then ['\\', 'b']
  else if c = '\x0c' then ['\\', 'f']
  else if c = '\n' then ['\\', 'n']
  else if c = '\r' then ['\\', 'r']
  else if c = '\t' then ['\\', 't']
  else if c.toNat < 0x20 then
    ['\\', 'u', '0', '0'] ++ Nat.toDigits 16 (c.toNat / 16) ++ Nat.toDigits 16 (c.toNat % 16)
  else [c]

def quote (s : String) : String :=
  String.ofList ('"' :: s.toList.flatMap escapeChar ++ ['"'])

/-- The line break and the blanks before an item at a level. -/
def newline (level : Nat) : String :=
  String.ofList ('\n' :: List.replicate (2 * level) ' ')

/-- A fractional number; one that is not finite has no text and is shown as null. -/
def floatText (x : Binary64) : String := if x.isFinite then x.scientific ['+'] else "null"

mutual

def prettyAt (level : Nat) : Json → String
  | .null => "null"
  | .bool b => if b then "true" else "false"
  | .int n => toString n
  | .float x => floatText x
  | .string s => quote s
  | .array [] => "[]"
  | .array (x :: xs) => "[" ++ prettyItems level "" (x :: xs) ++ newline level ++ "]"
  | .object [] => "\x7b\x7d"
  | .object (e :: es) => "\x7b" ++ prettyEntries level "" (e :: es) ++ newline level ++ "\x7d"

/-- The items of an array, the first after `comma`. -/
def prettyItems (level : Nat) (comma : String) : List Json → String
  | [] => ""
  | x :: xs =>
    comma ++ newline (level + 1) ++ prettyAt (level + 1) x ++ prettyItems level "," xs

/-- The entries of an object, the first after `comma`. -/
def prettyEntries (level : Nat) (comma : String) : List (String × Json) → String
  | [] => ""
  | (k, x) :: es =>
    comma ++ newline (level + 1) ++ quote k ++ ": " ++ prettyAt (level + 1) x
      ++ prettyEntries level "," es

end

/-- A value with two blanks per level, without a line break at its end. -/
def pretty (v : Json) : String := prettyAt 0 v

mutual

/-- A value on one line, without blanks. -/
def compact : Json → String
  | .null => "null"
  | .bool b => if b then "true" else "false"
  | .int n => toString n
  | .float x => floatText x
  | .string s => quote s
  | .array items => "[" ++ compactItems "" items ++ "]"
  | .object entries => "\x7b" ++ compactEntries "" entries ++ "\x7d"

/-- The items of an array, the first after `comma`. -/
def compactItems (comma : String) : List Json → String
  | [] => ""
  | x :: xs => comma ++ compact x ++ compactItems "," xs

/-- The entries of an object, the first after `comma`. -/
def compactEntries (comma : String) : List (String × Json) → String
  | [] => ""
  | (k, x) :: es => comma ++ quote k ++ ":" ++ compact x ++ compactEntries "," es

end

end Json

end PowerBench
