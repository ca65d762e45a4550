import PowerBench.Text.Blank

/-!
# Shell arithmetic

Whole-number expressions with the usual operators and their usual precedence. A name stands for the
number its variable holds; one that holds none counts as zero. Numbers have 64 bits and wrap.
-/

set_option autoImplicit false

namespace PowerBench.Child.Shell.Arithmetic

inductive Fault where
  | zeroDivision
  | noOperand
  | noClosing
  | leftover
deriving DecidableEq, Repr

/-- The wording of each cause, for an expression. -/
def Fault.message (source : List Char) (f : Fault) : String :=
  let what := match f with
    | .zeroDivision => "division by zero"
    | .noOperand => "expecting primary"
    | .noClosing => "expecting ')'"
    | .leftover => "expecting EOF"
  "arithmetic expression: " ++ what ++ ": \"" ++ String.ofList source ++ "\""

/-- The binary operators with their rank; a higher rank binds tighter. -/
def operators : List (List Char × Nat) :=
  [(['|', '|'], 1), (['&', '&'], 2), (['=', '='], 6), (['!', '='], 6), (['<', '='], 7),
    (['>', '='], 7), (['<', '<'], 8), (['>', '>'], 8), (['|'], 3), (['^'], 4), (['&'], 5), (['<'], 7),
    (['>'], 7), (['+'], 9), (['-'], 9), (['*'], 10), (['/'], 10), (['%'], 10)]

def skipBlanks (cs : List Char) : List Char := cs.dropWhile isBlank

def operator? (cs : List Char) : Option (List Char × Nat) :=
  operators.find? fun o => o.1.isPrefixOf cs

def ofBool (b : Bool) : Int := if b then 1 else 0

def wrapped (n : Int) : Int := Int.bmod n 18446744073709551616

/-- An operation on the 64 bits of two numbers. -/
def bitwise (f : UInt64 → UInt64 → UInt64) (a b : Int) : Int :=
  (f (UInt64.ofInt a) (UInt64.ofInt b)).toInt64.toInt

/-- The result of an operator; nothing can be divided by zero. -/
def combine (operator : List Char) (a b : Int) : Except Fault Int :=
  match String.ofList operator with
  | "||" => .ok (ofBool (a != 0 || b != 0))
  | "&&" => .ok (ofBool (a != 0 && b != 0))
  | "==" => .ok (ofBool (a == b))
  | "!=" => .ok (ofBool (a != b))
  | "<=" => .ok (ofBool (a ≤ b))
  | ">=" => .ok (ofBool (a ≥ b))
  | "<" => .ok (ofBool (a < b))
  | ">" => .ok (ofBool (a > b))
  | "<<" => .ok (wrapped (a * Int.ofNat (Nat.pow 2 (b.toNat % 64))))
  | ">>" => .ok (a / Int.ofNat (Nat.pow 2 (b.toNat % 64)))
  | "+" => .ok (wrapped (a + b))
  | "-" => .ok (wrapped (a - b))
  | "*" => .ok (wrapped (a * b))
  | "/" => if b = 0 then .error .zeroDivision else .ok (wrapped (a.tdiv b))
  | "%" => if b = 0 then .error .zeroDivision else .ok (a.tmod b)
  | "|" => .ok (bitwise (· ||| ·) a b)
  | "&" => .ok (bitwise (· &&& ·) a b)
  | "^" => .ok (bitwise (· ^^^ ·) a b)
  | _ => .error .leftover

/-- A number in digits: octal after a leading zero. -/
def number (ds : List Char) : Int :=
  let base := if ds.head? == some '0' then 8 else 10
  ds.foldl (fun n c => n * base + (c.toNat - 48 : Nat)) 0

def ofText (s : String) : Int :=
  match (skipBlanks s.toList) with
  | '-' :: cs => -number (cs.takeWhile Char.isDigit)
  | cs => number (cs.takeWhile Char.isDigit)

mutual

/-- A number, a name, an expression between parentheses, or one of these with a sign. -/
def operand (value : String → String) (fuel : Nat) (cs : List Char) :
    Except Fault (Int × List Char) :=
  match fuel with
  | 0 => .error .noOperand
  | fuel + 1 =>
    match skipBlanks cs with
    | '-' :: rest => (operand value fuel rest).map fun r => (wrapped (-r.1), r.2)
    | '+' :: rest => operand value fuel rest
    | '!' :: rest => (operand value fuel rest).map fun r => (ofBool (r.1 == 0), r.2)
    | '~' :: rest => (operand value fuel rest).map fun r => (-r.1 - 1, r.2)
    | '(' :: rest => do
      let (n, rest) ← expression value fuel 1 rest
      match skipBlanks rest with
      | ')' :: rest => .ok (n, rest)
      | _ => .error .noClosing
    | c :: rest =>
      if c.isDigit then
        let ds := (c :: rest).takeWhile Char.isDigit
        .ok (number ds, (c :: rest).drop ds.length)
      else if c.isAlpha || c == '_' then
        let name := (c :: rest).takeWhile fun c => c.isAlphanum || c == '_'
        .ok (ofText (value (String.ofList name)), (c :: rest).drop name.length)
      else .error .noOperand
    | [] => .error .noOperand

/-- An expression whose operators have at least some rank. -/
def expression (value : String → String) (fuel rank : Nat) (cs : List Char) :
    Except Fault (Int × List Char) :=
  match fuel with
  | 0 => .error .noOperand
  | fuel + 1 => do
    let (n, rest) ← operand value fuel cs
    joined value fuel rank n rest

/-- What follows the left side of an operator. -/
def joined (value : String → String) (fuel rank : Nat) (left : Int) (cs : List Char) :
    Except Fault (Int × List Char) :=
  match fuel with
  | 0 => .ok (left, cs)
  | fuel + 1 =>
    match operator? (skipBlanks cs) with
    | none => .ok (left, cs)
    | some (o, r) =>
      if r < rank then .ok (left, cs)
      else do
        let (right, rest) ← expression value fuel (r + 1) ((skipBlanks cs).drop o.length)
        joined value fuel rank (← combine o left right) rest

end

/-- The value of an expression; an empty one is zero. -/
def eval (value : String → String) (cs : List Char) : Except Fault Int :=
  if (skipBlanks cs).isEmpty then .ok 0
  else
    match expression value (4 * cs.length + 4) 1 cs with
    | .ok (n, rest) => if (skipBlanks rest).isEmpty then .ok n else .error .leftover
    | .error e => .error e

end PowerBench.Child.Shell.Arithmetic
