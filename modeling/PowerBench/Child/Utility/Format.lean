import PowerBench.Child.Utility.Escape
import PowerBench.Text.Blank

/-!
# Formatted printing

`printf`: a format is cut into pieces and used again and again until no argument is left. A numeric
conversion reads as much of its argument as is a number, and tells what is wrong with the rest.
-/

set_option autoImplicit false

namespace PowerBench.Child.Utility

/-- A conversion of a format: flags, least width, precision, letter. -/
structure Conversion where
  flags : List Char
  width : Nat
  precision? : Option Nat
  letter : Char
deriving DecidableEq, Repr

inductive FormatPiece where
  | bytes (bs : Bytes)
  | conversion (c : Conversion)
  | stop
deriving DecidableEq, Repr

/-- A conversion after its percent sign, and what follows it. -/
def conversion? (cs : List Char) : Option (Conversion × List Char) :=
  let isFlag (c : Char) : Bool := c == '-' || c == '0' || c == '+' || c == ' ' || c == '#'
  let flags := cs.takeWhile isFlag
  let cs := cs.dropWhile isFlag
  let width := numberOf (cs.takeWhile Char.isDigit)
  let cs := cs.dropWhile Char.isDigit
  let (precision?, cs) := match cs with
    | '.' :: rest => (some (numberOf (rest.takeWhile Char.isDigit)), rest.dropWhile Char.isDigit)
    | cs => (none, cs)
  match cs with
  | [] => none
  | letter :: rest => some (⟨flags, width, precision?, letter⟩, rest)

def formatPieces (rule : EscapeRule) : Nat → List Char → List FormatPiece
  | 0, _ => []
  | _, [] => []
  | fuel + 1, '\\' :: cs =>
    match escape rule cs with
    | (none, _) => [.stop]
    | (some bytes, n) => .bytes bytes :: formatPieces rule fuel (cs.drop n)
  | fuel + 1, '%' :: '%' :: cs => .bytes [37] :: formatPieces rule fuel cs
  | fuel + 1, '%' :: cs =>
    match conversion? cs with
    | some (c, rest) => .conversion c :: formatPieces rule fuel rest
    | none => [.bytes [37]]
  | fuel + 1, c :: cs => .bytes (Utf8.encodeChar c) :: formatPieces rule fuel cs

/-! ## Numbers -/

/-- What is wrong with the text of a number. -/
inductive NumberFault where
  | missing
  | incomplete
  | outOfRange
deriving DecidableEq, Repr

def digitsOf (base : Nat) (cs : List Char) : List Char :=
  cs.takeWhile fun c => (hexDigit? c).any (· < base)

/-- An unsigned whole number at the front: hexadecimal after `0x`, octal after `0`, else decimal. -/
def leadingNumber? (cs : List Char) : Option (Nat × List Char) :=
  let inBase (base : Nat) (cs : List Char) : Option (Nat × List Char) :=
    let ds := digitsOf base cs
    if ds.isEmpty then none
    else some (ds.foldl (fun n c => n * base + (hexDigit? c).getD 0) 0, cs.drop ds.length)
  match cs with
  | '0' :: x :: rest =>
    if x == 'x' || x == 'X' then (inBase 16 rest).or (some (0, x :: rest)) else inBase 8 cs
  | cs => inBase 10 cs

/-- The least and the greatest number of 64 bits. -/
def clamp (n : Int) : Int := max (-9223372036854775808) (min 9223372036854775807 n)

/-- The number of an argument, and what is wrong with it; the first character after a quote counts by
its code. -/
def argumentNumber (a : String) : Int × Option NumberFault :=
  match a.toList with
  | '"' :: c :: _ => (c.toNat, none)
  | '\'' :: c :: _ => (c.toNat, none)
  | cs =>
    let cs := cs.dropWhile isBlank
    let (negative, cs) := match cs with
      | '-' :: rest => (true, rest)
      | '+' :: rest => (false, rest)
      | cs => (false, cs)
    match leadingNumber? cs with
    | none => (0, some .missing)
    | some (n, rest) =>
      let value : Int := if negative then -n else n
      (clamp value,
        if !rest.isEmpty then some .incomplete
        else if clamp value != value then some .outOfRange
        else none)

/-- A number in a base, with at least as many digits as the precision asks for. -/
def digits (base : Nat) (c : Conversion) (n : Nat) : List Char :=
  let ds := Nat.toDigits base n
  List.replicate ((c.precision?.getD 1) - ds.length) '0' ++ ds

/-! ## Conversions -/

/-- What comes of a format: bytes, and complaints about arguments between them. -/
inductive Printed where
  | bytes (bs : Bytes)
  | fault (argument : String) (cause : NumberFault)
deriving DecidableEq, Repr

/-- A sign and a body in a field of some width; zeros go between the two. -/
def padded (c : Conversion) (sign body : Bytes) : Bytes :=
  let room := c.width - (sign.length + body.length)
  if c.flags.contains '-' then sign ++ body ++ List.replicate room 32
  else if c.flags.contains '0' && c.letter != 's' && c.letter != 'b' && c.letter != 'c' then
    sign ++ List.replicate room 48 ++ body
  else List.replicate room 32 ++ sign ++ body

def signOf (c : Conversion) (n : Int) : Bytes :=
  if n < 0 then [45]
  else if c.flags.contains '+' then [43]
  else if c.flags.contains ' ' then [32]
  else []

/-- One conversion of one argument, if there is one left, and whether output ends with it. -/
def convertArgument (rule : EscapeRule) (c : Conversion) (argument? : Option String) :
    List Printed × Bool :=
  let a := argument?.getD ""
  let cut (bs : Bytes) : Bytes := match c.precision? with
    | some n => bs.take n
    | none => bs
  let numeric (f : Int → Bytes) : List Printed × Bool :=
    let (n, fault?) := if argument?.isNone then (0, none) else argumentNumber a
    (fault?.toList.map (.fault a) ++ [.bytes (f n)], false)
  let unsigned (base : Nat) (n : Int) : List Char :=
    digits base c (n.emod 18446744073709551616).toNat
  match c.letter with
  | 'b' =>
    let (bs, stops) := unescape { rule with leadingZero := true } (a.length + 1) a.toList
    ([.bytes (padded c [] (cut bs))], stops)
  | 'c' => ([.bytes (padded c [] ((Utf8.encode a).take 1))], false)
  | 'd' | 'i' => numeric fun n =>
    padded c (signOf c n) (Utf8.encodeChars (digits 10 c n.natAbs))
  | 'u' => numeric fun n => padded c [] (Utf8.encodeChars (unsigned 10 n))
  | 'o' => numeric fun n => padded c [] (Utf8.encodeChars (unsigned 8 n))
  | 'x' => numeric fun n => padded c [] (Utf8.encodeChars (unsigned 16 n))
  | 'X' => numeric fun n => padded c [] (Utf8.encodeChars ((unsigned 16 n).map Char.toUpper))
  | _ => ([.bytes (padded c [] (cut (Utf8.encode a)))], false)

/-- A format used once: what it prints, the arguments left, and whether output ends. -/
def formatOnce (rule : EscapeRule) : List FormatPiece → List String →
    List Printed × List String × Bool
  | [], args => ([], args, false)
  | .stop :: _, args => ([], args, true)
  | .bytes bs :: rest, args =>
    let (out, args, stops) := formatOnce rule rest args
    (.bytes bs :: out, args, stops)
  | .conversion c :: rest, args =>
    let (printed, stops) := convertArgument rule c args.head?
    if stops then (printed, args.drop 1, true)
    else
      let (out, args, stops) := formatOnce rule rest (args.drop 1)
      (printed ++ out, args, stops)

/-- A format used until no argument is left or none is taken; the first argument that is never
used. -/
def formatAll (rule : EscapeRule) (pieces : List FormatPiece) : Nat → List String →
    List Printed × Option String
  | 0, _ => ([], none)
  | fuel + 1, args =>
    let (out, left, stops) := formatOnce rule pieces args
    if stops || left.isEmpty then (out, none)
    else if left.length == args.length then (out, left.head?)
    else
      let (more, unused?) := formatAll rule pieces fuel left
      (out ++ more, unused?)

def formatted (rule : EscapeRule) (format : String) (args : List String) :
    List Printed × Option String :=
  formatAll rule (formatPieces rule (format.length + 1) format.toList) (args.length + 1) args

/-! ## The program -/

def NumberFault.message (argument : String) : NumberFault → String
  | .missing => "'" ++ argument ++ "': expected a numeric value"
  | .incomplete => "'" ++ argument ++ "': value not completely converted"
  | .outOfRange => "'" ++ argument ++ "': Numerical result out of range"

/-- The program `printf`. -/
def printf (self : String) (args : List String) : Effect :=
  let args := match args with
    | "--" :: rest => rest
    | args => args
  match args with
  | [] => misused self "missing operand"
  | format :: args =>
    let (printed, unused?) := formatted ⟨false, true, true⟩ format args
    let isFault (p : Printed) : Bool := match p with
      | .fault _ _ => true
      | .bytes _ => false
    { writes :=
        printed.map (fun p => match p with
          | .bytes bs => (.out, bs)
          | .fault a cause => (.err, Utf8.encode (self ++ ": " ++ cause.message a ++ "\n")))
        ++ unused?.toList.map fun a =>
          (.err, Utf8.encode (self ++ ": warning: ignoring excess arguments, starting with '" ++ a
            ++ "'\n"))
      ending := .exits (if printed.any isFault then 1 else 0) ⟨0⟩ }

/-! ## In the shell -/

def NumberFault.shellMessage (argument : String) : NumberFault → String
  | .missing => argument ++ ": expected numeric value"
  | .incomplete => argument ++ ": not completely converted"
  | .outOfRange => argument ++ ": Numerical result out of range"

/-- The shell's own `printf`: its bytes, and its complaints, which go out before them. -/
def shellPrintf (format : String) (args : List String) : Bytes × List String :=
  let (printed, _) := formatted ⟨false, false, false⟩ format args
  (printed.flatMap fun p => match p with
      | .bytes bs => bs
      | .fault _ _ => [],
    printed.filterMap fun p => match p with
      | .bytes _ => none
      -- An empty argument is a zero that nothing follows.
      | .fault a cause => if a.isEmpty then none else some (cause.shellMessage a))

end PowerBench.Child.Utility
