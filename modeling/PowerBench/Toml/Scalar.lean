import PowerBench.Binary64.Decimal
import PowerBench.Calendar

/-!
# TOML scalars

Strings, booleans, numbers and dates. A reader takes the front of a text and gives the value with the
rest, or nothing when the text is malformed. Numbers may have underscores between digits and no
needless zeros in front. A date, a time, or both with or without an offset are kept as text in one
spelling.
-/

set_option autoImplicit false

namespace PowerBench.Toml

/-- A value without parts. A fractional number too large for its type is not a number yet. -/
inductive Scalar where
  | string (s : String)
  | int (n : Int)
  | float (x : Binary64)
  | tooLarge
  | bool (b : Bool)
  | datetime (text : String)
deriving DecidableEq, Repr

/-! ## Blanks, comments and line ends -/

def isBlankChar (c : Char) : Bool := c == ' ' || c == '\t'

def isCommentChar (c : Char) : Bool := c == '\t' || (0x20 ≤ c.toNat && c.toNat != 0x7F)

def skipBlanks (cs : List Char) : List Char := cs.dropWhile isBlankChar

/-- Past a comment, if one comes next. -/
def skipComment : List Char → List Char
  | '#' :: cs => cs.dropWhile isCommentChar
  | cs => cs

def lineEnd? : List Char → Option (List Char)
  | '\n' :: cs => some cs
  | '\r' :: '\n' :: cs => some cs
  | _ => none

def skipTrivia : Nat → List Char → List Char
  | 0, cs => cs
  | fuel + 1, cs =>
    let cs := skipComment (skipBlanks cs)
    match lineEnd? cs with
    | some rest => skipTrivia fuel rest
    | none => cs

/-- Past the rest of a line that holds nothing more than a comment. -/
def endLine? (cs : List Char) : Option (List Char) :=
  match skipComment (skipBlanks cs) with
  | [] => some []
  | rest => lineEnd? rest

/-! ## Strings -/

def hexDigit? (c : Char) : Option Nat :=
  if c.isDigit then some (c.toNat - 48)
  else if 'a' ≤ c ∧ c ≤ 'f' then some (c.toNat - 87)
  else if 'A' ≤ c ∧ c ≤ 'F' then some (c.toNat - 55)
  else none

/-- The character whose code is written in hexadecimal digits. -/
def charOfHex? (ds : List Char) : Option Char := do
  let n ← ds.foldlM (fun n c => (hexDigit? c).map (n * 16 + ·)) 0
  if (0xD800 ≤ n && n ≤ 0xDFFF) || 0x10FFFF < n then none else some (Char.ofNat n)

def escape? : List Char → Option (Char × List Char)
  | [] => none
  | c :: cs =>
    let code (n : Nat) : Option (Char × List Char) :=
      if (cs.take n).length < n then none
      else (charOfHex? (cs.take n)).map fun x => (x, cs.drop n)
    match c with
    | 'b' => some ('\x08', cs)
    | 't' => some ('\t', cs)
    | 'n' => some ('\n', cs)
    | 'f' => some ('\x0c', cs)
    | 'r' => some ('\r', cs)
    | 'e' => some ('\x1b', cs)
    | '"' => some ('"', cs)
    | '\\' => some ('\\', cs)
    | 'x' => code 2
    | 'u' => code 4
    | 'U' => code 8
    | _ => none

/-- A string on one line, up to its closing quote. Only double quotes have escapes. -/
def lineString? (quote : Char) : Nat → List Char → Option (List Char × List Char)
  | 0, _ => none
  | _, [] => none
  | fuel + 1, c :: cs =>
    if c == quote then some ([], cs)
    else if c == '\\' && quote == '"' then
      (escape? cs).bind fun (x, rest) =>
        (lineString? quote fuel rest).map fun (s, rest) => (x :: s, rest)
    else if isCommentChar c then
      (lineString? quote fuel cs).map fun (s, rest) => (c :: s, rest)
    else none

/-- Past the blanks and line ends that a backslash at the end of a line swallows. -/
def skipFolded : Nat → List Char → List Char
  | 0, cs => cs
  | fuel + 1, cs =>
    let cs := skipBlanks cs
    match lineEnd? cs with
    | some rest => skipFolded fuel rest
    | none => cs

/-- A string of several lines, up to its three closing quotes; one or two more quotes before these
belong to it. -/
def blockString? (quote : Char) : Nat → List Char → Option (List Char × List Char)
  | 0, _ => none
  | _, [] => none
  | fuel + 1, c :: cs =>
    let add (x : List Char) (rest : List Char) : Option (List Char × List Char) :=
      (blockString? quote fuel rest).map fun (s, rest) => (x ++ s, rest)
    if c == quote then
      let run := (c :: cs).takeWhile (· == quote)
      if run.length < 3 then add run ((c :: cs).drop run.length)
      else
        let inside := min 2 (run.length - 3)
        some (run.take inside, (c :: cs).drop (inside + 3))
    else if c == '\\' && quote == '"' then
      match lineEnd? (skipBlanks cs) with
      | some rest => add [] (skipFolded rest.length rest)
      | none => (escape? cs).bind fun (x, rest) => add [x] rest
    else if c == '\n' then add [c] cs
    else if c == '\r' then
      match cs with
      | '\n' :: rest => add ['\r', '\n'] rest
      | _ => none
    else if isCommentChar c then add [c] cs
    else none

def string? : List Char → Option (String × List Char)
  | '"' :: '"' :: '"' :: cs =>
    (blockString? '"' (cs.length + 1) ((lineEnd? cs).getD cs)).map fun (s, r) => (String.ofList s, r)
  | '\'' :: '\'' :: '\'' :: cs =>
    (blockString? '\'' (cs.length + 1) ((lineEnd? cs).getD cs)).map fun (s, r) =>
      (String.ofList s, r)
  | '"' :: cs => (lineString? '"' (cs.length + 1) cs).map fun (s, r) => (String.ofList s, r)
  | '\'' :: cs => (lineString? '\'' (cs.length + 1) cs).map fun (s, r) => (String.ofList s, r)
  | _ => none

/-! ## Numbers -/

/-- Digits of a class with single underscores between them, the underscores taken out. -/
def groupedDigits? (isDigit : Char → Bool) : List Char → Option (List Char)
  | [] => none
  | [c] => if isDigit c then some [c] else none
  | c :: '_' :: cs => if isDigit c then (groupedDigits? isDigit cs).map (c :: ·) else none
  | c :: cs => if isDigit c then (groupedDigits? isDigit cs).map (c :: ·) else none

/-- Decimal digits without a needless zero in front. -/
def wholeDigits? (cs : List Char) : Option (List Char) :=
  match groupedDigits? isDecimalDigit cs with
  | some ('0' :: _ :: _) => none
  | r => r

/-- A number with a base of its own: no sign, a zero, the letter of the base, and digits. -/
def basedInteger? : List Char → Option Int
  | '0' :: b :: cs => do
    let base ← if b = 'x' then some 16 else if b = 'o' then some 8 else if b = 'b' then some 2
      else none
    let ds ← groupedDigits? (fun c => (hexDigit? c).any (· < base)) cs
    some (Int.ofNat (ds.foldl (fun n c => n * base + (hexDigit? c).getD 0) 0))
  | _ => none

def decimalInteger? (cs : List Char) : Option Int :=
  let (negative, body) := splitSign cs
  (wholeDigits? body).map fun ds =>
    if negative then -Int.ofNat (digitsValue ds) else Int.ofNat (digitsValue ds)

/-- A fractional number: digits, then a point and digits, an exponent, or both. -/
def fractional? (cs : List Char) : Option Scalar :=
  let (negative, body) := splitSign cs
  let isMark (c : Char) : Bool := c == '.' || c == 'e' || c == 'E'
  let finish (whole fraction : List Char) (exponent : Int) : Scalar :=
    let x := Decimal.toBinary64
      ⟨negative, digitsValue (whole ++ fraction), exponent - Int.ofNat fraction.length⟩
    if x.isFinite then .float x else .tooLarge
  let exponent? (cs : List Char) : Option Int :=
    let (down, ds) := splitSign cs
    (groupedDigits? isDecimalDigit ds).map fun ds =>
      if down then -Int.ofNat (digitsValue ds) else Int.ofNat (digitsValue ds)
  do
    let whole ← wholeDigits? (body.takeWhile fun c => !isMark c)
    match body.dropWhile fun c => !isMark c with
    | '.' :: rest => do
      let fraction ← groupedDigits? isDecimalDigit (rest.takeWhile fun c => !isMark c)
      match rest.dropWhile fun c => !isMark c with
      | [] => some (finish whole fraction 0)
      | '.' :: _ => none
      | _ :: e => (exponent? e).map (finish whole fraction)
    | _ :: e => (exponent? e).map (finish whole [])
    | [] => none

/-- The spellings of infinity and not-a-number. -/
def special? (cs : List Char) : Option Scalar :=
  let (negative, body) := splitSign cs
  if body = ['i', 'n', 'f'] then some (.float (.infinity negative))
  else if body = ['n', 'a', 'n'] then some (.float (.ofCode negative Binary64.nan.code))
  else none

/-! ## Dates and times -/

/-- Exactly `n` decimal digits. -/
def digits? (n : Nat) (cs : List Char) : Option (Nat × List Char) :=
  let ds := cs.take n
  if ds.length = n ∧ ds.all isDecimalDigit = true then some (digitsValue ds, cs.drop n) else none

/-- A date that exists, year, month and day with four and two digits. -/
def date? (cs : List Char) : Option (List Char × List Char) := do
  let (y, r) ← digits? 4 cs
  let (m, r) ← match r with
    | '-' :: r => digits? 2 r
    | _ => none
  let (d, r) ← match r with
    | '-' :: r => digits? 2 r
    | _ => none
  if Calendar.isDate y m d then some (cs.take 10, r) else none

/-- The fraction of a second as it is kept: at most nine digits and no zeros at the end. -/
def fractionText (ds : List Char) : List Char :=
  let kept := ((ds.take 9).reverse.dropWhile (· == '0')).reverse
  '.' :: (if kept.isEmpty then ['0'] else kept)

/-- A time of day; the seconds may be left out. -/
def time? (cs : List Char) : Option (List Char × List Char) := do
  let (h, r) ← digits? 2 cs
  let (m, r) ← match r with
    | ':' :: r => digits? 2 r
    | _ => none
  if 23 < h ∨ 59 < m then none
  else
    match r with
    | ':' :: r => do
      let (s, r) ← digits? 2 r
      if 60 < s then none
      else
        match r with
        | '.' :: r =>
          let ds := r.takeWhile isDecimalDigit
          if ds.isEmpty then none else some (cs.take 8 ++ fractionText ds, r.drop ds.length)
        | r => some (cs.take 8, r)
    | r => some (cs.take 5, r)

/-- An offset from universal time, or nothing at the end. -/
def offset? : List Char → Option (List Char)
  | [] => some []
  | ['Z'] => some ['Z']
  | ['z'] => some ['Z']
  | c :: cs =>
    if c = '+' ∨ c = '-' then do
      let (h, r) ← digits? 2 cs
      let (m, r) ← match r with
        | ':' :: r => digits? 2 r
        | _ => none
      if r ≠ [] ∨ 23 < h ∨ 59 < m then none
      else some ((if h * 60 + m = 0 then '+' else c) :: cs)
    else none

/-- A date, a time, or both with an optional offset. -/
def datetime? (cs : List Char) : Option String :=
  match date? cs with
  | some (date, []) => some (String.ofList date)
  | some (date, c :: rest) =>
    if c = 'T' ∨ c = 't' ∨ c = ' ' then do
      let (time, r) ← time? rest
      let off ← offset? r
      some (String.ofList (date ++ 'T' :: time ++ off))
    else none
  | none =>
    match time? cs with
    | some (time, []) => some (String.ofList time)
    | _ => none

/-! ## Words -/

/-- A character that ends a value without quotes. -/
def endsWord (c : Char) : Bool :=
  isBlankChar c || c == '\n' || c == '\r' || c == ',' || c == ']' || c == '\x7d' || c == '#'
    || c == '='

/-- What a value without quotes stands for. -/
def word? (cs : List Char) : Option Scalar :=
  if cs = "true".toList then some (.bool true)
  else if cs = "false".toList then some (.bool false)
  else
    ((special? cs).or ((basedInteger? cs).map .int)).or <|
      ((decimalInteger? cs).map .int).or <| (fractional? cs).or ((datetime? cs).map .datetime)

/-- A value without quotes at the front of a text. One space may divide a date and a time. -/
def readWord? (cs : List Char) : Option (Scalar × List Char) :=
  let first := cs.takeWhile fun c => !endsWord c
  let rest := cs.dropWhile fun c => !endsWord c
  let (word, rest) :=
    match date? first, rest with
    | some (_, []), ' ' :: d :: more =>
      if isDecimalDigit d then
        (first ++ ' ' :: (d :: more).takeWhile fun c => !endsWord c,
          (d :: more).dropWhile fun c => !endsWord c)
      else (first, rest)
    | _, _ => (first, rest)
  (word? word).map fun v => (v, rest)

end PowerBench.Toml
