import PowerBench.Child.Utility.Basic

/-!
# Backslash escapes

The escapes that `echo` and `printf` know, and `echo` itself. Programs and shells differ in which
escapes there are; a rule says which.
-/

set_option autoImplicit false

namespace PowerBench.Child.Utility

/-- Which escapes count: `leadingZero` lets octal ones have a zero before their three digits, `wide`
adds `\e` and hexadecimal ones, `quote` adds the double quote. -/
structure EscapeRule where
  leadingZero : Bool
  wide : Bool
  quote : Bool
deriving DecidableEq, Repr

def isOctal (c : Char) : Bool := '0' ≤ c && c ≤ '7'

def octalValue (cs : List Char) : Nat := cs.foldl (fun n c => n * 8 + (c.toNat - 48)) 0

def hexDigit? (c : Char) : Option Nat :=
  if c.isDigit then some (c.toNat - 48)
  else if 'a' ≤ c && c ≤ 'f' then some (c.toNat - 87)
  else if 'A' ≤ c && c ≤ 'F' then some (c.toNat - 55)
  else none

def hexValue (cs : List Char) : Nat := cs.foldl (fun n c => n * 16 + (hexDigit? c).getD 0) 0

def letterEscape? : Char → Option UInt8
  | 'a' => some 7
  | 'b' => some 8
  | 'f' => some 12
  | 'n' => some 10
  | 'r' => some 13
  | 't' => some 9
  | 'v' => some 11
  | '\\' => some 92
  | _ => none

/-- An escape after its backslash: the bytes it stands for, or the end of all output (`none`), and how
many characters it takes. -/
def escape (rule : EscapeRule) (cs : List Char) : Option Bytes × Nat :=
  match cs with
  | [] => (some [92], 0)
  | 'c' :: _ => (none, 1)
  | c :: rest =>
    match letterEscape? c with
    | some b => (some [b], 1)
    | none =>
      if isOctal c then
        let dropped := rule.leadingZero && c == '0'
        let digits := ((if dropped then rest else cs).takeWhile isOctal).take 3
        (some [UInt8.ofNat (octalValue digits)], digits.length + if dropped then 1 else 0)
      else if rule.quote && c == '"' then (some [34], 1)
      else if rule.wide && c == 'e' then (some [27], 1)
      else
        let digits := (rest.takeWhile fun d => (hexDigit? d).isSome).take 2
        if rule.wide && c == 'x' && !digits.isEmpty then
          (some [UInt8.ofNat (hexValue digits)], digits.length + 1)
        else (some (92 :: Utf8.encodeChar c), 1)

/-- A text with its escapes replaced, and whether output ends with it. -/
def unescape (rule : EscapeRule) : Nat → List Char → Bytes × Bool
  | 0, _ => ([], false)
  | _, [] => ([], false)
  | fuel + 1, c :: cs =>
    if c = '\\' then
      match escape rule cs with
      | (none, _) => ([], true)
      | (some bytes, n) =>
        let (rest, stops) := unescape rule fuel (cs.drop n)
        (bytes ++ rest, stops)
    else
      let (rest, stops) := unescape rule fuel cs
      (Utf8.encodeChar c ++ rest, stops)

/-! ## echo -/

/-- The program `echo`: options stand first, and escapes count only when asked for. -/
def echo (args : List String) : Effect :=
  let isOption (a : String) : Bool :=
    match a.toList with
    | '-' :: c :: cs => (c :: cs).all fun c => c == 'n' || c == 'e' || c == 'E'
    | _ => false
  let options := (args.takeWhile isOption).flatMap fun a => a.toList.drop 1
  let words := args.dropWhile isOption
  let text := (String.intercalate " " words).toList
  let escapes := (options.filter (· != 'n')).getLast? == some 'e'
  let (body, stops) := if escapes then unescape ⟨true, true, false⟩ (text.length + 1) text
    else (Utf8.encodeChars text, false)
  .prints (if stops || options.contains 'n' then body else body ++ [10])

/-- The shell's own `echo`: only `-n` is an option, and escapes always count. -/
def shellEcho (args : List String) : Bytes :=
  let (words, newline) := match args with
    | "-n" :: rest => (rest, false)
    | rest => (rest, true)
  let text := (String.intercalate " " words).toList
  let (body, stops) := unescape ⟨true, false, false⟩ (text.length + 1) text
  if stops || !newline then body else body ++ [10]

end PowerBench.Child.Utility
