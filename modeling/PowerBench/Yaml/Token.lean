import PowerBench.Text.Utf8

/-!
# YAML tokens and the text they are cut from

`Token` lists the lexical elements of a YAML stream. A `Cursor` is a place in the text: the
characters ahead and the position as index, line and column.
-/

set_option autoImplicit false

namespace PowerBench.Yaml

/-- A tag as written: its handle and what follows it, percent signs decoded. -/
structure TagName where
  handle : String
  rest : Bytes
deriving DecidableEq, Repr

/-- The lexical elements. A scalar is plain, or written in one of the quoted or block forms. -/
inductive Token where
  | streamEnd
  | version (major minor : Nat)
  | tagDirective (handle : String) (start : Bytes)
  | documentStart
  | documentEnd
  | blockSequenceStart
  | blockMappingStart
  | blockEnd
  | flowSequenceStart
  | flowSequenceEnd
  | flowMappingStart
  | flowMappingEnd
  | blockEntry
  | flowEntry
  | key
  | value
  | alias (name : String)
  | anchor (name : String)
  | tag (name : TagName)
  | scalar (text : String) (plain : Bool)
deriving DecidableEq, Repr

/-! ## Character classes -/

def isBreak (c : Char) : Bool :=
  c == '\n' || c == '\r' || c == '\u0085' || c == '\u2028' || c == '\u2029'

def isSpaceOrTab (c : Char) : Bool := c == ' ' || c == '\t'

/-- A letter or digit of ASCII, the underscore or the hyphen. -/
def isWordChar (c : Char) : Bool := c.isAlphanum || c == '_' || c == '-'

def isHexDigit (c : Char) : Bool :=
  c.isDigit || ('a' ≤ c && c ≤ 'f') || ('A' ≤ c && c ≤ 'F')

def hexValue (c : Char) : Nat :=
  if c.isDigit then c.toNat - 48 else if 'a' ≤ c then c.toNat - 87 else c.toNat - 55

def isStreamChar (c : Char) : Bool :=
  let n := c.toNat
  n == 0x09 || n == 0x0A || n == 0x0D || (0x20 ≤ n && n ≤ 0x7E) || n == 0x85
    || (0xA0 ≤ n && n ≤ 0xFFFD) || 0x10000 ≤ n

/-- The characters that close or divide flow collections. -/
def isFlowIndicator (c : Char) : Bool :=
  c == ',' || c == '[' || c == ']' || c == '\x7b' || c == '\x7d'

/-! ## Cursors -/

/-- A place in the text. -/
structure Cursor where
  ahead : List Char
  index : Nat
  line : Nat
  column : Nat
deriving Repr

namespace Cursor

def start (cs : List Char) : Cursor := ⟨cs, 0, 0, 0⟩

/-- The character `k` places ahead. -/
def peek (c : Cursor) (k : Nat) : Option Char := c.ahead[k]?

/-- Whether the next character is `x`. -/
def at? (c : Cursor) (x : Char) : Bool := c.ahead.head? == some x

/-- Whether the text `k` places ahead is at its end. -/
def atEnd (c : Cursor) : Bool := c.ahead.isEmpty

/-- Whether a blank, a line break or the end stands `k` places ahead. -/
def blankOrEnd (c : Cursor) (k : Nat) : Bool :=
  match c.ahead[k]? with
  | none => true
  | some x => isSpaceOrTab x || isBreak x

/-- Whether a line break or the end comes next. -/
def breakOrEnd (c : Cursor) : Bool :=
  match c.ahead with
  | [] => true
  | x :: _ => isBreak x

/-- Whether a line break comes next. -/
def atBreak (c : Cursor) : Bool :=
  match c.ahead with
  | [] => false
  | x :: _ => isBreak x

/-- Whether a space or a tab comes next. -/
def atSpaceOrTab (c : Cursor) : Bool :=
  match c.ahead with
  | [] => false
  | x :: _ => isSpaceOrTab x

/-- Past `n` characters of the line. -/
def skip (n : Nat) (c : Cursor) : Cursor :=
  ⟨c.ahead.drop n, c.index + n, c.line, c.column + n⟩

/-- Past a line break, a carriage return and line feed counting as one. -/
def skipBreak (c : Cursor) : Cursor :=
  match c.ahead with
  | '\r' :: '\n' :: rest => ⟨rest, c.index + 2, c.line + 1, 0⟩
  | x :: rest => if isBreak x then ⟨rest, c.index + 1, c.line + 1, 0⟩ else c
  | [] => c

/-- The text a line break stands for: the two separators stay, all others are a line feed. -/
def breakText (c : Cursor) : List Char :=
  match c.ahead with
  | x :: _ =>
    if x == '\u2028' || x == '\u2029' then [x] else if isBreak x then ['\n'] else []
  | [] => []

/-- Past the characters of class `p` that come next on the line. -/
def skipWhile (p : Char → Bool) (c : Cursor) : Cursor :=
  c.skip (c.ahead.takeWhile p).length

/-- Past the rest of the line, up to its break. -/
def skipLine (c : Cursor) : Cursor := c.skipWhile fun x => !isBreak x

/-- Whether the line starts here with the three characters `x`, followed by a blank or the end. -/
def atMarker (c : Cursor) (x : Char) : Bool :=
  c.column == 0 && c.ahead.take 3 == [x, x, x] && c.blankOrEnd 3

/-- Whether the line starts here with a marker of a document's start or end. -/
def atDocumentMarker (c : Cursor) : Bool := c.atMarker '-' || c.atMarker '.'

end Cursor

end PowerBench.Yaml
