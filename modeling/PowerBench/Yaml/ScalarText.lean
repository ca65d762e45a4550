import PowerBench.Yaml.Token

/-!
# The text of scalars

A scalar is written plain, between quotes, or as an indented block. Line breaks inside plain and
quoted scalars are folded: one break is a blank, and of several the first is dropped. A block keeps
its breaks or folds them, and its header says what becomes of those at its end. Each reader gives the
text and the cursor after it, or nothing when the scalar is malformed.
-/

set_option autoImplicit false

namespace PowerBench.Yaml

/-- White space met since the last visible character. -/
structure Gap where
  blanks : List Char := []
  firstBreak : List Char := []
  moreBreaks : List Char := []
  broken : Bool := false
deriving Repr

namespace Gap

/-- What a gap between two visible characters stands for. -/
def folded (g : Gap) : List Char :=
  if !g.broken then g.blanks
  else if g.firstBreak.head? == some '\n' then
    if g.moreBreaks.isEmpty then [' '] else g.moreBreaks
  else g.firstBreak ++ g.moreBreaks

/-- The gap after one more line break. -/
def addBreak (g : Gap) (text : List Char) : Gap :=
  if g.broken then { g with moreBreaks := g.moreBreaks ++ text }
  else { g with blanks := [], firstBreak := text, broken := true }

/-- The gap after one more blank; blanks at the start of a line do not count. -/
def addBlank (g : Gap) (x : Char) : Gap :=
  if g.broken then g else { g with blanks := g.blanks ++ [x] }

end Gap

/-- The white space that comes next, on top of a gap. With a `tabLimit`, a tab before that column of
a later line is malformed. -/
def readGap (tabLimit : Option Nat) : Nat → Gap → Cursor → Option (Gap × Cursor)
  | 0, g, c => some (g, c)
  | fuel + 1, g, c =>
    match c.ahead with
    | [] => some (g, c)
    | x :: _ =>
      if isSpaceOrTab x then
        if g.broken && x == '\t' && (tabLimit.any fun n => c.column < n) then none
        else readGap tabLimit fuel (g.addBlank x) (c.skip 1)
      else if isBreak x then readGap tabLimit fuel (g.addBreak c.breakText) c.skipBreak
      else some (g, c)

/-! ## Plain scalars -/

/-- The characters of a plain scalar up to the next white space or the end of the scalar. Inside a
flow collection a colon must not touch a flow indicator. -/
def plainWord (flow : Bool) : List Char → Option (List Char)
  | [] => some []
  | x :: rest =>
    let blankNext := match rest with
      | [] => true
      | y :: _ => isSpaceOrTab y || isBreak y
    let indicatorNext := match rest with
      | [] => false
      | y :: _ => isFlowIndicator y || y == '?'
    if isSpaceOrTab x || isBreak x then some []
    else if flow && x == ':' && indicatorNext then none
    else if (x == ':' && blankNext) || (flow && isFlowIndicator x) then some []
    else (plainWord flow rest).map (x :: ·)

/-- A plain scalar, what stands before it folded in. The flag says that a line break follows it. -/
def readPlain (flow : Bool) (indent : Nat) :
    Nat → List Char → Gap → Cursor → Option (List Char × Bool × Cursor)
  | 0, text, g, c => some (text, g.broken, c)
  | fuel + 1, text, g, c =>
    if c.atDocumentMarker || c.at? '#' then some (text, g.broken, c)
    else do
      let word ← plainWord flow c.ahead
      let after := c.skip word.length
      let (text, g) := if word.isEmpty then (text, g) else (text ++ g.folded ++ word, {})
      if !after.atSpaceOrTab && !after.atBreak then some (text, g.broken, after)
      else
        let (g, after) ← readGap (some indent) after.ahead.length g after
        if !flow && after.column < indent then some (text, g.broken, after)
        else readPlain flow indent fuel text g after

/-! ## Quoted scalars -/

def shortEscape : Char → Option Char
  | '0' => some '\x00'
  | 'a' => some '\x07'
  | 'b' => some '\x08'
  | 't' => some '\t'
  | '\t' => some '\t'
  | 'n' => some '\n'
  | 'v' => some '\x0b'
  | 'f' => some '\x0c'
  | 'r' => some '\r'
  | 'e' => some '\x1b'
  | ' ' => some ' '
  | '"' => some '"'
  | '/' => some '/'
  | '\\' => some '\\'
  | 'N' => some '\u0085'
  | '_' => some '\u00a0'
  | 'L' => some '\u2028'
  | 'P' => some '\u2029'
  | _ => none

/-- The number of hexadecimal digits of a long escape. -/
def longEscape : Char → Option Nat
  | 'x' => some 2
  | 'u' => some 4
  | 'U' => some 8
  | _ => none

def charOfCode? (n : Nat) : Option Char :=
  if (0xD800 ≤ n && n ≤ 0xDFFF) || 0x10FFFF < n then none else some (Char.ofNat n)

/-- An escape of a double-quoted scalar, after its backslash. -/
def readEscape (c : Cursor) : Option (Char × Cursor) :=
  match c.ahead with
  | [] => none
  | x :: rest =>
    match shortEscape x, longEscape x with
    | some y, _ => some (y, c.skip 1)
    | none, some n =>
      let ds := rest.take n
      if ds.length < n || !ds.all isHexDigit then none
      else (charOfCode? (ds.foldl (fun v d => v * 16 + hexValue d) 0)).map fun y =>
        (y, c.skip (n + 1))
    | none, none => none

/-- The characters of a quoted scalar up to the next white space or the closing quote. The flag says
that an escaped line break ended them. -/
def quotedWord (single : Bool) : Nat → Cursor → Option (List Char × Bool × Cursor)
  | 0, c => some ([], false, c)
  | fuel + 1, c =>
    let add (x : Char) (after : Cursor) : Option (List Char × Bool × Cursor) :=
      (quotedWord single fuel after).map fun (word, broken, c) => (x :: word, broken, c)
    match c.ahead with
    | [] => some ([], false, c)
    | x :: rest =>
      if isSpaceOrTab x || isBreak x then some ([], false, c)
      else if single && x == '\'' then
        if rest.head? == some '\'' then add '\'' (c.skip 2) else some ([], false, c)
      else if !single && x == '"' then some ([], false, c)
      else if !single && x == '\\' then
        if (c.skip 1).atBreak then some ([], true, (c.skip 1).skipBreak)
        else (readEscape (c.skip 1)).bind fun (y, after) => add y after
      else add x (c.skip 1)

/-- A quoted scalar after its opening quote. -/
def readQuoted (single : Bool) : Nat → List Char → Cursor → Option (List Char × Cursor)
  | 0, _, _ => none
  | fuel + 1, text, c =>
    if c.atDocumentMarker || c.atEnd then none
    else do
      let (word, broken, after) ← quotedWord single c.ahead.length c
      let text := text ++ word
      if after.at? (if single then '\'' else '"') then some (text, after.skip 1)
      else
        let (g, after) ← readGap none after.ahead.length { broken := broken } after
        readQuoted single fuel (text ++ g.folded) after

/-! ## Block scalars -/

/-- What becomes of the line breaks at the end of a block. -/
inductive Chomp where
  | strip
  | clip
  | keep
deriving DecidableEq, Repr

def chompSign : Char → Option Chomp
  | '+' => some .keep
  | '-' => some .strip
  | _ => none

/-- The header of a block after its indicator: a sign and a digit in either order, then an optional
comment. The digit is the indentation of the block and is not zero. -/
def readBlockHeader (c : Cursor) : Option (Chomp × Nat × Cursor) :=
  let sign (c : Cursor) : Option Chomp × Cursor :=
    match c.ahead.head?.bind chompSign with
    | some k => (some k, c.skip 1)
    | none => (none, c)
  let digit (c : Cursor) : Option Nat × Cursor :=
    match c.ahead with
    | x :: _ => if x.isDigit then (some (x.toNat - 48), c.skip 1) else (none, c)
    | [] => (none, c)
  let (first, c) := sign c
  let (width, c) := digit c
  let (second, c) := if first.isNone && width.isSome then sign c else (none, c)
  if width == some 0 then none
  else
    let c := c.skipWhile isSpaceOrTab
    let c := if c.at? '#' then c.skipLine else c
    if !c.breakOrEnd then none
    else some ((first.or second).getD .clip, width.getD 0, c.skipBreak)

/-- The empty lines that come next inside a block, with the indentation: `0` while it is not known
yet, and then the widest line of blanks decides, but at least `least`. -/
def readBlockBreaks (least indent : Nat) :
    Nat → Nat → List Char → Cursor → Option (Nat × List Char × Cursor)
  | fuel, widest, breaks, c =>
    let spaces := (c.ahead.takeWhile (· == ' ')).length
    let skipped := if indent == 0 then spaces else min spaces (indent - c.column)
    let c := c.skip skipped
    let widest := max widest c.column
    if (indent == 0 || c.column < indent) && c.at? '\t' then none
    else if !c.atBreak then
      some (if indent == 0 then max widest (max least 1) else indent, breaks, c)
    else
      match fuel with
      | 0 => none
      | fuel + 1 => readBlockBreaks least indent fuel widest (breaks ++ c.breakText) c.skipBreak

/-- What a block has gathered: its text, the break after the last line, the empty lines after that,
and whether the last line began with a blank. -/
structure BlockText where
  text : List Char := []
  lineBreak : List Char := []
  emptyLines : List Char := []
  startsBlank : Bool := false

/-- The text with the breaks before a new line. A folded block joins two lines that do not begin
with blanks. -/
def BlockText.beforeLine (folded startsBlank : Bool) (b : BlockText) : List Char :=
  if folded && b.lineBreak.head? == some '\n' && !b.startsBlank && !startsBlank then
    b.text ++ (if b.emptyLines.isEmpty then [' '] else []) ++ b.emptyLines
  else b.text ++ b.lineBreak ++ b.emptyLines

def readBlockLines (folded : Bool) (indent : Nat) :
    Nat → BlockText → Cursor → Option (BlockText × Cursor)
  | 0, b, c => some (b, c)
  | fuel + 1, b, c =>
    if c.column != indent || c.atEnd then some (b, c)
    else do
      let startsBlank := c.atSpaceOrTab
      let line := c.ahead.takeWhile fun x => !isBreak x
      let after := c.skip line.length
      let (_, emptyLines, next) ←
        readBlockBreaks 0 indent after.ahead.length 0 [] after.skipBreak
      readBlockLines folded indent fuel
        ⟨b.beforeLine folded startsBlank ++ line, after.breakText, emptyLines, startsBlank⟩ next

/-- A block scalar after its indicator, inside a collection indented by `parent`. -/
def readBlock (folded : Bool) (parent : Int) (c : Cursor) : Option (List Char × Cursor) := do
  let (chomp, width, c) ← readBlockHeader c
  let outer := (max parent 0).toNat
  let given := if width == 0 then 0 else outer + width
  let (indent, breaks, c) ←
    readBlockBreaks (parent + 1).toNat given c.ahead.length 0 [] c
  let (b, c) ← readBlockLines folded indent (c.ahead.length + 1) { emptyLines := breaks } c
  let kept := match chomp with
    | .strip => []
    | .clip => b.lineBreak
    | .keep => b.lineBreak ++ b.emptyLines
  some (b.text ++ kept, c)

end PowerBench.Yaml
