import PowerBench.Yaml.Value

/-!
# Writing YAML

Values are written in block style, two blanks per level, sequences in mappings not indented, empty
collections as brackets. A text is written plain where it reads back as itself, and otherwise between
single quotes, between double quotes, or as a literal block when it has line breaks.
-/

set_option autoImplicit false

namespace PowerBench.Yaml

/-! ## The form of a text -/

/-- The forms in which a scalar can be written. -/
inductive Form where
  | plain
  | single
  | double
  | literal
deriving DecidableEq, Repr

def isVisible (c : Char) : Bool :=
  let n := c.toNat
  n == 0x0A || (0x20 ≤ n && n ≤ 0x7E) || (0xA0 ≤ n && n ≤ 0xFFFD && n != 0xFEFF) || 0x10000 ≤ n

def isBlankOrEnd : Option Char → Bool
  | none => true
  | some c => isSpaceOrTab c || isBreak c

/-- Whether a character that starts a text keeps it from being plain. -/
def firstIsIndicator (c : Char) (next : Option Char) : Bool :=
  "#,[]\x7b\x7d&*!|>'\"%@".toList.contains c || c == '\x60'
    || ((c == '?' || c == ':' || c == '-') && isBlankOrEnd next)

/-- Whether a later character keeps a text from being plain. -/
def laterIsIndicator (before c : Char) (next : Option Char) : Bool :=
  (c == ':' && isBlankOrEnd next) || (c == '#' && isBlankOrEnd (some before))

/-- Whether some character after the first keeps a text from being plain. -/
def hasIndicator : List Char → Bool
  | a :: b :: rest => laterIsIndicator a b rest.head? || hasIndicator (b :: rest)
  | _ => false

/-- Whether two characters of classes `p` and `q` follow each other. -/
def hasPair (p q : Char → Bool) : List Char → Bool
  | a :: b :: rest => (p a && q b) || hasPair p q (b :: rest)
  | _ => false

/-- What a text holds that limits its form. -/
structure Traits where
  multiline : Bool
  plainAllowed : Bool
  singleAllowed : Bool
  blockAllowed : Bool
deriving DecidableEq, Repr

/-- The forms that the characters of a text allow. -/
def Traits.ofText (cs : List Char) : Traits :=
  match cs with
  | [] => ⟨false, true, true, false⟩
  | first :: rest =>
    let isSpace (c : Char) : Bool := c == ' '
    let marker := cs.take 3 == ['-', '-', '-'] || cs.take 3 == ['.', '.', '.']
    let indicator := marker || firstIsIndicator first rest.head? || hasIndicator cs
    let special := !cs.all isVisible
    let breaks := cs.any isBreak
    let last := cs.getLastD first
    let edge := isSpace first || isBreak first || isSpace last || isBreak last
    let breakSpace := hasPair isBreak isSpace cs
    let spaceBreak := hasPair isSpace isBreak cs
    { multiline := breaks
      plainAllowed := !edge && !breakSpace && !spaceBreak && !special && !breaks && !indicator
      singleAllowed := !breakSpace && !spaceBreak && !special
      blockAllowed := !isSpace last && !spaceBreak && !special }

/-- Whether a plain text would be read as something else than a text. -/
def readsAsOther (s : String) : Bool :=
  Plain.isPaddedDigits s.toList || !(Plain.classify s matches .string _)

/-- The form of a text; in a key it has to fit on one line. -/
def formOf (key : Bool) (s : String) : Form :=
  let cs := s.toList
  let traits := Traits.ofText cs
  let quoted : Form := if traits.singleAllowed then .single else .double
  if cs.contains '\n' then
    if !key && traits.blockAllowed then .literal else .double
  else if key && traits.multiline then .double
  else if readsAsOther s then quoted
  else if !traits.plainAllowed || (cs.isEmpty && key) then quoted
  else .plain

/-! ## The page -/

/-- A page being written: the characters so far, last first, the column, whether the last thing
written was a blank, and whether the line holds nothing but indentation and entry marks. -/
structure Page where
  reversed : List Char := []
  column : Nat := 0
  blank : Bool := true
  fresh : Bool := true

namespace Page

def put (c : Char) (p : Page) : Page := { p with reversed := c :: p.reversed, column := p.column + 1 }

def puts (cs : List Char) (p : Page) : Page := cs.foldl (fun p c => p.put c) p

def newline (c : Char) (p : Page) : Page := { p with reversed := c :: p.reversed, column := 0 }

/-- Goes to the column of a level, on a new line unless the line is still fresh there. -/
def indent (level : Nat) (p : Page) : Page :=
  let p := if !p.fresh || level < p.column || (p.column == level && !p.blank) then p.newline '\n'
    else p
  { p.puts (List.replicate (level - p.column) ' ') with blank := true, fresh := true }

/-- Writes a mark, after a blank if it needs one. A mark of an entry keeps the line fresh. -/
def mark (cs : List Char) (needsBlank entry : Bool) (p : Page) : Page :=
  let p := if needsBlank && !p.blank then p.put ' ' else p
  { p.puts cs with blank := false, fresh := p.fresh && entry }

end Page

/-! ## Scalars on a page -/

/-- The escape of a character between double quotes. -/
def escapeCode (c : Char) : List Char :=
  let hex (width n : Nat) : List Char :=
    let ds := (Nat.toDigits 16 n).map Char.toUpper
    List.replicate (width - ds.length) '0' ++ ds
  let n := c.toNat
  match n with
  | 0x00 => ['0']
  | 0x07 => ['a']
  | 0x08 => ['b']
  | 0x09 => ['t']
  | 0x0A => ['n']
  | 0x0B => ['v']
  | 0x0C => ['f']
  | 0x0D => ['r']
  | 0x1B => ['e']
  | 0x22 => ['"']
  | 0x5C => ['\\']
  | 0x85 => ['N']
  | 0xA0 => ['_']
  | 0x2028 => ['L']
  | 0x2029 => ['P']
  | _ =>
    if n ≤ 0xFF then 'x' :: hex 2 n
    else if n ≤ 0xFFFF then 'u' :: hex 4 n
    else 'U' :: hex 8 n

def doubleQuoted (c : Char) : List Char :=
  if !isVisible c || isBreak c || c == '"' || c == '\\' then '\\' :: escapeCode c else [c]

/-- The characters between single quotes. Only line separators can break such a text; after a break
the line starts at the level. -/
def singleQuoted (level : Nat) : Bool → List Char → Page → Page
  | afterBreak, [], p => if afterBreak then p.indent level else p
  | afterBreak, c :: cs, p =>
    if isBreak c then singleQuoted level true cs { p.newline c with fresh := true }
    else if c == ' ' then singleQuoted level afterBreak cs (p.put c)
    else
      let p := if afterBreak then p.indent level else p
      let p := if c == '\'' then p.put '\'' else p
      singleQuoted level false cs { p.put c with fresh := false }

def literalLines (level : Nat) : Bool → List Char → Page → Page
  | _, [], p => p
  | afterBreak, c :: cs, p =>
    if isBreak c then literalLines level true cs { p.newline c with fresh := true }
    else
      let p := if afterBreak then p.indent level else p
      literalLines level false cs { p.put c with fresh := false }

/-- The header of a literal block: the indentation where the text starts with a blank, and the sign
for the line breaks at its end. -/
def literalHeader (cs : List Char) : List Char :=
  let width := match cs with
    | c :: _ => if c == ' ' || isBreak c then ['2'] else []
    | [] => []
  let chomp := match cs.reverse with
    | [] => ['-']
    | [c] => if isBreak c then ['+'] else ['-']
    | c :: d :: _ => if !isBreak c then ['-'] else if isBreak d then ['+'] else []
  '|' :: width ++ chomp

def Page.scalar (level : Nat) (form : Form) (cs : List Char) (p : Page) : Page :=
  match form with
  | .plain =>
    let p := if !p.blank && !cs.isEmpty then p.put ' ' else p
    { p.puts cs with blank := false, fresh := false }
  | .single =>
    let p := singleQuoted level false cs (p.mark ['\''] true false)
    { p.mark ['\''] false false with blank := false, fresh := false }
  | .double =>
    let p := (p.mark ['"'] true false).puts (cs.flatMap doubleQuoted)
    { p.mark ['"'] false false with blank := false, fresh := false }
  | .literal =>
    let p := (p.mark (literalHeader cs) true false).newline '\n'
    literalLines level true cs { p with blank := true, fresh := true }

/-! ## Values on a page -/

def tagText (tag : String) : List Char :=
  if tag.toList.head? == some '!' then tag.toList else '!' :: tag.toList

/-- Whether a key fits on one line before its colon: a short scalar without line breaks, or an empty
collection. -/
def isSimpleKey : Value → Bool
  | .sequence items => items.isEmpty
  | .mapping entries => entries.isEmpty
  | .tagged _ v => isSimpleKey v
  | .string s => !s.toList.any isBreak && s.utf8ByteSize ≤ 128
  | _ => true

mutual

/-- Writes a value inside a collection at `level`. -/
def Page.value (level : Nat) (inMapping key : Bool) : Value → Page → Page
  | .sequence [], p => { p.mark ['[', ']'] true false with blank := false }
  | .mapping [], p => { p.mark ['\x7b', '\x7d'] true false with blank := false }
  | .sequence (v :: vs), p =>
    let inner := if inMapping && !p.fresh then level else level + 2
    Page.items inner (v :: vs) p
  | .mapping (e :: es), p => Page.entries (level + 2) (e :: es) p
  | .tagged tag v, p => Page.value level inMapping key v (p.mark (tagText tag) true false)
  | .null, p => p.scalar (level + 2) .plain "null".toList
  | .bool b, p => p.scalar (level + 2) .plain (if b then "true" else "false").toList
  | .int n, p => p.scalar (level + 2) .plain (toString n).toList
  | .float x, p => p.scalar (level + 2) .plain (Value.floatText x).toList
  | .string s, p => p.scalar (level + 2) (formOf key s) s.toList

/-- Writes the items of a block sequence. -/
def Page.items (level : Nat) : List Value → Page → Page
  | [], p => p
  | v :: vs, p =>
    Page.items level vs (Page.value level false false v ((p.indent level).mark ['-'] true true))

/-- Writes the entries of a block mapping. -/
def Page.entries (level : Nat) : List (Value × Value) → Page → Page
  | [], p => p
  | (k, v) :: rest, p =>
    let p := p.indent level
    let p :=
      if isSimpleKey k then (Page.value level true true k p).mark [':'] false false
      else
        ((Page.value level true false k (p.mark ['?'] true true)).indent level).mark [':'] true true
    Page.entries level rest (Page.value level true false v p)

end

def renderMapping (entries : List (Value × Value)) : String :=
  let p : Page := {}
  let p := if entries.isEmpty then p.mark ['\x7b', '\x7d'] true false
    else Page.entries 0 entries p
  String.ofList (p.indent 0).reversed.reverse

end PowerBench.Yaml
