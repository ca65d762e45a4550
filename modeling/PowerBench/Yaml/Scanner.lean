import PowerBench.Yaml.ScalarText

/-!
# Cutting a YAML text into tokens

A scalar or collection at a place where a mapping key may stand is only known to be a key when the
colon after it is met, on the same line and at most 1024 characters on. Until then it is a
*candidate*, and its token is held back: `Scanner.more` cuts tokens until the first one in the queue
is settled. A colon turns the candidate into a key by inserting the key token, and if need be the
start of a block mapping, in front of it. Block collections are opened and closed by the columns at
which their entries start.
-/

set_option autoImplicit false

namespace PowerBench.Yaml

/-- A possible mapping key: the number of its token, where it starts, and whether nothing else can
stand there. -/
structure Candidate where
  token : Nat
  index : Nat
  line : Nat
  column : Nat
  required : Bool
deriving Repr

/-- A scanner between two tokens. `indent` is the column of the innermost block collection, `-1`
outside all; `candidates` has one place per level of flow collections, the innermost first; `taken`
tokens have left the queue. -/
structure Scanner where
  cursor : Cursor
  indent : Int
  outerIndents : List Int
  keyAllowed : Bool
  candidates : List (Option Candidate)
  queue : List Token
  taken : Nat
deriving Repr

namespace Scanner

def start (cs : List Char) : Scanner :=
  { cursor := .start cs, indent := -1, outerIndents := [], keyAllowed := true,
    candidates := [none], queue := [], taken := 0 }

/-- Whether the scanner is inside a flow collection. -/
def inFlow (s : Scanner) : Bool := 1 < s.candidates.length

def push (s : Scanner) (t : Token) : Scanner := { s with queue := s.queue ++ [t] }

/-- Puts a token in front of the token with a number. -/
def pushBefore (s : Scanner) (number : Nat) (t : Token) : Scanner :=
  let k := number - s.taken
  { s with queue := s.queue.take k ++ t :: s.queue.drop k }

def goto (s : Scanner) (c : Cursor) : Scanner := { s with cursor := c }

/-! ## Candidates -/

/-- Whether a candidate is too far back to be a key any more. -/
def isStale (c : Cursor) (k : Candidate) : Bool := k.line < c.line || k.index + 1024 < c.index

/-- Drops the candidates that have become stale; a required one must not. -/
def dropStale (s : Scanner) : Option Scanner :=
  let stale (k : Option Candidate) : Bool := k.any (isStale s.cursor)
  if s.candidates.any fun k => stale k && k.any (·.required) then none
  else some { s with candidates := s.candidates.map fun k => if stale k then none else k }

/-- Drops the candidate of the innermost level; a required one must not be dropped. -/
def dropCandidate (s : Scanner) : Option Scanner :=
  match s.candidates with
  | some k :: rest => if k.required then none else some { s with candidates := none :: rest }
  | _ => some s

/-- Makes the next token a candidate, where a key may stand. -/
def addCandidate (s : Scanner) : Option Scanner :=
  if !s.keyAllowed then some s
  else do
    let k : Candidate :=
      { token := s.taken + s.queue.length, index := s.cursor.index, line := s.cursor.line,
        column := s.cursor.column, required := !s.inFlow && s.indent == s.cursor.column }
    let s ← s.dropCandidate
    some { s with candidates := some k :: s.candidates.tail }

/-! ## Indentation -/

/-- Opens a block collection at a column to the right of the innermost one. -/
def openBlock (s : Scanner) (column : Nat) (put : Scanner → Scanner) : Scanner :=
  if s.inFlow || (column : Int) ≤ s.indent then s
  else put { s with indent := column, outerIndents := s.indent :: s.outerIndents }

/-- Closes the block collections to the right of a column. -/
def closeBlocks (column : Int) (s : Scanner) : Scanner :=
  if s.inFlow then s else go (s.outerIndents.length + 1) s
where
  /-- One collection after the other, from the inside. -/
  go : Nat → Scanner → Scanner
    | 0, s => s
    | fuel + 1, s =>
      if s.indent ≤ column then s
      else
        go fuel
          { s with queue := s.queue ++ [.blockEnd], indent := s.outerIndents.headD (-1),
                   outerIndents := s.outerIndents.tail }

/-! ## Blanks and comments -/

/-- Past blanks, comments and line breaks. A tab counts as blank where no key may stand. -/
def skipBlanks : Nat → Scanner → Scanner
  | 0, s => s
  | fuel + 1, s =>
    let c := if s.cursor.index == 0 && s.cursor.at? '\ufeff' then s.cursor.skip 1 else s.cursor
    let tabs := s.inFlow || !s.keyAllowed
    let c := c.skipWhile fun x => x == ' ' || (tabs && x == '\t')
    let c := if c.at? '#' then c.skipLine else c
    if c.atBreak then
      skipBlanks fuel { s with cursor := c.skipBreak, keyAllowed := s.keyAllowed || !s.inFlow }
    else s.goto c

/-! ## Directives, anchors and tags -/

/-- Percent-escaped bytes of one character. The first byte says how many there are. -/
def readPercent : Nat → Nat → Bytes → Cursor → Option (Bytes × Cursor)
  | 0, _, bytes, c => some (bytes, c)
  | fuel + 1, wanted, bytes, c =>
    match c.ahead with
    | '%' :: a :: b :: _ =>
      if !isHexDigit a || !isHexDigit b then none
      else
        let n := hexValue a * 16 + hexValue b
        let width :=
          if wanted ≠ 0 then (if n / 0x40 = 2 then wanted else 0)
          else if n < 0x80 then 1
          else if n / 0x20 = 6 then 2
          else if n / 0x10 = 14 then 3
          else if n / 0x08 = 30 then 4
          else 0
        if width = 0 then none
        else if width = 1 then some (bytes ++ [UInt8.ofNat n], c.skip 3)
        else readPercent fuel (width - 1) (bytes ++ [UInt8.ofNat n]) (c.skip 3)
    | _ => none

/-- The characters of a tag after its handle. Inside angle brackets a few more are allowed. -/
def isTagChar (verbatim : Bool) (x : Char) : Bool :=
  isWordChar x || ";/?:@&=+$.%!~*'()".toList.contains x
    || (verbatim && (x == ',' || x == '[' || x == ']'))

/-- The characters of a tag that come next, percent escapes decoded. -/
def readTagChars (verbatim : Bool) : Nat → Bytes → Cursor → Option (Bytes × Cursor)
  | 0, bytes, c => some (bytes, c)
  | fuel + 1, bytes, c =>
    match c.ahead with
    | [] => some (bytes, c)
    | x :: _ =>
      if !isTagChar verbatim x then some (bytes, c)
      else if x == '%' then do
        let (more, after) ← readPercent 4 0 [] c
        readTagChars verbatim fuel (bytes ++ more) after
      else readTagChars verbatim fuel (bytes ++ Utf8.encodeChar x) (c.skip 1)

/-- The handle of a tag: an exclamation mark, or a word between two. In a directive only the single
mark may lack the second one. -/
def readHandle (directive : Bool) (c : Cursor) : Option (List Char × Cursor) :=
  if !c.at? '!' then none
  else
    let word := (c.skip 1).ahead.takeWhile isWordChar
    let after := (c.skip 1).skip word.length
    if after.at? '!' then some ('!' :: word ++ ['!'], after.skip 1)
    else if directive && !word.isEmpty then none
    else some ('!' :: word, after)

/-- A tag: verbatim between angle brackets, with a handle of two marks, or with the single mark. -/
def readTag (inFlow : Bool) (c : Cursor) : Option (TagName × Cursor) := do
  let (name, after) ←
    if c.peek 1 == some '<' then do
      let (uri, after) ← readTagChars true c.ahead.length [] (c.skip 2)
      if uri.isEmpty || !after.at? '>' then none
      else some (TagName.mk "" uri, after.skip 1)
    else do
      let (handle, after) ← readHandle false c
      if 1 < handle.length && handle.getLast? == some '!' then do
        let (rest, after) ← readTagChars false c.ahead.length [] after
        if rest.isEmpty then none else some (TagName.mk (String.ofList handle) rest, after)
      else do
        let (rest, after) ←
          readTagChars false c.ahead.length (Utf8.encodeChars handle.tail) after
        if rest.isEmpty then some (TagName.mk "" [0x21], after)
        else some (TagName.mk "!" rest, after)
  if after.blankOrEnd 0 || (inFlow && after.at? ',') then some (name, after) else none

/-- The name of an anchor or alias, which must be followed by a blank or one of a few marks. -/
def readName (c : Cursor) : Option (String × Cursor) :=
  let word := c.ahead.takeWhile isWordChar
  let after := c.skip word.length
  let ends := after.blankOrEnd 0
    || after.ahead.head?.any fun x => "?:,]\x7d%@".toList.contains x || x == '\x60'
  if word.isEmpty || !ends then none else some (String.ofList word, after)

/-- A number of at most nine digits. -/
def readVersionNumber (c : Cursor) : Option (Nat × Cursor) :=
  let ds := c.ahead.takeWhile Char.isDigit
  if ds.isEmpty || 9 < ds.length then none
  else some (ds.foldl (fun n d => n * 10 + (d.toNat - 48)) 0, c.skip ds.length)

/-- A directive after its percent sign, through its line break. -/
def readDirective (c : Cursor) : Option (Token × Cursor) := do
  let word := c.ahead.takeWhile isWordChar
  let c := c.skip word.length
  if word.isEmpty || !c.blankOrEnd 0 then none
  else do
    let c := c.skipWhile isSpaceOrTab
    let (token, c) ←
      if String.ofList word == "YAML" then do
        let (major, c) ← readVersionNumber c
        if !c.at? '.' then none
        else do
          let (minor, c) ← readVersionNumber (c.skip 1)
          some (Token.version major minor, c)
      else if String.ofList word == "TAG" then do
        let (handle, c) ← readHandle true c
        if !c.atSpaceOrTab then none
        else do
          let c := c.skipWhile isSpaceOrTab
          let (start, c) ← readTagChars true c.ahead.length [] c
          if start.isEmpty || !c.blankOrEnd 0 then none
          else some (Token.tagDirective (String.ofList handle) start, c)
      else none
    let c := c.skipWhile isSpaceOrTab
    let c := if c.at? '#' then c.skipLine else c
    if !c.breakOrEnd then none else some (token, c.skipBreak)

/-! ## One token -/

/-- The end of the text, which ends its last line too. -/
def takeEnd (s : Scanner) : Option Scanner := do
  let c := s.cursor
  let c := if c.column == 0 then c else { c with line := c.line + 1, column := 0 }
  let s ← ((s.goto c).closeBlocks (-1)).dropCandidate
  some ({ s with keyAllowed := false }.push .streamEnd)

/-- A token that ends all block collections: a directive or a document marker. -/
def takeTopLevel (s : Scanner) (read : Cursor → Option (Token × Cursor)) : Option Scanner := do
  let s ← (s.closeBlocks (-1)).dropCandidate
  let (t, c) ← read s.cursor
  some ({ s with keyAllowed := false, cursor := c }.push t)

def takeFlowStart (s : Scanner) (t : Token) : Option Scanner := do
  let s ← s.addCandidate
  some ({ s with candidates := none :: s.candidates, keyAllowed := true,
                 cursor := s.cursor.skip 1 }.push t)

def takeFlowEnd (s : Scanner) (t : Token) : Option Scanner := do
  let s ← s.dropCandidate
  let candidates := if s.inFlow then s.candidates.tail else s.candidates
  some ({ s with candidates := candidates, keyAllowed := false,
                 cursor := s.cursor.skip 1 }.push t)

/-- The comma between the entries of a flow collection. -/
def takeFlowEntry (s : Scanner) : Option Scanner := do
  let s ← s.dropCandidate
  some ({ s with keyAllowed := true, cursor := s.cursor.skip 1 }.push .flowEntry)

def takeBlockEntry (s : Scanner) : Option Scanner :=
  if !s.inFlow && !s.keyAllowed then none
  else do
    let s := s.openBlock s.cursor.column (·.push .blockSequenceStart)
    let s ← s.dropCandidate
    some ({ s with keyAllowed := true, cursor := s.cursor.skip 1 }.push .blockEntry)

/-- The question mark of a written-out key. -/
def takeKey (s : Scanner) : Option Scanner :=
  if !s.inFlow && !s.keyAllowed then none
  else do
    let s := s.openBlock s.cursor.column (·.push .blockMappingStart)
    let s ← s.dropCandidate
    some ({ s with keyAllowed := !s.inFlow, cursor := s.cursor.skip 1 }.push .key)

/-- The colon of a mapping value. It settles the candidate of its level. -/
def takeValue (s : Scanner) : Option Scanner :=
  match s.candidates with
  | some k :: rest =>
    let s := s.pushBefore k.token .key
    let s := s.openBlock k.column (·.pushBefore k.token .blockMappingStart)
    some ({ s with candidates := none :: rest, keyAllowed := false,
                   cursor := s.cursor.skip 1 }.push .value)
  | _ =>
    if !s.inFlow && !s.keyAllowed then none
    else
      let s := s.openBlock s.cursor.column (·.push .blockMappingStart)
      some ({ s with keyAllowed := !s.inFlow, cursor := s.cursor.skip 1 }.push .value)

/-- A token that may be a key or part of one. -/
def takeNode (s : Scanner) (read : Cursor → Option (Token × Cursor)) : Option Scanner := do
  let s ← s.addCandidate
  let (t, c) ← read s.cursor
  some ({ s with keyAllowed := false, cursor := c }.push t)

def takeBlockScalar (s : Scanner) (folded : Bool) : Option Scanner := do
  let s ← s.dropCandidate
  let (text, c) ← readBlock folded s.indent (s.cursor.skip 1)
  some ({ s with keyAllowed := true, cursor := c }.push (.scalar (String.ofList text) false))

/-- A plain scalar. A key may stand after it when a line break has come. -/
def takePlain (s : Scanner) : Option Scanner := do
  let s ← s.addCandidate
  let (text, broken, c) ←
    readPlain s.inFlow (s.indent + 1).toNat (s.cursor.ahead.length + 1) [] {} s.cursor
  some ({ s with keyAllowed := broken, cursor := c }.push (.scalar (String.ofList text) true))

/-- Whether a plain scalar can start with `x`, given what stands after it. -/
def startsPlain (inFlow : Bool) (x : Char) (next : Option Char) : Bool :=
  let blankNext := next.all fun y => isSpaceOrTab y || isBreak y
  let indicator := "-?:,[]\x7b\x7d#&*!|>'\"%@".toList.contains x || x == '\x60'
  if isSpaceOrTab x then false
  else if !indicator then true
  else if x == '-' then !(next.any isSpaceOrTab)
  else !inFlow && (x == '?' || x == ':') && !blankNext

/-- The token that starts at the character `x`. -/
def takeAt (s : Scanner) (x : Char) : Option Scanner :=
  let c := s.cursor
  let marked (flow : Bool) := flow && s.inFlow || c.blankOrEnd 1
  if c.column == 0 && x == '%' then s.takeTopLevel fun c => readDirective (c.skip 1)
  else if c.atMarker '-' then s.takeTopLevel fun c => some (.documentStart, c.skip 3)
  else if c.atMarker '.' then s.takeTopLevel fun c => some (.documentEnd, c.skip 3)
  else if x == '[' then s.takeFlowStart .flowSequenceStart
  else if x == '\x7b' then s.takeFlowStart .flowMappingStart
  else if x == ']' then s.takeFlowEnd .flowSequenceEnd
  else if x == '\x7d' then s.takeFlowEnd .flowMappingEnd
  else if x == ',' then s.takeFlowEntry
  else if x == '-' && marked false then s.takeBlockEntry
  else if x == '?' && marked true then s.takeKey
  else if x == ':' && marked true then s.takeValue
  else if x == '*' then
    s.takeNode fun c => (readName (c.skip 1)).map fun (n, c) => (.alias n, c)
  else if x == '&' then
    s.takeNode fun c => (readName (c.skip 1)).map fun (n, c) => (.anchor n, c)
  else if x == '!' then
    s.takeNode fun c => (readTag s.inFlow c).map fun (t, c) => (.tag t, c)
  else if x == '|' && !s.inFlow then s.takeBlockScalar false
  else if x == '>' && !s.inFlow then s.takeBlockScalar true
  else if x == '\'' || x == '"' then
    s.takeNode fun c =>
      (readQuoted (x == '\'') (c.ahead.length + 1) [] (c.skip 1)).map fun (text, c) =>
        (.scalar (String.ofList text) false, c)
  else if startsPlain s.inFlow x (c.peek 1) then s.takePlain
  else none

def take (s : Scanner) : Option Scanner := do
  let s ← (s.skipBlanks (s.cursor.ahead.length + 1)).dropStale
  let s := s.closeBlocks s.cursor.column
  match s.cursor.ahead with
  | [] => s.takeEnd
  | x :: _ => s.takeAt x

/-- Whether the first token of the queue may still turn out to be a key. -/
def unsettled (s : Scanner) : Bool :=
  s.queue.isEmpty || s.candidates.any fun k => k.any (·.token == s.taken)

/-- Cuts tokens until the first one is settled. -/
def more : Nat → Scanner → Option Scanner
  | 0, s => some s
  | fuel + 1, s =>
    if s.queue.isEmpty then s.take.bind (more fuel)
    else do
      let s ← s.dropStale
      if s.unsettled then s.take.bind (more fuel) else some s

/-- The first token, and the scanner that has it settled. -/
def peek (s : Scanner) : Option (Token × Scanner) := do
  let s ← s.more (s.cursor.ahead.length + 2)
  match s.queue with
  | [] => none
  | t :: _ => some (t, s)

def drop (s : Scanner) : Scanner := { s with queue := s.queue.tail, taken := s.taken + 1 }

end Scanner

end PowerBench.Yaml
