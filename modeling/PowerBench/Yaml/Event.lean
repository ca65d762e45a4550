import PowerBench.Yaml.Scanner

/-!
# YAML events

A YAML stream as the sequence of its nodes' starts and ends. `Stream.ofText` reads a text into events
up to its end or to the first fault; the events before a fault are kept, since what they say is
looked at first.
-/

set_option autoImplicit false

namespace PowerBench.Yaml

abbrev Tag := Option Bytes

/-- The start or end of a node, or a node without parts. -/
inductive Event where
  | documentStart
  | documentEnd
  | alias (name : String)
  | scalar (anchor? : Option String) (tag : Tag) (text : String) (plain : Bool)
  | sequenceStart (anchor? : Option String) (tag : Tag)
  | sequenceEnd
  | mappingStart (anchor? : Option String) (tag : Tag)
  | mappingEnd
deriving DecidableEq, Repr

/-- What the grammar expects next. -/
inductive Expect where
  | document (afterMarker : Bool)
  | content
  | documentEnd
  | blockNode
  | blockEntry
  | indentlessEntry
  | blockKey
  | blockValue
  | flowEntry (first : Bool)
  | pairKey
  | pairValue
  | pairEnd
  | flowKey (first : Bool)
  | flowValue (empty : Bool)
deriving DecidableEq, Repr

/-- A parser between two events: its scanner, what it expects next and after the nodes that are
open, and the tag handles of the document. -/
structure Parser where
  scanner : Scanner
  expect : Expect
  pending : List Expect
  handles : List (String × Bytes)
deriving Repr

namespace Parser

def peek (p : Parser) : Option (Token × Parser) :=
  p.scanner.peek.map fun (t, s) => (t, { p with scanner := s })

def drop (p : Parser) : Parser := { p with scanner := p.scanner.drop }

/-- Expects `e` next. -/
def expecting (p : Parser) (e : Expect) : Parser := { p with expect := e }

/-- Expects `e` after the node that comes next. -/
def push (p : Parser) (e : Expect) : Parser := { p with pending := e :: p.pending }

/-- Goes back to what the enclosing node expects. -/
def pop (p : Parser) : Parser :=
  { p with expect := p.pending.headD (.document true), pending := p.pending.tail }

def emptyScalar : Event := .scalar none none "" true

def standardHandles : List (String × Bytes) :=
  [("!", Utf8.encode "!"), ("!!", Utf8.encode "tag:yaml.org,2002:")]

def fullTag (p : Parser) (name : TagName) : Option Bytes :=
  if name.handle == "" then some name.rest
  else (p.handles.lookup name.handle).map (· ++ name.rest)

/-- The anchor and tag before a node, in either order. -/
def properties (p : Parser) : Option (Option String × Option TagName × Parser) := do
  let (t, p) ← p.peek
  match t with
  | .anchor a => do
    let (t, p) ← p.drop.peek
    match t with
    | .tag name => do
      let (_, p) ← p.drop.peek
      some (some a, some name, p)
    | _ => some (some a, none, p)
  | .tag name => do
    let (t, p) ← p.drop.peek
    match t with
    | .anchor a => do
      let (_, p) ← p.drop.peek
      some (some a, some name, p)
    | _ => some (none, some name, p)
  | _ => some (none, none, p)

/-- The start of a node. A block sequence that is a mapping value need not be indented. -/
def node (block indentless : Bool) (p : Parser) : Option (Event × Parser) := do
  let (t, p) ← p.peek
  match t with
  | .alias name => some (.alias name, p.drop.pop)
  | _ => do
    let (anchor?, name?, p) ← p.properties
    let tag : Tag ← match name? with
      | none => some none
      | some name => (p.fullTag name).map some
    let (t, p) ← p.peek
    match t with
    | .blockEntry =>
      if indentless then some (.sequenceStart anchor? tag, p.expecting .indentlessEntry)
      else empty anchor? tag p
    | .scalar text plain => some (.scalar anchor? tag text plain, p.drop.pop)
    | .flowSequenceStart =>
      some (.sequenceStart anchor? tag, p.drop.expecting (.flowEntry true))
    | .flowMappingStart => some (.mappingStart anchor? tag, p.drop.expecting (.flowKey true))
    | .blockSequenceStart =>
      if block then some (.sequenceStart anchor? tag, p.drop.expecting .blockEntry)
      else empty anchor? tag p
    | .blockMappingStart =>
      if block then some (.mappingStart anchor? tag, p.drop.expecting .blockKey)
      else empty anchor? tag p
    | _ => empty anchor? tag p
where
  /-- A node of which only the anchor or the tag is written. -/
  empty (anchor? : Option String) (tag : Tag) (p : Parser) : Option (Event × Parser) :=
    if anchor?.isSome || tag.isSome then some (.scalar anchor? tag "" true, p.pop) else none

/-- A node followed by `next`, or an empty scalar where one of the tokens `stops` comes. -/
def nodeOr (stops : List Token) (block indentless : Bool) (next : Expect) (p : Parser) :
    Option (Event × Parser) := do
  let (t, p) ← p.peek
  if stops.contains t then some (emptyScalar, p.expecting next)
  else (p.push next).node block indentless

/-- The directives before a document: at most one version, which is 1.1 or 1.2, and each handle
once. -/
def directives : Nat → Bool → List (String × Bytes) → Parser →
    Option (List (String × Bytes) × Parser)
  | 0, _, _, _ => none
  | fuel + 1, versioned, handles, p => do
    let (t, p) ← p.peek
    match t with
    | .version major minor =>
      if versioned || major != 1 || (minor != 1 && minor != 2) then none
      else directives fuel true handles p.drop
    | .tagDirective handle start =>
      if handles.any (·.1 == handle) then none
      else directives fuel versioned (handles ++ [(handle, start)]) p.drop
    | _ => some (handles, p)

def dropDocumentEnds : Nat → Parser → Option Parser
  | 0, p => some p
  | fuel + 1, p => do
    let (t, p) ← p.peek
    if t == .documentEnd then dropDocumentEnds fuel p.drop else some p

def bound (p : Parser) : Nat := p.scanner.cursor.ahead.length + p.scanner.queue.length + 2

/-- The start of a document, or nothing at the end of the stream. Only the first document may begin
without a marker. -/
def document (afterMarker : Bool) (p : Parser) : Option (Option Event × Parser) := do
  let p ← if afterMarker then p.dropDocumentEnds p.bound else some p
  let (t, p) ← p.peek
  let explicit := match t with
    | .version _ _ => true
    | .tagDirective _ _ => true
    | .documentStart => true
    | .streamEnd => true
    | _ => false
  if !afterMarker && !explicit then
    some (some .documentStart,
      { (p.push .documentEnd).expecting .blockNode with handles := standardHandles })
  else if t == .streamEnd then some (none, p)
  else do
    let (handles, p) ← p.directives p.bound false []
    let (t, p) ← p.peek
    if t != .documentStart then none
    else
      some (some .documentStart,
        { (p.drop.push .documentEnd).expecting .content with handles := handles ++ standardHandles })

/-- The next event, or nothing at the end of the stream. -/
def next (p : Parser) : Option (Option Event × Parser) :=
  let event (r : Option (Event × Parser)) : Option (Option Event × Parser) :=
    r.map fun (e, p) => (some e, p)
  match p.expect with
  | .document afterMarker => p.document afterMarker
  | .content => do
    let (t, p) ← p.peek
    let bare := match t with
      | .version _ _ => true
      | .tagDirective _ _ => true
      | .documentStart => true
      | .documentEnd => true
      | .streamEnd => true
      | _ => false
    if bare then some (some emptyScalar, p.pop) else event (p.node true false)
  | .documentEnd => do
    let (t, p) ← p.peek
    let p := if t == .documentEnd then p.drop else p
    some (some .documentEnd, p.expecting (.document true))
  | .blockNode => event (p.node true false)
  | .blockEntry => do
    let (t, p) ← p.peek
    match t with
    | .blockEntry =>
      event (p.drop.nodeOr [.blockEntry, .blockEnd] true false .blockEntry)
    | .blockEnd => some (some .sequenceEnd, p.drop.pop)
    | _ => none
  | .indentlessEntry => do
    let (t, p) ← p.peek
    match t with
    | .blockEntry =>
      event (p.drop.nodeOr [.blockEntry, .key, .value, .blockEnd] true false .indentlessEntry)
    | _ => some (some .sequenceEnd, p.pop)
  | .blockKey => do
    let (t, p) ← p.peek
    match t with
    | .key => event (p.drop.nodeOr [.key, .value, .blockEnd] true true .blockValue)
    | .blockEnd => some (some .mappingEnd, p.drop.pop)
    | _ => none
  | .blockValue => do
    let (t, p) ← p.peek
    match t with
    | .value => event (p.drop.nodeOr [.key, .value, .blockEnd] true true .blockKey)
    | _ => some (some emptyScalar, p.expecting .blockKey)
  | .flowEntry first => do
    let (t, p) ← p.peek
    let (t, p) ←
      if first || t == .flowSequenceEnd then some (t, p)
      else if t == .flowEntry then p.drop.peek
      else none
    match t with
    | .flowSequenceEnd => some (some .sequenceEnd, p.drop.pop)
    | .key => some (some (.mappingStart none none), p.drop.expecting .pairKey)
    | _ => event ((p.push (.flowEntry false)).node false false)
  | .pairKey => do
    let (t, p) ← p.peek
    if t == .value || t == .flowEntry || t == .flowSequenceEnd then
      some (some emptyScalar, p.drop.expecting .pairValue)
    else event ((p.push .pairValue).node false false)
  | .pairValue => do
    let (t, p) ← p.peek
    if t == .value then
      event (p.drop.nodeOr [.flowEntry, .flowSequenceEnd] false false .pairEnd)
    else some (some emptyScalar, p.expecting .pairEnd)
  | .pairEnd => some (some .mappingEnd, p.expecting (.flowEntry false))
  | .flowKey first => do
    let (t, p) ← p.peek
    let (t, p) ←
      if first || t == .flowMappingEnd then some (t, p)
      else if t == .flowEntry then p.drop.peek
      else none
    match t with
    | .flowMappingEnd => some (some .mappingEnd, p.drop.pop)
    | .key =>
      event (p.drop.nodeOr [.value, .flowEntry, .flowMappingEnd] false false (.flowValue false))
    | _ => event ((p.push (.flowValue true)).node false false)
  | .flowValue empty => do
    let (t, p) ← p.peek
    if empty then some (some emptyScalar, p.expecting (.flowKey false))
    else if t == .value then
      event (p.drop.nodeOr [.flowEntry, .flowMappingEnd] false false (.flowKey false))
    else some (some emptyScalar, p.expecting (.flowKey false))

/-- All events up to the end of the stream or the first fault, and whether there was one. -/
def events : Nat → Parser → List Event × Bool
  | 0, _ => ([], true)
  | fuel + 1, p =>
    match p.next with
    | none => ([], true)
    | some (none, _) => ([], false)
    | some (some e, p) =>
      let (es, fault) := events fuel p
      (e :: es, fault)

end Parser

/-- The events of a stream, cut short at its first fault if it has one. -/
structure Stream where
  events : List Event
  malformed : Bool
deriving Repr

/-- The events of a text. A character that a stream cannot hold spoils it from the start; a byte
order mark in front is no part of it. -/
def Stream.ofText (cs : List Char) : Stream :=
  let cs := if cs.head? == some '\ufeff' then cs.tail else cs
  if !cs.all isStreamChar then ⟨[], true⟩
  else
    let p : Parser :=
      { scanner := .start cs, expect := .document false, pending := [], handles := [] }
    let (events, malformed) := p.events (8 * cs.length + 16)
    ⟨events, malformed⟩

end PowerBench.Yaml
