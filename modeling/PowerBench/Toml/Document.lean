import PowerBench.Entries
import PowerBench.Toml.Scalar

/-!
# TOML documents

A document is lines: entries of the current table, and headers that open another one. Every table is
written in one place only. A table that exists just because a header or a dotted key goes through it
is *implicit*; a header may still open an implicit table that no dotted key has made, and entries of
one that a dotted key has made are added by dotted keys only. `Value` is what is left when the
document is complete.
-/

set_option autoImplicit false

namespace PowerBench.Toml

/-- A finished value. The entries of a table are in key order. -/
inductive Value where
  | scalar (s : Scalar)
  | array (items : List Value)
  | table (entries : List (String × Value))
deriving Repr, Inhabited

/-- How a table came to be. -/
inductive Origin where
  | header
  | throughHeader
  | throughDotted
  | inline
deriving DecidableEq, Repr

/-- A value in a document that is being read. -/
inductive Item where
  | scalar (s : Scalar)
  | array (items : List Item)
  | tables (items : List (List (String × Item)))
  | table (origin : Origin) (entries : List (String × Item))
deriving Repr, Inhabited

/-- The entries of a table in a document that is being read. -/
abbrev Items := List (String × Item)

/-! ## Finished values -/

mutual

def Item.finish : Item → Value
  | .scalar s => .scalar s
  | .array items => .array (finishItems items)
  | .tables items => .array (finishTables items)
  | .table _ entries => .table (Entries.ofList (finishEntries entries))

def finishItems : List Item → List Value
  | [] => []
  | i :: is => i.finish :: finishItems is

def finishTables : List (List (String × Item)) → List Value
  | [] => []
  | t :: ts => .table (Entries.ofList (finishEntries t)) :: finishTables ts

def finishEntries : List (String × Item) → List (String × Value)
  | [] => []
  | (k, i) :: rest => (k, i.finish) :: finishEntries rest

end

/-! ## Tables -/

def item? (key : String) (t : Items) : Option Item := (t.find? (·.1 == key)).map (·.2)

def setItem (key : String) (i : Item) : Items → Items
  | [] => [(key, i)]
  | (k, old) :: rest => if k == key then (k, i) :: rest else (k, old) :: setItem key i rest

def addItem? (key : String) (i : Item) (t : Items) : Option Items :=
  if (item? key t).isSome then none else some (t ++ [(key, i)])

/-- Adds an entry with a dotted key. The table that gets it is new or was made by dotted keys; the
tables on the way there may also be ones that a header goes through. -/
def addDotted? (value : Item) (last : String) : List String → Items → Option Items
  | [], t => addItem? last value t
  | key :: path, t =>
    match item? key t with
    | none => (addDotted? value last path []).map fun inner =>
        t ++ [(key, .table .throughDotted inner)]
    | some (.table .throughDotted inner) =>
      (addDotted? value last path inner).map fun inner =>
        setItem key (.table .throughDotted inner) t
    | some (.table .throughHeader inner) =>
      if path.isEmpty then none
      else (addDotted? value last path inner).map fun inner =>
        setItem key (.table .throughHeader inner) t
    | some (.tables tables) =>
      match path, tables.reverse with
      | _ :: _, newest :: older =>
        (addDotted? value last path newest).map fun newest =>
          setItem key (.tables (newest :: older).reverse) t
      | _, _ => none
    | some _ => none

/-- Changes the table that a header's path leads to. The last of an array of tables stands for it,
and missing tables are made. -/
def alter? (change : Items → Option Items) : List String → Items → Option Items
  | [], t => change t
  | key :: path, t =>
    match item? key t with
    | none => (alter? change path []).map fun inner => t ++ [(key, .table .throughHeader inner)]
    | some (.table .inline _) => none
    | some (.table origin inner) =>
      (alter? change path inner).map fun inner => setItem key (.table origin inner) t
    | some (.tables tables) =>
      match tables.reverse with
      | [] => none
      | newest :: older =>
        (alter? change path newest).map fun newest =>
          setItem key (.tables (newest :: older).reverse) t
    | some _ => none

/-- Opens the table of a header in the table that holds it. -/
def openTable? (key : String) (t : Items) : Option Items :=
  match item? key t with
  | none => some (t ++ [(key, .table .header [])])
  | some (.table .throughHeader inner) => some (setItem key (.table .header inner) t)
  | some _ => none

/-- Adds a table to the array of tables of a header. -/
def openElement? (key : String) (t : Items) : Option Items :=
  match item? key t with
  | none => some (t ++ [(key, .tables [[]])])
  | some (.tables tables) => some (setItem key (.tables (tables ++ [[]])) t)
  | some _ => none

/-! ## Keys -/

/-- A character of a key without quotes. -/
def isKeyChar (c : Char) : Bool := c.isAlphanum || c == '_' || c == '-'

def keyPart? : List Char → Option (String × List Char)
  | '"' :: cs => (lineString? '"' (cs.length + 1) cs).map fun (s, r) => (String.ofList s, r)
  | '\'' :: cs => (lineString? '\'' (cs.length + 1) cs).map fun (s, r) => (String.ofList s, r)
  | cs =>
    let word := cs.takeWhile isKeyChar
    if word.isEmpty then none else some (String.ofList word, cs.drop word.length)

/-- A key: parts with dots between them and blanks around. -/
def key? : Nat → List Char → Option (List String × List Char)
  | 0, _ => none
  | fuel + 1, cs => do
    let (part, rest) ← keyPart? (skipBlanks cs)
    match skipBlanks rest with
    | '.' :: more => (key? fuel more).map fun (parts, rest) => (part :: parts, rest)
    | rest => some ([part], rest)

/-- The parts of a key before the last, and the last. -/
def splitLast (parts : List String) : List String × String :=
  (parts.dropLast, parts.getLastD "")

/-! ## Values -/

/-- The items of an array after its bracket or a comma, up to the closing bracket. -/
def arrayItems (value : List Char → Option (Item × List Char)) :
    Nat → List Char → Option (List Item × List Char)
  | 0, _ => none
  | fuel + 1, cs =>
    match skipTrivia cs.length cs with
    | ']' :: rest => some ([], rest)
    | cs => do
      let (item, rest) ← value cs
      match skipTrivia rest.length rest with
      | ']' :: rest => some ([item], rest)
      | ',' :: rest => (arrayItems value fuel rest).map fun (items, rest) => (item :: items, rest)
      | _ => none

/-- The entries of an inline table after its brace or a comma, up to the closing brace. -/
def inlineEntries (value : List Char → Option (Item × List Char)) :
    Nat → Items → List Char → Option (Items × List Char)
  | 0, _, _ => none
  | fuel + 1, t, cs =>
    match skipTrivia cs.length cs with
    | '\x7d' :: rest => some (t, rest)
    | cs => do
      let (parts, rest) ← key? cs.length cs
      match rest with
      | '=' :: rest => do
        let (item, rest) ← value (skipBlanks rest)
        let (path, last) := splitLast parts
        let t ← addDotted? item last path t
        match skipTrivia rest.length rest with
        | '\x7d' :: rest => some (t, rest)
        | ',' :: rest => inlineEntries value fuel t rest
        | _ => none
      | _ => none

/-- A value; collections may nest `depth` levels deep. -/
def value? : Nat → List Char → Option (Item × List Char)
  | depth, cs =>
    match depth, cs with
    | 0, '[' :: _ => none
    | 0, '\x7b' :: _ => none
    | depth + 1, '[' :: rest =>
      (arrayItems (value? depth) (rest.length + 1) rest).map fun (items, rest) =>
        (.array items, rest)
    | depth + 1, '\x7b' :: rest =>
      (inlineEntries (value? depth) (rest.length + 1) [] rest).map fun (t, rest) =>
        (.table .inline t, rest)
    | _, '"' :: _ => (string? cs).map fun (s, rest) => (.scalar (.string s), rest)
    | _, '\'' :: _ => (string? cs).map fun (s, rest) => (.scalar (.string s), rest)
    | _, cs => (readWord? cs).map fun (s, rest) => (.scalar s, rest)

/-- The deepest nesting of arrays and inline tables. -/
def maxDepth : Nat := 80

/-! ## Lines -/

/-- A document between two lines: its root table, and the path of the table that entries go to. -/
structure Draft where
  root : Items := []
  path : List String := []

def Draft.addEntry? (d : Draft) (parts : List String) (value : Item) : Option Draft :=
  let (path, last) := splitLast parts
  (alter? (addDotted? value last path) d.path d.root).map fun root => { d with root := root }

/-- A header that opens a table, or adds one to an array of tables. -/
def Draft.openHeader? (d : Draft) (isArray : Bool) (parts : List String) : Option Draft :=
  let (path, last) := splitLast parts
  (alter? (if isArray then openElement? last else openTable? last) path d.root).map fun root =>
    { root := root, path := parts }

/-- A header after its brackets, up to the closing ones. -/
def header? (isArray : Bool) (cs : List Char) : Option (List String × List Char) := do
  let (parts, rest) ← key? cs.length cs
  match isArray, rest with
  | false, ']' :: rest => some (parts, rest)
  | true, ']' :: ']' :: rest => some (parts, rest)
  | _, _ => none

def lines? : Nat → Draft → List Char → Option Draft
  | 0, _, _ => none
  | fuel + 1, d, cs =>
    match skipTrivia cs.length cs with
    | [] => some d
    | '[' :: '[' :: rest => do
      let (parts, rest) ← header? true rest
      let d ← d.openHeader? true parts
      let rest ← endLine? rest
      lines? fuel d rest
    | '[' :: rest => do
      let (parts, rest) ← header? false rest
      let d ← d.openHeader? false parts
      let rest ← endLine? rest
      lines? fuel d rest
    | cs => do
      let (parts, rest) ← key? cs.length cs
      match rest with
      | '=' :: rest => do
        let (value, rest) ← value? maxDepth (skipBlanks rest)
        let d ← d.addEntry? parts value
        let rest ← endLine? rest
        lines? fuel d rest
      | _ => none

/-- The entries of a well-formed document, in key order. A byte order mark in front is no part of
it. -/
def read? (text : String) : Option (Entries Value) :=
  let cs := text.toList
  let cs := if cs.head? == some '\ufeff' then cs.tail else cs
  (lines? (cs.length + 1) {} cs).map fun d => Entries.ofList (finishEntries d.root)

end PowerBench.Toml
