import PowerBench.Log.Filter
import PowerBench.Text.Ascii
import PowerBench.Text.Blank
import PowerBench.Text.Numeral

/-!
# Filters made of directives

A language of filters for running the program. A text is a list of directives between commas, such as
`warn,bits_client=debug`. A directive names a target, by the start of its name, a span with a field
between brackets, and a level. An entry is ruled by the most specific directive that fits it: the one
with the longest target, then with the most fields. No span is ever open here, so a directive that names
a span rules nothing. What cannot be judged without more of the language is refused: a target that
starts outside ASCII, and the value of a field with any character that patterns give a meaning.
-/

set_option autoImplicit false

namespace PowerBench.Log

/-- The level up to which entries pass; `none` lets nothing pass. -/
abbrev Limit := Option Level

namespace Limit

def admits (limit : Limit) (level : Level) : Bool :=
  match limit with
  | some most => level.rank ≤ most.rank
  | none => false

def ofNat? : Nat → Option Limit
  | 0 => some none
  | 1 => some (some .error)
  | 2 => some (some .warn)
  | 3 => some (some .info)
  | 4 => some (some .debug)
  | 5 => some (some .trace)
  | _ => none

def ofWord? (word : String) : Option Limit :=
  match lowerAscii word with
  | "off" => some none
  | "error" => some (some .error)
  | "warn" => some (some .warn)
  | "info" => some (some .info)
  | "debug" => some (some .debug)
  | "trace" => some (some .trace)
  | _ => none

def read? (cs : List Char) : Option Limit :=
  match readUInt64 cs with
  | .ok n => ofNat? n
  | .error _ => ofWord? (String.ofList cs)

end Limit

/-- A test on a field: that it is there, or that it has a value. -/
structure FieldTest where
  name : String
  hasValue : Bool
deriving DecidableEq, Repr

/-- One directive of a filter text. -/
structure Directive where
  target? : Option String
  span? : Option String
  tests : List FieldTest
  limit : Limit
deriving DecidableEq, Repr

namespace Directive

def isTargetStart (c : Char) : Bool := c.isAlphanum || c == '-' || c == ':' || c == '_'

/-- The characters of the values of fields. -/
def isPlain (c : Char) : Bool := isTargetStart c || c == '.' || c == '/' || c == ' '

/-- The limit after an equals sign; nothing there lets everything pass. -/
def limitAfterEquals (cs : List Char) : Option Limit :=
  if cs.isEmpty then some (some .trace) else Limit.read? cs

/-- What may stand after the brackets: nothing, or an equals sign and a limit. -/
def afterSpan : List Char → Option Limit
  | [] => some (some .trace)
  | '=' :: cs => limitAfterEquals cs
  | _ => none

/-- The test between braces; what follows a second equals sign does not count. -/
def fieldTest? (cs : List Char) : Option FieldTest :=
  let name := cs.takeWhile (· != '=')
  let value := (cs.drop (name.length + 1)).takeWhile (· != '=')
  if cs.isEmpty || !value.all isPlain then none
  else some { name := String.ofList name, hasValue := cs.contains '=' }

/-- The part of a directive that begins after an opening bracket. -/
def readSpan? (target? : Option String) (cs : List Char) : Option Directive :=
  let name := cs.takeWhile fun c => c != ']' && c != '\x7b'
  match cs.drop name.length with
  | ']' :: rest => do
    let limit ← afterSpan rest
    pure { target? := target?, span? := some (String.ofList name), tests := [], limit := limit }
  | '\x7b' :: rest =>
    let field := rest.takeWhile (· != '\x7d')
    match rest.drop field.length with
    | '\x7d' :: ']' :: rest => do
      let test ← fieldTest? field
      let limit ← afterSpan rest
      pure
        { target? := target?
          span? := if name.isEmpty then none else some (String.ofList name)
          tests := [test]
          limit := limit }
    | _ => none
  | _ => none

/-- A directive that stands alone: a limit for everything, or a target of which everything passes. -/
def ofWord (cs : List Char) : Directive :=
  match Limit.read? cs with
  | some limit => { target? := none, span? := none, tests := [], limit := limit }
  | none =>
    { target? := some (String.ofList cs), span? := none, tests := [], limit := some .trace }

/-- Reads one directive, blanks at its ends ignored. -/
def read? (text : List Char) : Option Directive :=
  let cs := trimBlanks text
  match cs with
  | [] => none
  | '[' :: rest => readSpan? none rest
  | c :: _ =>
    if !isTargetStart c then none
    else
      let word := cs.takeWhile fun c => c != '=' && c != '['
      match cs.drop word.length with
      | '=' :: rest => do
        let limit ← limitAfterEquals rest
        pure { target? := some (String.ofList word), span? := none, tests := [], limit := limit }
      | '[' :: rest => readSpan? (some (String.ofList word)) rest
      | _ => some (ofWord cs)

end Directive

/-- A directive that needs no span: it rules the entries whose target starts as it says and that have
the fields it names. -/
structure Rule where
  target? : Option String
  fields : List String
  limit : Limit
deriving DecidableEq, Repr

namespace Rule

def ofDirective? (d : Directive) : Option Rule :=
  if d.span?.isSome || d.tests.any FieldTest.hasValue then none
  else some { target? := d.target?, fields := d.tests.map FieldTest.name, limit := d.limit }

def covers (r : Rule) (e : Entry) : Bool :=
  r.target?.all (fun t => t.toList.isPrefixOf e.target.toList)
    && r.fields.all fun f => f == "message" || e.fields.any (·.1 == f)

/-- The order of optional values: none comes first. -/
def compareOption {α : Type} (cmp : α → α → Ordering) : Option α → Option α → Ordering
  | none, none => .eq
  | none, some _ => .lt
  | some _, none => .gt
  | some a, some b => cmp a b

/-- The order of specificity: length of the target, number of fields, then by text. -/
def compareSpecificity (a b : Rule) : Ordering :=
  (compareOption (fun x y => compare (String.utf8ByteSize x) (String.utf8ByteSize y)) a.target? b.target?)
    |>.then (compare a.fields.length b.fields.length)
    |>.then (compareOption compare a.target? b.target?)
    |>.then (compare a.fields b.fields)

/-- Adds a rule to rules that stand most specific first; of two that cover the same the later
counts. -/
def insert (r : Rule) : List Rule → List Rule
  | [] => [r]
  | r' :: rest =>
    match compareSpecificity r r' with
    | .gt => r :: r' :: rest
    | .eq => r :: rest
    | .lt => r' :: insert r rest

end Rule

/-- What the directives of a text come to: rules, most specific first. -/
structure Directives where
  rules : List Rule
deriving DecidableEq, Repr

namespace Directives

def ofList (ds : List Directive) : Directives :=
  if ds.isEmpty then ⟨[{ target? := none, fields := [], limit := some .error }]⟩
  else ⟨(ds.filterMap Rule.ofDirective?).foldl (fun rules r => Rule.insert r rules) []⟩

/-- The pieces of a text between commas. -/
def splitCommas : List Char → List (List Char)
  | [] => [[]]
  | c :: cs =>
    match splitCommas cs with
    | piece :: rest => if c = ',' then [] :: piece :: rest else (c :: piece) :: rest
    | [] => [[c]]

def read? (text : String) : Option Directives :=
  ofList <$> ((splitCommas text.toList).filter (!·.isEmpty)).mapM Directive.read?

def allows (ds : Directives) (e : Entry) : Bool :=
  match ds.rules.find? (·.covers e) with
  | some r => r.limit.admits e.level
  | none => false

def language : FilterLanguage where
  reads text := (read? text).isSome
  allows text e := (read? text).any (·.allows e)
  reads_level := by decide

end Directives

end PowerBench.Log
