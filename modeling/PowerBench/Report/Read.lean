import PowerBench.Mismatch
import PowerBench.Report.Basic
import PowerBench.Text.Blank
import PowerBench.Yaml.Node

/-!
# Reading metrics reports

A report is a YAML mapping with a sequence `data` of channels; a channel is a mapping with a `name`.
All other entries are kept as they are, so what cannot be kept is refused: a mapping among them that
has a key twice, an integer of more than 64 bits, and a value with a tag of its own. The document is
read from front to back and the first fault counts; keys that occur twice in a kept value are looked
for when the mapping that keeps it is complete.
-/

set_option autoImplicit false

namespace PowerBench.Report

open Yaml (Node Value Document Cut)

/-- Why a text is not a report. -/
inductive Fault where
  | blank
  | cut (cause : Cut)
  | shape (m : Mismatch)
  | ownTag
  | repeatedKey (key : Value)
  | severalDocuments
deriving Repr

/-- How the key of a repeated entry is named. -/
def keyText : Value → String
  | .null => "with null key"
  | .bool b => if b then "with key `true`" else "with key `false`"
  | .int n => "with key " ++ toString n
  | .float x => "with key " ++ Value.floatText x
  | .string s => "with key " ++ Quoted.quote s
  | _ => "in YAML map"

def Fault.message : Fault → String
  | .blank => "metrics dump is empty"
  | .cut .syntaxError => "syntax"
  | .cut .unknownAnchor => "unknown anchor"
  | .cut .endOfStream => "EOF while parsing a value"
  | .cut .tooDeep => "recursion limit exceeded"
  | .cut .tooManyRepetitions => "repetition limit exceeded"
  | .shape m => m.message
  | .ownTag => "untagged and internally tagged enums do not support enum input"
  | .repeatedKey key => "duplicate entry " ++ keyText key
  | .severalDocuments => "more than one document is not supported"

/-! ## Scalars -/

inductive CoreTag where
  | null
  | bool
  | int
  | float
deriving DecidableEq, Repr

def coreTag? (tag : Yaml.Tag) : Option CoreTag :=
  let isType (name : String) : Bool := tag == some (Utf8.encode ("tag:yaml.org,2002:" ++ name))
  if isType "bool" then some .bool
  else if isType "int" then some .int
  else if isType "float" then some .float
  else if isType "null" then some .null
  else none

/-- Whether a tag is the document's own, with an exclamation mark in front. -/
def isOwnTag (tag : Yaml.Tag) : Bool :=
  match tag with
  | some (0x21 :: _) => true
  | _ => false

/-- What a scalar stands for. A tag of a core type wants a text that is of this type; any other tag
but the document's own makes the scalar a text. -/
def meaning (tag : Yaml.Tag) (text : String) (plain : Bool) : Except Mismatch Yaml.Plain.Meaning :=
  match coreTag? tag with
  | some .bool =>
    match Yaml.Plain.bool? text with
    | some b => .ok (.bool b)
    | none => .error (.invalidValue (.string text) "a boolean")
  | some .int =>
    match Yaml.Plain.int? text.toList with
    | some form => .ok form.meaning
    | none => .error (.invalidValue (.string text) "an integer")
  | some .float =>
    match Yaml.Plain.float? text.toList with
    | some x => .ok (.float x)
    | none => .error (.invalidValue (.string text) "a float")
  | some .null =>
    if Yaml.Plain.isNull text then .ok .null
    else .error (.invalidValue (.string text) "null")
  | none =>
    if plain && (tag.isNone || isOwnTag tag) then .ok (Yaml.Plain.classify text)
    else .ok (.string text)

/-- How the meaning of a scalar is named where something else is wanted. -/
def found : Yaml.Plain.Meaning → Found
  | .null => .nothing
  | .bool b => .bool b
  | .int n => .int n
  | .wide n word => .wide n word
  | .float x => .float x
  | .string s => .string s

/-- The fault of a node that is not of the wanted kind. -/
def unexpected (expected : String) : Node → Fault
  | .scalar tag text plain =>
    match meaning tag text plain with
    | .error m => .shape m
    | .ok value => .shape (.invalidType (found value) expected)
  | .sequence _ _ => .shape (.invalidType .sequence expected)
  | .mapping _ _ => .shape (.invalidType .map expected)
  | .absent => .cut .endOfStream
  | .cut cause => .cut cause

/-! ## Kept values -/

def keepScalar (tag : Yaml.Tag) (text : String) (plain : Bool) : Except Fault Value :=
  if isOwnTag tag then .error .ownTag
  else
    match meaning tag text plain with
    | .error m => .error (.shape m)
    | .ok .null => .ok .null
    | .ok (.bool b) => .ok (.bool b)
    | .ok (.int n) => .ok (.int n)
    | .ok (.wide n word) => .error (.shape (.invalidType (.wide n word) "any value"))
    | .ok (.float x) => .ok (.float x)
    | .ok (.string s) => .ok (.string s)

mutual

/-- The value of a node, keys that occur twice included. -/
def keep : Node → Except Fault Value
  | .scalar tag text plain => keepScalar tag text plain
  | .sequence tag items =>
    if isOwnTag tag then .error .ownTag else (keepItems items).map .sequence
  | .mapping tag entries =>
    if isOwnTag tag then .error .ownTag else (keepEntries entries).map .mapping
  | .absent => .ok .null
  | .cut cause => .error (.cut cause)

def keepItems : List Node → Except Fault (List Value)
  | [] => .ok []
  | n :: ns => do
    let v ← keep n
    let vs ← keepItems ns
    pure (v :: vs)

def keepEntries : List (Node × Node) → Except Fault (List (Value × Value))
  | [] => .ok []
  | (k, n) :: rest => do
    let key ← keep k
    let value ← keep n
    let es ← keepEntries rest
    pure ((key, value) :: es)

end

mutual

/-- Refuses a value in which a mapping has a key twice. -/
def checkKeys : Value → Except Fault Unit
  | .sequence items => checkItems items
  | .mapping entries => checkEntries [] entries
  | .tagged _ v => checkKeys v
  | _ => .ok ()

def checkItems : List Value → Except Fault Unit
  | [] => .ok ()
  | v :: vs => do
    checkKeys v
    checkItems vs

/-- Checks the entries of a mapping after those with the keys `earlier`. -/
def checkEntries : List Value → List (Value × Value) → Except Fault Unit
  | _, [] => .ok ()
  | earlier, (k, v) :: rest => do
    checkKeys k
    match earlier.find? (·.same k) with
    | some first => .error (.repeatedKey first)
    | none => do
      checkKeys v
      checkEntries (earlier ++ [k]) rest

end

/-! ## Records -/

/-- The key of an entry of a record. -/
def fieldName : Node → Except Fault String
  | .scalar _ text _ => .ok text
  | n => .error (unexpected "field identifier" n)

/-- The entries of a record with one required field, which `read` reads, the others kept in the order
of the document. The required field must not occur twice. -/
def readEntries {α : Type} (field : String) (read : Node → Except Fault α) :
    Option α → List (Node × Node) → Except Fault (Option α × List (String × Value))
  | seen, [] => .ok (seen, [])
  | seen, (k, n) :: rest => do
    let name ← fieldName k
    if name = field then
      if seen.isSome then .error (.shape (.duplicateField field))
      else do
        let a ← read n
        readEntries field read (some a) rest
    else do
      let v ← keep n
      let (a, kept) ← readEntries field read seen rest
      pure (a, (name, v) :: kept)

/-- Kept entries by key, each checked for repeated keys; of two with one key the later counts. -/
def collect : Entries Value → List (String × Value) → Except Fault (Entries Value)
  | es, [] => .ok es
  | es, (k, v) :: rest => do
    checkKeys v
    collect (es.insert k v) rest

/-- A record with one required field: that field and the other entries. -/
def readRecord {α : Type} (field expected : String) (read : Node → Except Fault α) (n : Node) :
    Except Fault (α × Entries Value) := do
  let (a, kept) ←
    match n with
    | .mapping _ entries => readEntries field read none entries
    | .absent => .ok (none, [])
    | .scalar tag text plain =>
      if text = "" ∧ plain = true then .ok (none, [])
      else .error (unexpected expected (.scalar tag text plain))
    | n => .error (unexpected expected n)
  match a with
  | none => .error (.shape (.missingField field))
  | some a => do
    let es ← collect [] kept
    pure (a, es)

def readText : Node → Except Fault String
  | .scalar _ text _ => .ok text
  | n => .error (unexpected "a string" n)

def readChannel (n : Node) : Except Fault Channel := do
  let (name, fields) ← readRecord "name" "struct ChannelMetrics" readText n
  pure { name, fields }

def readChannels : Node → Except Fault (List Channel)
  | .sequence _ items => items.mapM readChannel
  | .absent => .ok []
  | .scalar tag text plain =>
    if text = "" ∧ plain = true then .ok []
    else .error (unexpected "a sequence" (.scalar tag text plain))
  | n => .error (unexpected "a sequence" n)

def ofNode (n : Node) : Except Fault Report := do
  let (channels, other) ← readRecord "data" "struct MetricsReport" readChannels n
  pure { channels, other }

/-- The report of a document, which must be well-formed to its end and the only one. -/
def ofDocument (d : Document) : Except Fault Report := do
  let report ← ofNode d.root
  match d.fault? with
  | some cause => .error (.cut cause)
  | none => if d.more then .error .severalDocuments else .ok report

def read (text : String) : Except Fault Report :=
  if allBlank text then .error .blank else ofDocument (Document.ofText text.toList)

end PowerBench.Report
