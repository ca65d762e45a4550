import PowerBench.Text.Utf8

/-!
# Comma-separated records

A byte stream as records of fields. A record ends at a line feed or carriage return, and blank lines
are no records. A field that starts with a quote runs to the next quote that is not doubled, over
commas and line ends too; what follows the closing quote is taken as it is. The line feed after a
carriage return belongs to the next record, so it is counted when that record is read. The stream may
break off with a fault where its bytes run out, and then an unfinished record is no record.
-/

set_option autoImplicit false

namespace PowerBench.Csv

/-- How much of a stream has been read: bytes, line feeds plus one, and records. -/
structure Position where
  byte : Nat
  line : Nat
  record : Nat
deriving DecidableEq, Repr

/-- A stream between two records. `broken` says that a fault stands where the bytes run out. -/
structure Reader where
  ahead : Bytes
  broken : Bool
  position : Position
deriving Repr

/-- Where in a record the reader is. -/
inductive Phase where
  | blank
  | fieldStart
  | unquoted
  | quoted
  | quoteMet
deriving DecidableEq, Repr

/-- A record in the making: its fields and the bytes of the last one, both last first. -/
structure Draft where
  fields : List Bytes
  field : Bytes
deriving Repr

namespace Draft

def empty : Draft := ⟨[], []⟩

def add (d : Draft) (b : UInt8) : Draft := ⟨d.fields, b :: d.field⟩

def endField (d : Draft) : Draft := ⟨d.field.reverse :: d.fields, []⟩

def finish (d : Draft) : List Bytes := d.endField.fields.reverse

end Draft

/-- What reading one record gives. -/
inductive Next where
  | record (fields : List Bytes) (reader : Reader)
  | finished
  | failed
deriving Repr

def Position.advance (p : Position) (b : UInt8) : Position :=
  { p with byte := p.byte + 1, line := if b = 0x0A then p.line + 1 else p.line }

/-- A line feed or a carriage return. -/
def isLineEnd (b : UInt8) : Bool := b == 0x0A || b == 0x0D

def scan (broken : Bool) : Phase → Draft → Position → Bytes → Next
  | phase, d, p, [] =>
    if broken then .failed
    else if phase = .blank then .finished
    else .record d.finish ⟨[], false, { p with record := p.record + 1 }⟩
  | phase, d, p, b :: rest =>
    let p := p.advance b
    let complete : Next := .record d.finish ⟨rest, broken, { p with record := p.record + 1 }⟩
    match phase with
    | .blank =>
      if isLineEnd b then scan broken .blank d p rest
      else if b = 0x22 then scan broken .quoted d p rest
      else if b = 0x2C then scan broken .fieldStart d.endField p rest
      else scan broken .unquoted (d.add b) p rest
    | .fieldStart =>
      if isLineEnd b then complete
      else if b = 0x22 then scan broken .quoted d p rest
      else if b = 0x2C then scan broken .fieldStart d.endField p rest
      else scan broken .unquoted (d.add b) p rest
    | .unquoted =>
      if isLineEnd b then complete
      else if b = 0x2C then scan broken .fieldStart d.endField p rest
      else scan broken .unquoted (d.add b) p rest
    | .quoted =>
      if b = 0x22 then scan broken .quoteMet d p rest
      else scan broken .quoted (d.add b) p rest
    | .quoteMet =>
      if b = 0x22 then scan broken .quoted (d.add b) p rest
      else if isLineEnd b then complete
      else if b = 0x2C then scan broken .fieldStart d.endField p rest
      else scan broken .unquoted (d.add b) p rest

namespace Reader

/-- A stream before its first record. -/
def start (bytes : Bytes) (broken : Bool) : Reader := ⟨bytes, broken, ⟨0, 1, 0⟩⟩

/-- The byte order mark in front of a stream is no part of the first record. -/
def dropMark (r : Reader) : Reader :=
  match r.position.byte, r.ahead with
  | 0, 0xEF :: 0xBB :: 0xBF :: rest => ⟨rest, r.broken, { r.position with byte := 3 }⟩
  | _, _ => r

def next (r : Reader) : Next :=
  let r := r.dropMark
  scan r.broken .blank .empty r.position r.ahead

end Reader

end PowerBench.Csv
