import PowerBench.Binary64.Decimal
import PowerBench.Binary64.Fixed
import PowerBench.IoFault
import PowerBench.Text.Blank
import PowerBench.Trace.Csv

/-!
# Power traces

The instrument exports a trace as comma-separated rows of nanoseconds and milliamperes under a header.
The power monitor's text format wants one line of seconds and amperes for each row, with 7 and 12
decimal places. Conversion goes row by row and writes each line before it reads the next row, so a
fault in a row, in reading or in writing leaves the lines of the rows before it.
-/

set_option autoImplicit false

namespace PowerBench.Trace

inductive RowFault where
  | tooShort (found : Nat)
  | notNumber (column : Nat) (text : String)
  | notText (start : Csv.Position) (field validUpTo : Nat)
  | described (text : String)
deriving DecidableEq, Repr

def RowFault.message : RowFault → String
  | .tooShort found => "expected timestamp and current columns, found " ++ toString found
  | .notNumber column text =>
    "column " ++ toString column ++ " value '" ++ text ++ "' is not a number"
  | .notText start field validUpTo =>
    "Utf8 \x7b pos: Some(Position \x7b byte: " ++ toString start.byte ++ ", line: "
      ++ toString start.line ++ ", record: " ++ toString start.record
      ++ " \x7d), err: Utf8Error \x7b field: " ++ toString field ++ ", valid_up_to: "
      ++ toString validUpTo ++ " \x7d \x7d"
  | .described text => text

/-- Why a conversion stops: a bad row, by the line where it starts, or a stream that fails. -/
inductive Fault where
  | row (line : Nat) (cause : RowFault)
  | io (cause : IoFault)
deriving DecidableEq, Repr

/-! ## Rows -/

/-- The fields of a record without the ASCII blanks around them. -/
def trimFields (fields : List Bytes) : List Bytes := fields.map (trimEnds isAsciiBlank)

/-- The first field that is not UTF-8: its number and where it breaks. -/
def firstNotText (fields : List Bytes) : Option (Nat × Nat) :=
  (fields.zipIdx.find? fun f => (Utf8.decodeChars? f.1).isNone).map fun f =>
    (f.2, Utf8.validUpTo f.1)

def column (line index : Nat) (text : List Char) : Except Fault Binary64 :=
  match Binary64.readFinite? text with
  | some x => .ok x
  | none => .error (.row line (.notNumber index (String.ofList text)))

def lineOf (nanos milliamps : Binary64) : List Char :=
  (nanos.divNat 1000000000).fixed 7 ++ ' ' :: (milliamps.divNat 1000).fixed 12 ++ ['\n']

/-- The output line of a record that starts at a line, read after `before`. -/
def convertRow (before : Csv.Position) (line : Nat) (fields : List Bytes) :
    Except Fault (List Char) :=
  let fields := trimFields fields
  match firstNotText fields with
  | some (field, validUpTo) => .error (.row before.line (.notText before field validUpTo))
  | none =>
    match fields with
    | a :: b :: _ => do
      let nanos ← column line 0 (trimBlanks (Utf8.lossyChars a))
      let milliamps ← column line 1 (trimBlanks (Utf8.lossyChars b))
      pure (lineOf nanos milliamps)
    | _ => .error (.row line (.tooShort fields.length))

/-! ## Writing -/

/-- Where the lines go: what has been written, last piece first, how much more fits, and whether the
final flush fails. -/
structure Sink where
  pieces : List (List Char) := []
  room? : Option Nat := none
  flushFails : Bool := false
deriving Repr

namespace Sink

def full : IoFault := .described "disk full"

def notFlushed : IoFault := .described "flush failed"

def written (s : Sink) : List Char := s.pieces.reverse.flatten

/-- Writes a line; what does not fit is cut off and the sink is full. -/
def write (line : List Char) (s : Sink) : Except Fault Unit × Sink :=
  match s.room? with
  | none => (.ok (), { s with pieces := line :: s.pieces })
  | some n =>
    if line.length ≤ n then
      (.ok (), { s with pieces := line :: s.pieces, room? := some (n - line.length) })
    else (.error (.io full), { s with pieces := line.take n :: s.pieces, room? := some 0 })

def flush (s : Sink) : Except Fault Unit := if s.flushFails then .error (.io notFlushed) else .ok ()

end Sink

/-! ## Conversion -/

def readFailed : IoFault := .described "read failed"

/-- Converts the records that are left; `before` is where reading stood when the caller asked for the
next row, and `count` rows have been written. -/
def convertRows : Nat → Nat → Csv.Position → Csv.Reader → Sink → Except Fault Nat × Sink
  | 0, count, _, _, sink => (.ok count, sink)
  | fuel + 1, count, before, reader, sink =>
    match reader.next with
    | .failed => (.error (.io readFailed), sink)
    | .finished =>
      match sink.flush with
      | .ok () => (.ok count, sink)
      | .error e => (.error e, sink)
    | .record fields after =>
      match convertRow before reader.position.line fields with
      | .error e => (.error e, sink)
      | .ok line =>
        match sink.write line with
        | (.error e, sink) => (.error e, sink)
        | (.ok (), sink) => convertRows fuel (count + 1) after.position after sink

/-- Converts a trace: the number of rows written, or the fault that stopped it, and the sink as it is
left. The header, whatever it holds, is no row. -/
def convert (bytes : Bytes) (broken : Bool) (sink : Sink) : Except Fault Nat × Sink :=
  let start := Csv.Reader.start bytes broken
  match start.next with
  | .failed => (.error (.io readFailed), sink)
  | .finished =>
    match sink.flush with
    | .ok () => (.ok 0, sink)
    | .error e => (.error e, sink)
  | .record _ reader => convertRows (bytes.length + 1) 0 start.position reader sink

end PowerBench.Trace
