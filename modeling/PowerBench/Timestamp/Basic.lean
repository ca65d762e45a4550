import PowerBench.Binary64.Integral
import PowerBench.Binary64.Shortest
import PowerBench.Calendar

/-!
# Timestamps

The instrument wants integer nanoseconds since 1970-01-01, in 64 bits. A timestamp is held in the
shape its owner has it in, and `normalize` brings it to that integer or says why it has none: a
fractional number is rounded, halves away from zero, and compared with the ends of the range before
it is converted; a calendar instant is counted out in 64 bits.
-/

set_option autoImplicit false

namespace PowerBench

/-- A point in time in one of three shapes. -/
inductive Timestamp where
  | nanos (n : Int)
  | fractional (x : Binary64)
  | calendar (t : Instant)
deriving DecidableEq, Repr

/-- The shape of a timestamp that is refused. -/
inductive TimestampKind where
  | string
  | float
  | datetime
deriving DecidableEq, Repr

def TimestampKind.word : TimestampKind → String
  | .string => "string"
  | .float => "float"
  | .datetime => "datetime"

/-- A refused timestamp: its shape and its text. -/
structure BadTimestamp where
  kind : TimestampKind
  value : String
deriving DecidableEq, Repr

namespace Timestamp

/-- A timestamp as nanoseconds since 1970-01-01. As a value, the upper end of the range is 2^63, which
lies outside already. -/
def normalize : Timestamp → Except BadTimestamp Int
  | .nanos n => .ok n
  | .fractional x =>
    let rounded := x.round
    if !rounded.isFinite || rounded.lt (.ofInt Binary64.minInt64)
        || (Binary64.ofInt Binary64.maxInt64).le rounded then
      .error ⟨.float, x.plain⟩
    else .ok rounded.toInt64
  | .calendar t =>
    match t.nanos64? with
    | some n => .ok n
    | none => .error ⟨.datetime, t.text⟩

def ofCivil (c : CivilTime) : Timestamp := .calendar c.universal

/-- A reading of the clock, if the calendar reaches as far. -/
def ofClock? (c : ClockReading) : Option Timestamp := (Instant.ofClock? c).map .calendar

end Timestamp

end PowerBench
