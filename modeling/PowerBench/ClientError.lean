import PowerBench.Duration
import PowerBench.IoFault
import PowerBench.Report.Read
import PowerBench.ServiceConfig.Basic
import PowerBench.Timestamp.Basic
import PowerBench.Trace.Convert

/-!
# Errors of the client

Every way in which an operation of the client can fail. Each error belongs to one category, by which
callers decide what to do: only a timeout is worth another try.
-/

set_option autoImplicit false

namespace PowerBench

/-- The ending that the destination of an archive must have. -/
def archiveSuffix : String := ".7z.bits"

/-- What callers decide by. -/
inductive ErrorCategory where
  | validation
  | timeout
  | parse
  | timestamp
  | config
  | io
deriving DecidableEq, Repr

inductive ClientError where
  | badDestination (path : Path)
  | timedOut (program : String) (limit : Duration) (pid : Nat)
  | badReport (dump : Path) (cause : Report.Fault)
  | badTrace (line : Nat) (cause : Trace.RowFault)
  | badTimestamp (bad : BadTimestamp)
  | badConfig (cause : ConfigFault)
  | notStarted (program : String) (cause : IoFault)
  | io (cause : IoFault)
deriving Repr

namespace ClientError

def category : ClientError → ErrorCategory
  | .badDestination _ => .validation
  | .timedOut _ _ _ => .timeout
  | .badReport _ _ => .parse
  | .badTrace _ _ => .parse
  | .badTimestamp _ => .timestamp
  | .badConfig _ => .config
  | .notStarted _ _ => .io
  | .io _ => .io

/-- Whether another try may help. -/
def isRetryable (e : ClientError) : Bool := e.category == .timeout

def message : ClientError → String
  | .badDestination path =>
    "export destination " ++ path.shown ++ " must end with '" ++ archiveSuffix ++ "'"
  | .timedOut program limit pid =>
    program ++ " timed out after " ++ limit.text ++ " (pid " ++ toString pid ++ " killed)"
  | .badReport dump cause =>
    "failed to parse metrics dump " ++ dump.shown ++ ": " ++ cause.message
  | .badTrace line cause =>
    "malformed CSV export at line " ++ toString line ++ ": " ++ cause.message
  | .badTimestamp bad => "unsupported timestamp " ++ bad.kind.word ++ " '" ++ bad.value ++ "'"
  | .badConfig cause => "invalid service configuration: " ++ cause.message
  | .notStarted program cause => "failed to start " ++ program ++ ": " ++ cause.message
  | .io cause => "I/O error: " ++ cause.message

/-- The wording of the cause behind an error that has one. -/
def cause? : ClientError → Option String
  | .badReport _ cause => some cause.message
  | .notStarted _ cause => some cause.message
  | .io cause => some cause.message
  | _ => none

def ofTrace : Trace.Fault → ClientError
  | .row line cause => .badTrace line cause
  | .io cause => .io cause

end ClientError

end PowerBench
