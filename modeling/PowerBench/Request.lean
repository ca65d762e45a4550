import PowerBench.Duration
import PowerBench.ServiceConfig.Basic

/-!
# Requests to the instrument

Each operation of the instrument is a row of argument tokens. An option that is not wanted is left
out, never passed with an empty value: the instrument takes a blank argument as a value. Paths are
passed as shown text.
-/

set_option autoImplicit false

namespace PowerBench

inductive MonitorAction where
  | acquire
  | release
  | usbConnect
  | usbDisconnect
deriving DecidableEq, Repr

/-- The instrument's word for each action. -/
def MonitorAction.token : MonitorAction → String
  | .acquire => "acquire_monsoon"
  | .release => "release_monsoon"
  | .usbConnect => "usb_connect"
  | .usbDisconnect => "usb_disconnect"

/-- An operation of the instrument with its parameters. -/
inductive Request where
  | start (name : String) (rate : Nat)
  | stop (name : String)
  | archive (name : String) (dest : Path)
  | csv (channels : List String) (name : String) (dest : Path)
  | marker (name : String) (time : Int) (text : String)
  | metrics (name : String) (start? stop? : Option Int) (dump : Path)
  | listDevices
  | monitor (action : MonitorAction)
deriving DecidableEq, Repr

namespace Request

/-- The running time asked of a collection: one year of 365 days, in seconds. -/
def oneYearSecs : Nat := 365 * 24 * 60 * 60

def virtualMetricsFile : String := "default"

def monitorCollector : String := "Monsoon"

def optional (flag : String) : Option Int → List String
  | some n => [flag, toString n]
  | none => []

/-- The choice of the virtual metrics file, where the service has one. -/
def virtualMetricsTokens (c : ServiceConfig) : List String :=
  if c.virtualMetrics then ["--vm_file", virtualMetricsFile] else []

def tokens (c : ServiceConfig) : Request → List String
  | .start name rate =>
    ["--name", name, "--non_blocking", "--time", toString oneYearSecs, "--default_sampling_rate",
      toString rate] ++ if c.kibbles then ["--disk_space_saver"] else []
  | .stop name => ["--name", name, "--stop"]
  | .archive name dest =>
    ["--name", name, "--ignore_gaps", "--export", "--export_path", dest.shown]
  | .csv channels name dest =>
    ["--name", name, "--ignore_gaps", "--csv_rawtimestamps", "--channels",
      String.intercalate "," channels, "--export", "--export_path", dest.shown]
      ++ virtualMetricsTokens c
  | .marker name time text =>
    ["--name", name, "--log_ts", toString time, "--log", text]
  | .metrics name start? stop? dump =>
    ["--name", name, "--ignore_gaps", "--aggregates_yaml_path", dump.shown]
      ++ optional "--abs_start_time" start? ++ optional "--abs_stop_time" stop?
      ++ virtualMetricsTokens c
  | .listDevices => ["--list", "devices"]
  | .monitor action =>
    ["--collector", monitorCollector, "--collector_cmd", action.token]

/-- The file that a request has the instrument write: the one that its argument names. -/
def file? : Request → Option Path
  | .archive _ dest => some dest.told
  | .csv _ _ dest => some dest.told
  | .metrics _ _ _ dump => some dump.told
  | _ => none

end Request

/-- A call of the instrument: the program, all its arguments, and how long it may take. -/
structure Call where
  program : Path
  args : List String
  limit : Duration
deriving DecidableEq, Repr

namespace Call

/-- The argument after the first occurrence of a flag that has one after it. -/
def valueOf (flag : String) : List String → Option String
  | a :: b :: rest => if a = flag then some b else valueOf flag (b :: rest)
  | _ => none

def hasFlag (flag : String) (args : List String) : Bool := args.contains flag

end Call

end PowerBench
