import PowerBench.Client
import PowerBench.CommandLine.Parse
import PowerBench.Control.Definition

/-!
# Arguments of `bitsctl`

What a command line asks for: one task, and how to reach the instrument.
-/

set_option autoImplicit false

namespace PowerBench.Control

open CommandLine

/-- The forms in which a report is printed. -/
inductive ReportFormat where
  | json
  | yaml
deriving DecidableEq, Repr

inductive Task where
  | listDevices
  | start (name : String) (rate : Nat)
  | stop (name : String)
  | archive (name : String) (dest : Path)
  | csv (name : String) (dest : Path) (channels : List String)
  | markers (name : String) (markers : List (Timestamp × String))
  | metrics (name : String) (start? stop? : Option Timestamp) (format : ReportFormat)
  | channels (name : String)
  | trace (name pattern : String) (dest : Path)
  | monitor (action : MonitorAction)
deriving Repr

/-- A task, and how to reach the instrument. -/
structure Arguments where
  binary : Path
  service : Nat
  config? : Option Path
  vmFile : Bool
  kibbles : Bool
  verbose : Bool
  task : Task
deriving Repr

/-! ## Values by kind -/

def text? : Value → Option String
  | .text s => some s
  | _ => none

def path? : Value → Option Path
  | .path p => some p
  | _ => none

def number? : Value → Option Nat
  | .number n => some n
  | _ => none

def word? : Value → Option String
  | .choice w => some w
  | _ => none

def time? : Value → Option Timestamp
  | .time t => some t
  | _ => none

def marker? : Value → Option (Timestamp × String)
  | .marker t s => some (t, s)
  | _ => none

def action? : String → Option MonitorAction
  | "acquire" => some .acquire
  | "release" => some .release
  | "usb-connect" => some .usbConnect
  | "usb-disconnect" => some .usbDisconnect
  | _ => none

/-! ## Tasks -/

def task? (command : String) (f : Given) : Option Task :=
  match command, f.operands with
  | "list-devices", _ => some .listDevices
  | "start", [name] => do
    pure (.start (← text? name) (((f.value? "sampling-rate").bind number?).getD Client.defaultRate))
  | "stop", [name] => Task.stop <$> text? name
  | "export", [name, dest] => do pure (.archive (← text? name) (← path? dest))
  | "export-csv", [name, dest] => do
    pure (.csv (← text? name) (← path? dest) ((f.values "channel").filterMap text?))
  | "markers", [name] => do
    pure (.markers (← text? name) ((f.values "marker").filterMap marker?))
  | "metrics", [name] => do
    let format : ReportFormat :=
      if (f.value? "format").bind word? = some "json" then .json else .yaml
    pure (.metrics (← text? name) ((f.value? "start").bind time?) ((f.value? "end").bind time?) format)
  | "channels", [name] => Task.channels <$> text? name
  | "monsoon-export", [name, pattern, dest] => do
    pure (.trace (← text? name) (← text? pattern) (← path? dest))
  | "monsoon", [action] => Task.monitor <$> (word? action).bind action?
  | _, _ => none

/-- The arguments of a command line that has been read. -/
def arguments? (p : Parsed) : Option Arguments := do
  let service ← (p.program.value? "port").bind number?
  let task ← task? p.command.name p.given
  pure
    { binary := ((p.program.value? "binary").bind path?).getD (.ofText "bits_client")
      service := service
      config? := (p.program.value? "config").bind path?
      vmFile := p.program.has "vm-file"
      kibbles := p.program.has "kibbles"
      verbose := p.program.has "verbose" || p.given.has "verbose"
      task := task }

end PowerBench.Control
