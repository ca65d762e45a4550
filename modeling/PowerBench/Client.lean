import PowerBench.Report.Read
import PowerBench.Session
import PowerBench.Timeouts
import PowerBench.Timestamp.Read

/-!
# The client

Each operation makes calls of the form `<binary> --port <port> <tokens>`, every one within the time
limit of its class. A call that ends with another exit code than zero is noted in the log and is no
error; a call that fails is the last one of its operation. Nothing is tried twice.
-/

set_option autoImplicit false

namespace PowerBench

/-- A client of an instrument with states `σ`. -/
structure Client (σ : Type) where
  binary : Path
  service : Nat
  config : ServiceConfig
  limits : Timeouts
  instrument : Instrument σ

namespace Client

variable {σ : Type}

/-- Where the client's log entries come from. -/
def target : String := "bits_client::client"

def entry (level : Log.Level) (message : String) (fields : List (String × Log.FieldValue)) :
    Log.Entry :=
  { level := level, target := target, message := message, fields := fields }

/-- A step that does nothing but give a result. -/
def give {α : Type} (r : Except ClientError α) : Operation σ α := fun s => (r, s)

/-! ## Calls -/

def callFor (c : Client σ) (tokens : List String) (limit : Duration) : Call :=
  { program := c.binary, args := "--port" :: toString c.service :: tokens, limit := limit }

/-- Notes a call that did not end with exit code zero. -/
def noteExit (c : Client σ) (f : Finished) : Operation σ Unit :=
  if f.success then pure ()
  else
    Operation.record <| entry .warn "instrument command exited unsuccessfully"
      [("binary", .shown c.binary.shown), ("exit_code", .shown (Finished.exitCodeText f.exitCode?)),
        ("output", .shown (trimTextRight f.output))]

/-- Makes one call, which names a file or none, and gives what it printed. -/
def runWith (c : Client σ) (file? : Option Path) (tokens : List String) (limit : Duration) :
    Operation σ String := do
  let finished ← Operation.call c.instrument file? (c.callFor tokens limit)
  c.noteExit finished
  pure finished.output

/-- Makes one call that names no file. -/
def run (c : Client σ) (tokens : List String) (limit : Duration) : Operation σ String :=
  c.runWith none tokens limit

def request (c : Client σ) (r : Request) (kind : LimitClass) : Operation σ String :=
  c.runWith r.file? (r.tokens c.config) (c.limits.limit kind)

/-! ## Collections -/

/-- The sampling rate of callers without a preference. -/
def defaultRate : Nat := 1000

def start (c : Client σ) (name : String) (rate : Nat) : Operation σ Unit := do
  Operation.record <| entry .info "starting collection"
    [("collection", .text name), ("sampling_rate", .number rate)]
  discard <| c.request (.start name rate) .command

def stop (c : Client σ) (name : String) : Operation σ Unit := do
  Operation.record <| entry .info "stopping collection" [("collection", .text name)]
  discard <| c.request (.stop name) .command

/-- Exports the archive of a collection; a destination without the ending of archives is refused. -/
def archive (c : Client σ) (name : String) (dest : Path) : Operation σ Unit := do
  if !dest.shownEndsWith archiveSuffix then throw (.badDestination dest)
  Operation.record <| entry .info "exporting collection"
    [("collection", .text name), ("destination", .shown dest.shown)]
  discard <| c.request (.archive name dest) .transfer

/-- Exports channels as comma-separated text. -/
def csv (c : Client σ) (channels : List String) (name : String) (dest : Path) :
    Operation σ Unit := do
  Operation.record <| entry .info "exporting collection as csv"
    [("collection", .text name), ("channels", .number channels.length),
      ("destination", .shown dest.shown)]
  discard <| c.request (.csv channels name dest) .transfer

/-! ## Markers -/

/-- A marker with its time in nanoseconds. -/
structure Marker where
  time : Int
  text : String
deriving DecidableEq, Repr

def Marker.ofTimestamp (m : Timestamp × String) : Except ClientError Marker :=
  match m.1.normalize with
  | .ok time => .ok ⟨time, m.2⟩
  | .error bad => .error (.badTimestamp bad)

/-- Markers in ascending order of time; those of one time stay in the order they came in. -/
def sortMarkers (markers : List Marker) : List Marker :=
  markers.mergeSort fun a b => a.time ≤ b.time

def addEach (c : Client σ) (name : String) : List Marker → Operation σ Unit
  | [] => pure ()
  | m :: rest => do
    discard <| c.request (.marker name m.time m.text) .command
    c.addEach name rest

/-- Adds markers in ascending order of time. All times are read before the first call. -/
def addMarkers (c : Client σ) (name : String) (markers : List (Timestamp × String)) :
    Operation σ Unit := do
  let markers ← give (markers.mapM Marker.ofTimestamp)
  Operation.record <| entry .debug "adding markers"
    [("collection", .text name), ("count", .number markers.length)]
  c.addEach name (sortMarkers markers)

/-! ## Metrics -/

def bound : Option Timestamp → Except ClientError (Option Int)
  | none => .ok none
  | some t =>
    match t.normalize with
    | .ok n => .ok (some n)
    | .error bad => .error (.badTimestamp bad)

def textOf (files : FileTree) (p : Path) : Except ClientError String :=
  match files.content p with
  | .error cause => .error (.io cause)
  | .ok bytes =>
    match Utf8.decode? bytes with
    | some text => .ok text
    | none => .error (.io .notText)

def reportOf (files : FileTree) (dump : Path) : Except ClientError Report := do
  let text ← textOf files dump
  (Report.read text).mapError fun cause => .badReport dump cause

/-- Fetches a report, between bounds where there are some. The instrument writes it to a scratch
file. -/
def metrics (c : Client σ) (name : String) (start? stop? : Option Timestamp) :
    Operation σ Report := do
  let start? ← give (bound start?)
  let stop? ← give (bound stop?)
  Operation.withScratch .dump fun dump => do
    discard <| c.request (.metrics name start? stop? dump.path) .command
    give (reportOf (← get).files dump.path)

def channels (c : Client σ) (name : String) : Operation σ (List String) := do
  let report ← c.metrics name none none
  pure report.channelNames

/-! ## Traces -/

/-- Converts the rows of a file to a trace at a destination, which is replaced. The source is opened
before the destination and read after it. -/
def convertTo (source dest : Path) : Operation σ Nat := do
  let files := (← get).files
  match files.fileToRead source with
  | .error cause => throw (.io cause)
  | .ok rows =>
    match files.openToReplace dest with
    | (.error cause, _) => throw (.io cause)
    | (.ok address, files) =>
      let (result, sink) := Trace.convert ((files.contentAt? rows).getD []) false {}
      modify fun s => { s with files := files }.write address sink.written
      give (result.mapError ClientError.ofTrace)

/-- Exports one channel as a trace of the power monitor; gives the number of samples. -/
def trace (c : Client σ) (dest : Path) (name pattern : String) : Operation σ Nat :=
  Operation.withScratch .rows fun rows => do
    c.csv [pattern] name rows.path
    let samples ← convertTo rows.path dest
    Operation.record <| entry .info "wrote monsoon file"
      [("collection", .text name), ("destination", .shown dest.shown), ("samples", .number samples)]
    pure samples

/-! ## Devices -/

def listDevices (c : Client σ) : Operation σ String := c.request .listDevices .command

def monitor (c : Client σ) (action : MonitorAction) : Operation σ String := do
  Operation.record <| entry .debug "monsoon hardware command" [("command", .text action.token)]
  c.request (.monitor action) .hardware

end Client

end PowerBench
