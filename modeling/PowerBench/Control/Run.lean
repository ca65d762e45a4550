import PowerBench.CommandLine.Help
import PowerBench.Control.Arguments
import PowerBench.Log.Setup
import PowerBench.Report.Render
import PowerBench.ServiceConfig.Load

/-!
# Running `bitsctl`

A run reads its command line, sets up the log, loads the service configuration, performs its task
and prints what came of it. The exit code is 0 for success, 1 for a failure, 2 for a wrong command
line. A path can lead to the standard output of the program itself: an export then goes there before
anything is printed, and the lines of a log file go there in between.
-/

set_option autoImplicit false

namespace PowerBench.Control

open CommandLine

/-! ## Failures -/

/-- Why a task fails, or why it is not begun. -/
inductive Failure where
  | log (fault : Log.SetupFault)
  | client (context : String) (e : ClientError)
  | config (e : ClientError)
  | render (e : Report.RenderFault)
deriving Repr

/-- The error as a chain: what was being done, what went wrong, and what lies behind it. -/
def Failure.chain : Failure → List String
  | .log fault => fault.message :: fault.cause?.toList
  | .client context e => context :: e.message :: e.cause?.toList
  | .config e => e.message :: e.cause?.toList
  | .render e => [e.message]

/-- What is told on standard error: about the command line, or about a failure. -/
inductive Complaint where
  | usage (text : String)
  | failure (f : Failure)
deriving Repr

namespace Complaint

/-- The causes behind an error, numbered when there are several. -/
def causes : List String → String
  | [] => ""
  | [cause] => "\n\nCaused by:\n    " ++ cause
  | several =>
    "\n\nCaused by:"
      ++ String.join (several.mapIdx fun i cause => "\n    " ++ toString i ++ ": " ++ cause)

def text : Complaint → String
  | .usage text => text
  | .failure f =>
    match f.chain with
    | [] => ""
    | first :: rest => "Error: " ++ first ++ causes rest ++ "\n"

/-- The exit code of a run that ends with a complaint. -/
def exitCode : Complaint → Nat
  | .usage _ => 2
  | .failure _ => 1

end Complaint

/-! ## Tasks -/

/-- The configuration of the service: of a file or the default, with what the flags add. -/
def serviceConfig (files : FileTree) (a : Arguments) : Except Failure ServiceConfig := do
  let base ← match a.config? with
    | none => pure ServiceConfig.default
    | some path =>
      (ServiceConfig.load path (files.content path)).mapError
        (.client ("loading service config " ++ path.shown))
  if !a.vmFile && !a.kibbles then pure base
  else
    let draft := base.toDraft
    let draft := if a.vmFile then draft.setVirtualMetrics true else draft
    let draft := if a.kibbles then draft.setKibbles true else draft
    draft.build.mapError fun e => .config (.badConfig e)

def actionName : MonitorAction → String
  | .acquire => "Acquire"
  | .release => "Release"
  | .usbConnect => "UsbConnect"
  | .usbDisconnect => "UsbDisconnect"

def render (r : Report) : ReportFormat → Except Report.RenderFault String
  | .json => r.json
  | .yaml => .ok r.yaml

/-- A step whose errors are told with what was being done. -/
def during {σ α : Type} (context : String) (step : Operation σ α) :
    ExceptT Failure (StateM (Session σ)) α := fun s =>
  let (result, s) := step.run.run s
  (result.mapError (.client context), s)

def print {σ : Type} (text : String) : ExceptT Failure (StateM (Session σ)) Unit :=
  modify (Session.print text)

def printLines {σ : Type} : List String → ExceptT Failure (StateM (Session σ)) Unit
  | [] => pure ()
  | text :: rest => do
    print (text ++ "\n")
    printLines rest

def perform {σ : Type} (c : Client σ) : Task → ExceptT Failure (StateM (Session σ)) Unit
  | .listDevices => do print (← during "listing devices" c.listDevices)
  | .start name rate => during ("starting collection " ++ name) (c.start name rate)
  | .stop name => during ("stopping collection " ++ name) (c.stop name)
  | .archive name dest => during ("exporting collection " ++ name) (c.archive name dest)
  | .csv name dest channels =>
    during ("exporting collection " ++ name ++ " as csv") (c.csv channels name dest)
  | .markers name markers => do
    during ("adding markers to " ++ name) (c.addMarkers name markers)
    print ("added " ++ toString markers.length ++ " marker(s) to " ++ name ++ "\n")
  | .metrics name start? stop? format => do
    let report ← during ("fetching metrics for " ++ name) (c.metrics name start? stop?)
    match render report format with
    | .ok text => print text
    | .error e => throw (.render e)
  | .channels name => do
    let names ← during ("listing channels of " ++ name) (c.channels name)
    printLines names
  | .trace name pattern dest => do
    let samples ← during ("exporting " ++ name ++ " in monsoon format") (c.trace dest name pattern)
    print ("wrote " ++ toString samples ++ " sample(s) to " ++ dest.shown ++ "\n")
  | .monitor action => do print (← during ("monsoon " ++ actionName action) (c.monitor action))

/-! ## Runs -/

/-- What is left when a run has ended: its exit code, what it has written to its standard output, what it
complained of, the faults noted before logging, the log and all entries made, and the state of the
instrument. The log has a writer of its own: where the log file is the standard output, the lines of
`stdoutLog` stand there too, in their order and anywhere among what is in `stdout`. -/
structure Outcome (σ : Type) where
  exitCode : Nat
  stdout : String
  stdoutLog : List Log.Entry
  complaint? : Option Complaint
  notes : List EnvFault
  logging : Log.Logging
  log : List Log.Entry
  state : σ

/-- Where the program's own log entries come from. -/
def target : String := "bitsctl"

/-- The entries about time limits and the client. -/
def openingEntries (a : Arguments) (limits : Timeouts) (faults : List EnvFault) : List Log.Entry :=
  faults.map (fun fault =>
    { level := .warn, target := target, message := "ignoring timeout override: " ++ fault.message
      fields := [] })
    ++ [{ level := .debug, target := target, message := "client configured"
          fields :=
            [("timeouts", .shown limits.text), ("binary", .shown a.binary.shown),
              ("port", .number a.service)] }]

/-- Performs the task of a command line on an instrument, with the log set up. -/
def runTask {σ : Type} (env : Environment) (instrument : Instrument σ) (state : σ)
    (files : FileTree) (a : Arguments) : Except Failure Unit × Session σ :=
  let session := Session.start state files
  match serviceConfig files a with
  | .error e => (.error e, session)
  | .ok config =>
    let (limits, faults) := Timeouts.ofEnvironment env
    let client : Client σ :=
      { binary := a.binary, service := a.service, config := config, limits := limits
        instrument := instrument }
    (perform client a.task).run.run { session with log := openingEntries a limits faults }

/-- The log configuration of a run: standard error, and the level `debug` when asked to be verbose. -/
def logConfig (env : Environment) (a : Arguments) : Log.Config × List EnvFault :=
  let (c, faults) := Log.Config.ofEnvironment env "info"
  ({ c with stderr := true, level := if a.verbose then "debug" else c.level }, faults)

def runArguments {σ : Type} (filters : Log.FilterLanguage) (env : Environment)
    (instrument : Instrument σ) (state : σ) (files : FileTree) (a : Arguments) : Outcome σ :=
  let (config, notes) := logConfig env a
  match Log.setUp filters env config { subscriber? := none, files := files } with
  | (.error fault, logging) =>
    { exitCode := 1, stdout := "", stdoutLog := [], complaint? := some (.failure (.log fault))
      notes := notes, logging := logging, log := [], state := state }
  | (.ok _, logging) =>
    let (result, session) := runTask env instrument state logging.files a
    let log := logging.logged filters session.log
    let complaint? : Option Complaint := match result with
      | .ok () => none
      | .error f => some (.failure f)
    { exitCode := (complaint?.map Complaint.exitCode).getD 0, stdout := session.printed
      stdoutLog := if logging.toOutput then log else [], complaint? := complaint?, notes := notes
      logging := { logging with files := session.files }, log := log, state := session.state }

def usageText (f : UsageFault) : String :=
  "error: " ++ f.message ++ "\n\nFor more information, try '--help'.\n"

/-- A run that ends with its command line: it prints a text or complains. -/
def halted {σ : Type} (env : Environment) (state : σ) (files : FileTree) (h : Halt) : Outcome σ :=
  let done (stdout : String) (complaint? : Option Complaint) : Outcome σ :=
    { exitCode := (complaint?.map Complaint.exitCode).getD 0, stdout := stdout, stdoutLog := []
      complaint? := complaint?, notes := [], logging := { subscriber? := none, files := files }
      log := [], state := state }
  match h with
  | .help none => done (Help.ofProgram env grammar) none
  | .help (some c) => done (Help.ofCommand env grammar c) none
  | .version => done (Help.version grammar) none
  | .nothingGiven => done "" (some (.usage (Help.ofProgram env grammar)))
  | .fault f => done "" (some (.usage (usageText f)))

def run {σ : Type} (filters : Log.FilterLanguage) (env : Environment) (args : List Bytes)
    (instrument : Instrument σ) (state : σ) (files : FileTree) : Outcome σ :=
  match parse env grammar args with
  | .error h => halted env state files h
  | .ok p =>
    match arguments? p with
    | some a => runArguments filters env instrument state files a
    | none => halted env state files .nothingGiven

end PowerBench.Control
