import PowerBench.Child.Lookup
import PowerBench.Child.Run
import PowerBench.Child.Shell.Run
import PowerBench.Control.Run
import PowerBench.Log.Directive

/-!
# The command `bitsctl`

Runs a command line against an instrument client that is a shell script: standard input holds the script,
and every call runs it. Variables and files are read before the run, and what the run has written is put
in place after it; all that lies between is `Control.run`.
-/

set_option autoImplicit false

namespace PowerBench.Control

/-! ## Before the run -/

/-- The variables that a run looks at. -/
def watched : List String :=
  grammar.root.settings.filterMap (·.environmentKey?)
    ++ ["COMMAND_TIMEOUT_SECS", "EXPORT_TIMEOUT_SECS", "HARDWARE_TIMEOUT_SECS", "LOG_LEVEL",
      "LOG_FORMAT", "LOG_FILE"].map EnvReader.variableName
    ++ [Log.filterVariable]

def environment : IO Environment :=
  watched.filterMapM fun name => do
    pure ((← IO.getEnv name).map fun value => (name, Utf8.encode value))

/-- The arguments of a command line, if it can be read. -/
def asked? (env : Environment) (args : List Bytes) : Option Arguments :=
  match CommandLine.parse env grammar args with
  | .ok p => arguments? p
  | .error _ => none

def destination? : Task → Option Path
  | .archive _ dest => some dest.told
  | .csv _ dest _ => some dest.told
  | .trace _ _ dest => some dest
  | _ => none

def programPlace : Address := [Utf8.encode "usr", Utf8.encode "bin"]

def clientPlace : Address := programPlace ++ [Utf8.encode "bits_client"]

/-- A tree with the directory of scratch files, the instrument client and the standard output. -/
def bareTree : FileTree :=
  { nodes := [(Session.scratchDirectory, .directory), ([Utf8.encode "usr"], .directory),
      (programPlace, .directory), (clientPlace, .file []), ([Utf8.encode "dev"], .directory),
      ([Utf8.encode "dev", Utf8.encode "stdout"], .output)]
    here := [] }

def withPlace (files : FileTree) (p : Path) : FileTree := (files.makeDirectoriesAbove p).2

def withFile (files : FileTree) (p : Path) (content : Bytes) : FileTree :=
  let files := withPlace files p
  match files.fileToWrite p with
  | .ok address => files.write address content
  | .error _ => files

/-- The files that a task meets: the configuration of the service, and the place of its
destination. -/
def filesFor (a : Arguments) : IO FileTree := do
  let files := (destination? a.task).elim bareTree (withPlace bareTree)
  match a.config? with
  | none => pure files
  | some p =>
    match ← (IO.FS.readBinFile p.shown).toBaseIO with
    | .ok content => pure (withFile files p content.toList)
    | .error _ => pure files

/-! ## The instrument -/

def named? (c : Call) : Option Path :=
  (["--aggregates_yaml_path", "--export_path"].findSome? fun flag => Call.valueOf flag c.args).map
    Path.ofText

def effectOn (p : Path) (left : FileTree) : FileEffect :=
  match left.content p with
  | .ok content => .write content
  | .error _ => .remove

/-- Runs the script in place of the instrument client. -/
def launch (script : String) (files : FileTree) (c : Call) : Child.Launch :=
  let programs : Child.Programs := { search := [programPlace], runnable := (· == clientPlace) }
  match programs.find files c.program with
  | .error cause => { started := .error cause, file := .keep }
  | .ok _ =>
    let (behaviour, left) :=
      Child.Shell.outcome files "sh" c.program.shown (["-c", script, c.program.shown] ++ c.args)
    { started := .ok behaviour, file := (named? c).elim .keep (effectOn · left) }

def scriptInstrument (script : String) : Instrument Unit :=
  Child.instrument Child.defaultPoll fun files c state => (launch script files c, state)

/-! ## After the run -/

/-- A log entry as standard error shows it. -/
def logLine (format : Log.Format) (e : Log.Entry) : String :=
  match format with
  | .json => e.toJson.compact
  | _ => e.line

/-- What standard error shows: notes, the log, and the complaint. -/
def Outcome.stderr {σ : Type} (o : Outcome σ) : String :=
  let log := match o.logging.subscriber? with
    | some s => if s.stderr then o.log.map (logLine s.format) else []
    | none => []
  String.join ((o.notes.map Log.note ++ log).map (· ++ "\n"))
    ++ (o.complaint?.map Complaint.text).getD ""

/-- The lines for the log file, one JSON object each, and its path. -/
def Outcome.logFile? {σ : Type} (o : Outcome σ) : Option (Path × String) :=
  (o.logging.subscriber?.bind (·.file?)).map fun p =>
    (p, String.join (o.log.map (logLine .json · ++ "\n")))

/-- The directory above a path, as text; empty for a bare name. -/
def directoryAbove (p : Path) : String :=
  String.ofList (p.shown.toList.reverse.dropWhile (· ≠ '/')).reverse

/-- Adds lines to a log file; the directories above it are made. -/
def append (p : Path) (lines : String) : IO Unit := do
  if directoryAbove p ≠ "" then IO.FS.createDirAll (directoryAbove p)
  IO.FS.withFile p.shown .append fun file => file.putStr lines

/-- Writes the file of a task as the run left it. -/
def place {σ : Type} (o : Outcome σ) (p : Path) : IO Unit := do
  match o.logging.files.content p with
  | .ok content => IO.FS.writeBinFile p.shown ⟨content.toArray⟩
  | .error _ => pure ()

/-- Runs a command line and puts its outcome in place; gives the exit code. -/
def execute (args : List Bytes) : IO UInt32 := do
  let env ← environment
  let (files, script) ← match asked? env args with
    | some a => do
      let script ← (← IO.getStdin).readBinToEnd
      pure (← filesFor a, Utf8.lossy script.toList)
    | none => pure (bareTree, "")
  let o := run Log.Directives.language env args (scriptInstrument script) () files
  if let some p := (asked? env args).bind fun a => destination? a.task then place o p
  IO.print o.stdout
  if let some (p, lines) := o.logFile? then append p lines
  IO.eprint o.stderr
  pure (UInt32.ofNat o.exitCode)

end PowerBench.Control

def main (args : List String) : IO UInt32 :=
  PowerBench.Control.execute (args.map PowerBench.Utf8.encode)
