import PowerBench.FileTree
import PowerBench.Log.Config
import PowerBench.Log.Filter

/-!
# Setting up the log

The first call that succeeds decides how everything is logged; a later call, whatever comes of it,
changes nothing about that. A call fails when its filter cannot be read or when its log file cannot be
opened. The filter of the environment goes before the configured level where it can be read.
-/

set_option autoImplicit false

namespace PowerBench.Log

/-- How entries are logged. -/
structure Subscriber where
  filter : String
  format : Format
  stderr : Bool
  file? : Option Path
deriving DecidableEq, Repr

/-- What keeps the writer of a log file going. -/
structure Guards where
  file? : Option Path
deriving DecidableEq, Repr

inductive SetupFault where
  | badFilter (text : String)
  | badFile (path : Path) (cause : IoFault)
deriving DecidableEq, Repr

namespace SetupFault

def message : SetupFault → String
  | .badFilter text => "invalid log filter '" ++ text ++ "'"
  | .badFile path cause => "cannot open log file " ++ path.shown ++ ": " ++ cause.message

/-- The wording of the cause behind a fault that has one. -/
def cause? : SetupFault → Option String
  | .badFilter _ => none
  | .badFile _ cause => some cause.message

end SetupFault

/-- The log of a process: how it is set up, if it is, and the files. -/
structure Logging where
  subscriber? : Option Subscriber
  files : FileTree
deriving Repr, Inhabited

/-- The variable with a filter that goes before the configured level. -/
def filterVariable : String := "RUST_LOG"

/-- The filter in force: of the environment where it can be read, else of the configuration. -/
def filter? (filters : FilterLanguage) (env : Environment) (c : Config) : Option String :=
  ((env.text? filterVariable).toList ++ [c.level]).find? filters.reads

def openFile (files : FileTree) (path : Path) : Except IoFault Unit × FileTree :=
  match files.makeDirectoriesAbove path with
  | (.error e, files) => (.error e, files)
  | (.ok (), files) =>
    match files.openToAppend path with
    | (.error e, files) => (.error e, files)
    | (.ok _, files) => (.ok (), files)

/-- Sets a subscriber up where none is yet. -/
def Logging.install (s : Subscriber) (l : Logging) : Logging :=
  { l with subscriber? := l.subscriber?.getD s }

def setUp (filters : FilterLanguage) (env : Environment) (c : Config) (l : Logging) :
    Except SetupFault Guards × Logging :=
  match filter? filters env c with
  | none => (.error (.badFilter c.level), l)
  | some f =>
    let subscriber : Subscriber :=
      { filter := f, format := c.format, stderr := c.stderr, file? := c.file? }
    match c.file? with
    | none => (.ok ⟨none⟩, l.install subscriber)
    | some path =>
      match openFile l.files path with
      | (.error e, files) => (.error (.badFile path e), { l with files := files })
      | (.ok (), files) => (.ok ⟨some path⟩, ({ l with files := files } : Logging).install subscriber)

def Logging.logged (filters : FilterLanguage) (l : Logging) (entries : List Entry) : List Entry :=
  match l.subscriber? with
  | some s => entries.filter (filters.allows s.filter)
  | none => []

/-- Whether the log file is the standard output. -/
def Logging.toOutput (l : Logging) : Bool :=
  (l.subscriber?.bind (·.file?)).any l.files.leadsToOutput

end PowerBench.Log
