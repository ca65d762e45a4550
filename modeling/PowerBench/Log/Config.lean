import PowerBench.Environment
import PowerBench.Path
import PowerBench.Text.Ascii

/-!
# Log configuration

What is logged, in which form, to which stream, and to which file. A configuration can be read from
the environment; what is wrong there is told in notes and replaced by the default.
-/

set_option autoImplicit false

namespace PowerBench.Log

/-- The forms of log lines. -/
inductive Format where
  | pretty
  | compact
  | json
deriving DecidableEq, Repr, Inhabited

/-- A text that names no format, its capital letters made small. -/
structure UnknownFormat where
  text : String
deriving DecidableEq, Repr

def UnknownFormat.message (u : UnknownFormat) : String :=
  "unknown log format '" ++ u.text ++ "' (expected pretty, compact or json)"

def Format.read (s : String) : Except UnknownFormat Format :=
  match lowerAscii s with
  | "pretty" => .ok .pretty
  | "text" => .ok .pretty
  | "compact" => .ok .compact
  | "json" => .ok .json
  | other => .error ⟨other⟩

/-- A log configuration. The level is the text of a filter. -/
structure Config where
  level : String
  format : Format
  stderr : Bool
  file? : Option Path
deriving DecidableEq, Repr

namespace Config

/-- Lines of the pretty form on standard output, no file. -/
def ofLevel (level : String) : Config :=
  { level := level, format := .pretty, stderr := false, file? := none }

def default : Config := ofLevel "info"

instance : Inhabited Config := ⟨default⟩

def read (env : Environment) (fallback : String) : EnvReader Config := do
  let level ← EnvReader.level env "LOG_LEVEL" fallback
  let format ← EnvReader.string env "LOG_FORMAT" "pretty"
  let file ← EnvReader.optional env "LOG_FILE"
  pure
    { level := level.value
      format := (Format.read format.value).toOption.getD .pretty
      stderr := false
      file? := file.value.map Path.ofText }

def ofEnvironment (env : Environment) (fallback : String) : Config × List EnvFault :=
  (read env fallback).run []

end Config

/-- The line that tells a fault of the environment before logging is set up. -/
def note (fault : EnvFault) : String := "bits: " ++ fault.message

end PowerBench.Log
