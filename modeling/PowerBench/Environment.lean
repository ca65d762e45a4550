import PowerBench.Text.Ascii
import PowerBench.Text.Blank
import PowerBench.Text.Numeral
import PowerBench.Text.Utf8

/-!
# Environment variables

Settings read from variables with the name start `BITS_`. A getter never fails: on a bad value it
falls back to its default and records why, so that all faults can be told at once. Each value
carries where it came from. A variable that is not UTF-8 counts as unset.
-/

set_option autoImplicit false

namespace PowerBench

abbrev Environment := List (String × Bytes)

def Environment.text? (env : Environment) (key : String) : Option String :=
  (env.lookup key).bind Utf8.decode?

/-- Where a setting came from. -/
inductive Origin where
  | fallback
  | environment
deriving DecidableEq, Repr

def Origin.word : Origin → String
  | .fallback => "default"
  | .environment => "environment"

/-- A setting, where it came from, and the variable it was read from. -/
structure Sourced (α : Type) where
  value : α
  origin : Origin
  key? : Option String
deriving DecidableEq, Repr

namespace Sourced

def ofOrigin {α : Type} (value : α) (origin : Origin) : Sourced α := ⟨value, origin, none⟩

def ofDefault {α : Type} (value : α) : Sourced α := ⟨value, .fallback, none⟩

def ofVariable {α : Type} (value : α) (key : String) : Sourced α :=
  ⟨value, .environment, some key⟩

def isDefault {α : Type} (s : Sourced α) : Bool := s.origin == .fallback

/-- A setting with its origin in brackets. -/
def text {α : Type} [ToString α] (s : Sourced α) : String :=
  match s.key? with
  | some v => toString s.value ++ " (from " ++ v ++ ")"
  | none => toString s.value ++ " (" ++ s.origin.word ++ ")"

end Sourced

/-- Why the value of a variable is refused. -/
inductive EnvFault where
  | invalidValue (key expected value : String)
  | outOfRange (key : String) (value least most : Nat)
  | invalidLogLevel (key value : String)
deriving DecidableEq, Repr

def EnvFault.message : EnvFault → String
  | .invalidValue key expected value =>
    "Invalid value for " ++ key ++ ": expected " ++ expected ++ ", got '" ++ value ++ "'"
  | .outOfRange key value least most =>
    "Value out of range for " ++ key ++ ": " ++ toString value ++ " (valid: "
      ++ toString least ++ "..=" ++ toString most ++ ")"
  | .invalidLogLevel key value =>
    "Invalid log level for " ++ key ++ ": " ++ value

/-- A computation that records faults as it reads settings. -/
abbrev EnvReader := StateM (List EnvFault)

namespace EnvReader

def variableName (name : String) : String := "BITS_" ++ name

/-- Adds a fault after those recorded so far. -/
def record (fault : EnvFault) : EnvReader Unit := modify (· ++ [fault])

/-- All faults so far; none are left. -/
def takeFaults : EnvReader (List EnvFault) := modifyGet fun faults => (faults, [])

def string (env : Environment) (name fallback : String) : EnvReader (Sourced String) :=
  match env.text? (variableName name) with
  | some value => pure (.ofVariable value (variableName name))
  | none => pure (.ofDefault fallback)

/-- A text, an empty one counting as none. -/
def optional (env : Environment) (name : String) : EnvReader (Sourced (Option String)) :=
  match env.text? (variableName name) with
  | some value => pure (.ofVariable (if value = "" then none else some value) (variableName name))
  | none => pure (.ofDefault none)

/-- A number between `least` and `most`, blanks at its ends ignored. -/
def natInRange (env : Environment) (name : String) (fallback least most : Nat) :
    EnvReader (Sourced Nat) :=
  match env.text? (variableName name) with
  | none => pure (.ofDefault fallback)
  | some value =>
    match readUInt64 (trimBlanks value.toList) with
    | .ok n =>
      if least ≤ n ∧ n ≤ most then pure (.ofVariable n (variableName name))
      else do
        record (.outOfRange (variableName name) n least most)
        pure (.ofVariable fallback (variableName name))
    | .error _ => do
      record (.invalidValue (variableName name) "unsigned 64-bit integer" value)
      pure (.ofDefault fallback)

def levelNames : List String := ["trace", "debug", "info", "warn", "error", "off"]

def level (env : Environment) (name fallback : String) : EnvReader (Sourced String) :=
  match env.text? (variableName name) with
  | none => pure (.ofDefault fallback)
  | some value =>
    if levelNames.contains (lowerAscii value) then
      pure (.ofVariable (lowerAscii value) (variableName name))
    else do
      record (.invalidLogLevel (variableName name) value)
      pure (.ofVariable fallback (variableName name))

end EnvReader

end PowerBench
