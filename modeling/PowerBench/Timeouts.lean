import PowerBench.Duration
import PowerBench.Environment

/-!
# Time limits

Every operation of the instrument belongs to a class with a time limit of its own. The limits can be
overridden by environment variables holding whole seconds.
-/

set_option autoImplicit false

namespace PowerBench

/-- The classes of operations. -/
inductive LimitClass where
  | command
  | transfer
  | hardware
deriving DecidableEq, Repr

/-- The time limit of each class. -/
structure Timeouts where
  command : Duration
  transfer : Duration
  hardware : Duration
deriving DecidableEq, Repr

namespace Timeouts

/-- One minute, ten minutes, ten seconds. -/
def default : Timeouts := ⟨.ofSecs 60, .ofSecs 600, .ofSecs 10⟩

instance : Inhabited Timeouts := ⟨default⟩

def limit (t : Timeouts) : LimitClass → Duration
  | .command => t.command
  | .transfer => t.transfer
  | .hardware => t.hardware

def read (env : Environment) : EnvReader Timeouts := do
  let command ← EnvReader.natInRange env "COMMAND_TIMEOUT_SECS" default.command.secs 1 86400
  let transfer ← EnvReader.natInRange env "EXPORT_TIMEOUT_SECS" default.transfer.secs 1 86400
  let hardware ← EnvReader.natInRange env "HARDWARE_TIMEOUT_SECS" default.hardware.secs 1 3600
  pure ⟨.ofSecs command.value, .ofSecs transfer.value, .ofSecs hardware.value⟩

/-- The limits that an environment asks for, and its faults in the order of the classes. -/
def ofEnvironment (env : Environment) : Timeouts × List EnvFault := (read env).run []

def text (t : Timeouts) : String :=
  "Timeouts \x7b command: " ++ t.command.text ++ ", export: " ++ t.transfer.text ++ ", hardware: "
    ++ t.hardware.text ++ " \x7d"

end Timeouts

end PowerBench
