import PowerBench.Json
import PowerBench.Mismatch
import PowerBench.Path
import PowerBench.Text.Blank

/-!
# Service configuration

Which optional capabilities the instrument service was started with. A configuration is checked once,
when it is built from a `Draft`: a service drives at most one power monitor, the monitor's serial is
not blank, and a monitor needs the collectors enabled.
-/

set_option autoImplicit false

namespace PowerBench

/-- The two kinds of power monitor: high and low voltage. -/
inductive MonitorKind where
  | hv
  | lv
deriving DecidableEq, Repr

/-- A power monitor by kind and serial. -/
structure Monitor where
  kind : MonitorKind
  serial : String
deriving DecidableEq, Repr

/-- A checked configuration. The settings are passed through untouched. -/
structure ServiceConfig where
  virtualMetrics : Bool
  kibbles : Bool
  collectors : Bool
  monitor? : Option Monitor
  settings : Entries Json
deriving Repr

/-- Why a configuration is refused. -/
inductive ConfigFault where
  | bothMonitors
  | blankSerial
  | collectorsDisabled
  | repeatedKind (kind : MonitorKind)
  | syntaxError
  | shape (m : Mismatch)
  | notStringOrTable
  | noElement
  | severalElements
  | inFile (path : Path) (cause : ConfigFault)
  | described (text : String)
deriving Repr

def ConfigFault.message : ConfigFault → String
  | .bothMonitors => "both an HV and an LV monsoon serial are set; a service drives one monitor"
  | .blankSerial => "monsoon serial is empty"
  | .collectorsDisabled => "monsoon-backed configuration requires collectors to be enabled"
  | .repeatedKind .hv => "monsoon kind Hv declared more than once"
  | .repeatedKind .lv => "monsoon kind Lv declared more than once"
  | .syntaxError => "syntax"
  | .shape m => m.message
  | .notStringOrTable => "wanted string or table"
  | .noElement => "wanted exactly 1 element, found 0 elements"
  | .severalElements => "wanted exactly 1 element, more than 1 element"
  | .inFile path cause => path.shown ++ ": " ++ cause.message
  | .described text => text

namespace ServiceConfig

/-- No optional capability, collectors enabled. -/
def default : ServiceConfig :=
  { virtualMetrics := false, kibbles := false, collectors := true, monitor? := none, settings := [] }

instance : Inhabited ServiceConfig := ⟨default⟩

def same (a b : ServiceConfig) : Bool :=
  a.virtualMetrics == b.virtualMetrics && a.kibbles == b.kibbles && a.collectors == b.collectors
    && a.monitor? == b.monitor? && Json.sameEntries a.settings b.settings

/-- A configuration in the making; both monitor slots can be filled. -/
structure Draft where
  virtualMetrics : Bool := false
  kibbles : Bool := false
  collectors : Bool := true
  hvSerial? : Option String := none
  lvSerial? : Option String := none
  settings : Entries Json := []
deriving Repr, Inhabited

namespace Draft

def setVirtualMetrics (on : Bool) (d : Draft) : Draft := { d with virtualMetrics := on }

def setKibbles (on : Bool) (d : Draft) : Draft := { d with kibbles := on }

def setCollectors (on : Bool) (d : Draft) : Draft := { d with collectors := on }

def setHvSerial (serial : String) (d : Draft) : Draft := { d with hvSerial? := some serial }

def setLvSerial (serial : String) (d : Draft) : Draft := { d with lvSerial? := some serial }

def setSetting (key : String) (value : Json) (d : Draft) : Draft :=
  { d with settings := d.settings.insert key value }

def monitor? (d : Draft) : Except ConfigFault (Option Monitor) :=
  match d.hvSerial?, d.lvSerial? with
  | some _, some _ => .error .bothMonitors
  | some serial, none => .ok (some ⟨.hv, serial⟩)
  | none, some serial => .ok (some ⟨.lv, serial⟩)
  | none, none => .ok none

/-- What a monitor asks for: a serial that is not blank, then enabled collectors. -/
def checkMonitor (collectors : Bool) : Option Monitor → Except ConfigFault Unit
  | none => .ok ()
  | some m =>
    if allBlank m.serial then .error .blankSerial
    else if !collectors then .error .collectorsDisabled
    else .ok ()

def build (d : Draft) : Except ConfigFault ServiceConfig := do
  let monitor ← d.monitor?
  checkMonitor d.collectors monitor
  pure
    { virtualMetrics := d.virtualMetrics, kibbles := d.kibbles, collectors := d.collectors,
      monitor? := monitor, settings := d.settings }

end Draft

def toDraft (c : ServiceConfig) : Draft :=
  { virtualMetrics := c.virtualMetrics
    kibbles := c.kibbles
    collectors := c.collectors
    hvSerial? := c.monitor?.bind fun m => if m.kind = .hv then some m.serial else none
    lvSerial? := c.monitor?.bind fun m => if m.kind = .lv then some m.serial else none
    settings := c.settings }

end ServiceConfig

end PowerBench
