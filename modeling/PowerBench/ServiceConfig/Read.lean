import PowerBench.ServiceConfig.Basic
import PowerBench.Toml.Document

/-!
# Reading service configurations

A configuration file is a TOML document with three switches, a list of monitors and free settings.
The whole document must be well-formed; then its entries are looked at in key order, and the first
one that does not fit is the fault. Nothing but the documented keys is allowed. The settings are taken
over as JSON values: a date is an object with one key, and a number that is not finite is null.
-/

set_option autoImplicit false

namespace PowerBench.ServiceConfig

open Toml (Value Scalar)

/-- The key of the object that stands for a date. -/
def datetimeKey : String := "$__toml_private_datetime"

/-- An integer in the place of something else: shown by the narrowest type that holds it. -/
def foundInt (n : Int) : Except ConfigFault Found :=
  if fitsSigned 64 n || fitsUnsigned 64 n then .ok (.int n)
  else if fitsSigned 128 n then .ok (.wide n "i128")
  else if fitsUnsigned 128 n then .ok (.wide n "u128")
  else .error .syntaxError

/-- What stands in the place of something else. A date counts as a map. -/
def found : Value → Except ConfigFault Found
  | .scalar (.string s) => .ok (.string s)
  | .scalar (.int n) => foundInt n
  | .scalar (.float x) => .ok (.float x)
  | .scalar .tooLarge => .error .syntaxError
  | .scalar (.bool b) => .ok (.bool b)
  | .scalar (.datetime _) => .ok .map
  | .array _ => .ok .sequence
  | .table _ => .ok .map

/-- The fault of a value that is not of the wanted kind. -/
def unexpected {α : Type} (expected : String) (v : Value) : Except ConfigFault α := do
  let f ← found v
  .error (.shape (.invalidType f expected))

def readSwitch : Value → Except ConfigFault Bool
  | .scalar (.bool b) => .ok b
  | v => unexpected "a boolean" v

def readText : Value → Except ConfigFault String
  | .scalar (.string s) => .ok s
  | v => unexpected "a string" v

/-! ## Monitors -/

def kindOfName (name : String) : Except ConfigFault MonitorKind :=
  if name = "hv" then .ok .hv
  else if name = "lv" then .ok .lv
  else .error (.shape (.unknownVariant name ["hv", "lv"]))

/-- A monitor kind: its name, or a table whose only key is its name, with nothing in it. -/
def readKind : Value → Except ConfigFault MonitorKind
  | .scalar (.string s) => kindOfName s
  | .table [] => .error .noElement
  | .table [(name, content)] => do
    let kind ← kindOfName name
    match content with
    | .table [] => .ok kind
    | .array [] => .ok kind
    | _ => .error .syntaxError
  | .table _ => .error .severalElements
  | _ => .error .notStringOrTable

def readMonitorEntries : Option MonitorKind → Option String → List (String × Value) →
    Except ConfigFault Monitor
  | kind?, serial?, [] =>
    match kind?, serial? with
    | none, _ => .error (.shape (.missingField "kind"))
    | some _, none => .error (.shape (.missingField "serial"))
    | some kind, some serial => .ok ⟨kind, serial⟩
  | kind?, serial?, (key, v) :: rest =>
    if key = "kind" then do
      let kind ← readKind v
      readMonitorEntries (some kind) serial? rest
    else if key = "serial" then do
      let serial ← readText v
      readMonitorEntries kind? (some serial) rest
    else .error (.shape (.unknownField key ["kind", "serial"]))

def monitorShape : String := "struct MonsoonEntry"

/-- A monitor: a table, or its kind and serial in an array. -/
def readMonitor : Value → Except ConfigFault Monitor
  | .table entries => readMonitorEntries none none entries
  | .scalar (.datetime _) => .error (.shape (.unknownField datetimeKey ["kind", "serial"]))
  | .array [] => .error (.shape (.invalidLength 0 (monitorShape ++ " with 2 elements")))
  | .array [k] => do
    let _ ← readKind k
    .error (.shape (.invalidLength 1 (monitorShape ++ " with 2 elements")))
  | .array (k :: s :: _) => do
    let kind ← readKind k
    let serial ← readText s
    .ok ⟨kind, serial⟩
  | v => unexpected monitorShape v

def readMonitors : Value → Except ConfigFault (List Monitor)
  | .array items => items.mapM readMonitor
  | v => unexpected "a sequence" v

/-! ## Settings -/

def settingOfScalar : Scalar → Except ConfigFault Json
  | .string s => .ok (.string s)
  | .int n => if fitsSigned 64 n || fitsUnsigned 64 n then .ok (.int n) else .error .syntaxError
  | .float x => .ok (if x.isFinite then .float x else .null)
  | .tooLarge => .error .syntaxError
  | .bool b => .ok (.bool b)
  | .datetime text => .ok (.object [(datetimeKey, .string text)])

mutual

def readSetting : Value → Except ConfigFault Json
  | .scalar s => settingOfScalar s
  | .array items => (readSettingItems items).map .array
  | .table entries => (readSettingEntries entries).map .object

def readSettingItems : List Value → Except ConfigFault (List Json)
  | [] => .ok []
  | v :: vs => do
    let j ← readSetting v
    let js ← readSettingItems vs
    pure (j :: js)

def readSettingEntries : List (String × Value) → Except ConfigFault (List (String × Json))
  | [] => .ok []
  | (k, v) :: rest => do
    let j ← readSetting v
    let js ← readSettingEntries rest
    pure ((k, j) :: js)

end

def readSettings : Value → Except ConfigFault (Entries Json)
  | .table entries => readSettingEntries entries
  | .scalar (.datetime text) => .ok [(datetimeKey, .string text)]
  | v => unexpected "a map" v

/-! ## Files -/

structure FileContent where
  virtualMetrics : Bool := false
  kibbles : Bool := false
  collectors : Bool := true
  monitors : List Monitor := []
  settings : Entries Json := []
deriving Repr

namespace FileContent

def keys : List String :=
  ["virtual_metrics_file", "kibbles", "collectors_enabled", "monsoon", "settings"]

/-- What the entries of a document say, in key order. -/
def ofEntries (f : FileContent) : List (String × Value) → Except ConfigFault FileContent
  | [] => .ok f
  | (key, v) :: rest =>
    if key = "virtual_metrics_file" then do
      let on ← readSwitch v
      ofEntries { f with virtualMetrics := on } rest
    else if key = "kibbles" then do
      let on ← readSwitch v
      ofEntries { f with kibbles := on } rest
    else if key = "collectors_enabled" then do
      let on ← readSwitch v
      ofEntries { f with collectors := on } rest
    else if key = "monsoon" then do
      let monitors ← readMonitors v
      ofEntries { f with monitors := monitors } rest
    else if key = "settings" then do
      let settings ← readSettings v
      ofEntries { f with settings := settings } rest
    else .error (.shape (.unknownField key keys))

def read (text : String) : Except ConfigFault FileContent :=
  match Toml.read? text with
  | none => .error .syntaxError
  | some entries => ofEntries {} entries

/-- Puts a monitor into the slot of its kind, which must be free. -/
def addMonitor (d : Draft) (m : Monitor) : Except ConfigFault Draft :=
  match m.kind with
  | .hv =>
    if d.hvSerial?.isSome then .error (.repeatedKind .hv)
    else .ok { d with hvSerial? := some m.serial }
  | .lv =>
    if d.lvSerial?.isSome then .error (.repeatedKind .lv)
    else .ok { d with lvSerial? := some m.serial }

def toDraft (f : FileContent) : Except ConfigFault Draft := do
  let d ← f.monitors.foldlM addMonitor
    { virtualMetrics := f.virtualMetrics, kibbles := f.kibbles, collectors := f.collectors }
  pure { d with settings := f.settings }

end FileContent

def read (text : String) : Except ConfigFault ServiceConfig := do
  let f ← FileContent.read text
  let d ← f.toDraft
  d.build

end PowerBench.ServiceConfig
