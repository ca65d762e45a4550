import PowerBench.CommandLine.Grammar

/-!
# The command line of `bitsctl`

The options of the program and of each of its commands.
-/

set_option autoImplicit false

namespace PowerBench.Control

open CommandLine

/-! ## Options -/

/-- A setting that is wanted at most once and has no fallback. -/
def plainSetting (long placeholder : String) (kind : ValueKind) (about : String) : Setting :=
  { long := long, placeholder := placeholder, kind := kind, required := false, repeatable := false
    environmentKey? := none, default? := none, about := about }

def binary : Setting :=
  { plainSetting "binary" "BINARY" .path "Instrument client binary to invoke" with
    environmentKey? := some "BITS_CLIENT_BINARY", default? := some "bits_client" }

def service : Setting :=
  { plainSetting "port" "PORT" (.number 65535) "Port the instrument service listens on" with
    required := true, environmentKey? := some "BITS_SERVICE_PORT" }

def config : Setting :=
  plainSetting "config" "CONFIG" .path "Service configuration file (TOML)"

/-- A flag without a short name that is remembered. -/
def plainFlag (long about : String) : Flag :=
  { long := long, short? := none, effect := .set, about := about }

def vmFile : Flag := plainFlag "vm-file" "Select the virtual metrics file on exports and metric queries"

def kibbles : Flag := plainFlag "kibbles" "Run collections in disk-space-saving mode"

def verbose : Flag :=
  { plainFlag "verbose" "Enable debug logging" with short? := some 'v' }

def help : Flag :=
  { long := "help", short? := some 'h', effect := .showHelp, about := "Print help" }

def version : Flag :=
  { long := "version", short? := some 'V', effect := .showVersion, about := "Print version" }

def samplingRate : Setting :=
  { plainSetting "sampling-rate" "SAMPLING_RATE" (.number 4294967295) "" with
    default? := some "1000" }

def channel : Setting :=
  { plainSetting "channel" "CHANNELS" .text "Channel to include (repeatable)" with
    required := true, repeatable := true }

def marker : Setting :=
  { plainSetting "marker" "MARKERS" .marker
      "Marker as TS=TEXT; TS is nanoseconds or an RFC 3339 time (repeatable)" with
    required := true, repeatable := true }

def startBound : Setting := plainSetting "start" "START" .time ""

def endBound : Setting := plainSetting "end" "END" .time ""

def format : Setting :=
  { plainSetting "format" "FORMAT" (.choice ["json", "yaml"]) "" with default? := some "yaml" }

/-! ## Operands -/

def name : Operand := { label := "<NAME>", kind := .text, about := "" }

def dest : Operand := { label := "<DEST>", kind := .path, about := "" }

def pattern : Operand := { label := "<PATTERN>", kind := .text, about := "" }

def action : Operand :=
  { label := "<ACTION>", kind := .choice ["acquire", "release", "usb-connect", "usb-disconnect"]
    about := "" }

/-! ## Commands -/

/-- A command; every one has the options `--verbose` and `--help`. -/
def command (name about : String) (settings : List Setting) (operands : List Operand) : Command :=
  { name := name
    about := about
    choices := settings.map Choice.setting ++ [.flag verbose, .flag help]
    operands := operands }

def grammar : Grammar :=
  { root :=
      { name := "bitsctl"
        about := "Control a BITS instrument service from the command line"
        choices :=
          [.setting binary, .setting service, .setting config, .flag vmFile, .flag kibbles,
            .flag verbose, .flag help, .flag version]
        operands := [] }
    commands :=
      [command "list-devices" "Print the instrument's device listing" [] [],
        command "start" "Start a named collection" [samplingRate] [name],
        command "stop" "Stop a named collection" [] [name],
        command "export" "Export a collection archive (destination must end in .7z.bits)" []
          [name, dest],
        command "export-csv" "Export selected channels as CSV" [channel] [name, dest],
        command "markers" "Add timestamped markers to a collection" [marker] [name],
        command "metrics" "Print aggregate metrics" [startBound, endBound, format] [name],
        command "channels" "List channel names present in a collection" [] [name],
        command "monsoon-export" "Export one channel in Monsoon text format" [] [name, pattern, dest],
        command "monsoon" "Monsoon hardware passthrough" [] [action]]
    version := "0.3.0" }

end PowerBench.Control
