import PowerBench.Entries
import PowerBench.Yaml.Value

/-!
# Metrics reports

The instrument's aggregate metrics: a list of channels, each with a name and any other fields, and
any other fields of the report as a whole.
-/

set_option autoImplicit false

namespace PowerBench

structure Channel where
  name : String
  fields : Entries Yaml.Value
deriving Repr, Inhabited

structure Report where
  channels : List Channel
  other : Entries Yaml.Value
deriving Repr, Inhabited

namespace Channel

def number? (c : Channel) (key : String) : Option Binary64 :=
  (c.fields.get? key).bind Yaml.Value.toFloat?

end Channel

namespace Report

/-- A name added to an ascending list of names, where it is not there yet. -/
def insertName (name : String) : List String → List String
  | [] => [name]
  | n :: rest =>
    if name < n then name :: n :: rest
    else if name = n then n :: rest
    else n :: insertName name rest

/-- The names of the channels, in ascending order, each once. -/
def channelNames (r : Report) : List String :=
  r.channels.foldl (fun names c => insertName c.name names) []

def channel? (r : Report) (name : String) : Option Channel :=
  r.channels.find? fun c => c.name == name

end Report

end PowerBench
