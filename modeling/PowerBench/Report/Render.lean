import PowerBench.Json
import PowerBench.Report.Basic
import PowerBench.Yaml.Layout

/-!
# Writing metrics reports

A report is written as YAML or as JSON: the channels under `data`, then the other entries, and in a
channel its name before the other fields. JSON has text keys only, so a report with a key that has no
text cannot be written as JSON.
-/

set_option autoImplicit false

namespace PowerBench

open Yaml (Value)

namespace Report

inductive RenderFault where
  | keyWithoutText
  | keyNotFinite
deriving DecidableEq, Repr

def RenderFault.message : RenderFault → String
  | .keyWithoutText => "key must be a string"
  | .keyNotFinite => "float key must be finite (got NaN or +/-inf)"

/-! ## YAML -/

/-- Entries with text keys as entries of a YAML mapping. -/
def yamlEntries (es : Entries Value) : List (Value × Value) :=
  es.map fun e => (.string e.1, e.2)

def channelValue (c : Channel) : Value :=
  .mapping ((.string "name", .string c.name) :: yamlEntries c.fields)

def toEntries (r : Report) : List (Value × Value) :=
  (.string "data", .sequence (r.channels.map channelValue)) :: yamlEntries r.other

def yaml (r : Report) : String := Yaml.renderMapping r.toEntries

/-! ## JSON -/

def keyOfValue : Value → Except RenderFault String
  | .string s => .ok s
  | .bool b => .ok (if b then "true" else "false")
  | .int n => .ok (toString n)
  | .float x => if x.isFinite then .ok (Json.floatText x) else .error .keyNotFinite
  | _ => .error .keyWithoutText

mutual

def jsonOfValue : Value → Except RenderFault Json
  | .null => .ok .null
  | .bool b => .ok (.bool b)
  | .int n => .ok (.int n)
  | .float x => .ok (.float x)
  | .string s => .ok (.string s)
  | .sequence items => (jsonOfItems items).map .array
  | .mapping entries => (jsonOfEntries entries).map .object
  | .tagged tag v => (jsonOfValue v).map fun j => .object [(tag, j)]

def jsonOfItems : List Value → Except RenderFault (List Json)
  | [] => .ok []
  | v :: vs => do
    let j ← jsonOfValue v
    let js ← jsonOfItems vs
    pure (j :: js)

def jsonOfEntries : List (Value × Value) → Except RenderFault (List (String × Json))
  | [] => .ok []
  | (k, v) :: rest => do
    let key ← keyOfValue k
    let j ← jsonOfValue v
    let js ← jsonOfEntries rest
    pure ((key, j) :: js)

end

def toJson (r : Report) : Except RenderFault Json :=
  (jsonOfEntries r.toEntries).map .object

def json (r : Report) : Except RenderFault String := r.toJson.map Json.pretty

end Report

end PowerBench
