import PowerBench.Binary64.Shortest
import PowerBench.Text.Quoted

/-!
# Documents that do not have the wanted shape

What a reader of a structured document says when a well-formed document does not fit: what it found
and what it wanted.
-/

set_option autoImplicit false

namespace PowerBench

/-- What stands in the place of the wanted value. -/
inductive Found where
  | bool (b : Bool)
  | int (n : Int)
  | wide (n : Int) (word : String)
  | float (x : Binary64)
  | string (s : String)
  | nothing
  | sequence
  | map
deriving Repr, DecidableEq

/-- The wording for what was found. A whole number is shown with a point when it is fractional by
type. -/
def Found.text : Found → String
  | .bool b => if b then "boolean `true`" else "boolean `false`"
  | .int n => "integer `" ++ toString n ++ "`"
  | .wide n word => "integer `" ++ toString n ++ "` as " ++ word
  | .float x =>
    let digits := x.plain
    let shown := if x.isFinite && !digits.toList.contains '.' then digits ++ ".0" else digits
    "floating point `" ++ shown ++ "`"
  | .string s => "string " ++ Quoted.quote s
  | .nothing => "unit value"
  | .sequence => "sequence"
  | .map => "map"

inductive Mismatch where
  | invalidType (found : Found) (expected : String)
  | invalidValue (found : Found) (expected : String)
  | invalidLength (length : Nat) (expected : String)
  | missingField (name : String)
  | unknownField (name : String) (known : List String)
  | duplicateField (name : String)
  | unknownVariant (name : String) (known : List String)
deriving Repr, DecidableEq

/-- Names between back quotes: two are joined by `or`, more are listed. -/
def alternatives (names : List String) : String :=
  let quoted := names.map fun n => "`" ++ n ++ "`"
  match quoted with
  | [a] => a
  | [a, b] => a ++ " or " ++ b
  | _ => "one of " ++ String.intercalate ", " quoted

def Mismatch.message : Mismatch → String
  | .invalidType found expected => "invalid type: " ++ found.text ++ ", expected " ++ expected
  | .invalidValue found expected => "invalid value: " ++ found.text ++ ", expected " ++ expected
  | .invalidLength n expected => "invalid length " ++ toString n ++ ", expected " ++ expected
  | .missingField name => "missing field `" ++ name ++ "`"
  | .unknownField name known =>
    "unknown field `" ++ name ++ "`, expected " ++ alternatives known
  | .duplicateField name => "duplicate field `" ++ name ++ "`"
  | .unknownVariant name known =>
    "unknown variant `" ++ name ++ "`, expected " ++ alternatives known

end PowerBench
