import PowerBench.ClientError
import PowerBench.ServiceConfig.Read

/-!
# Configuration files

A configuration file has to be readable, hold UTF-8 text, and describe a configuration; what is wrong
with its text is told with the name of the file.
-/

set_option autoImplicit false

namespace PowerBench.ServiceConfig

/-- The configuration of a file, given what came of reading it. -/
def load (path : Path) (content : Except IoFault Bytes) : Except ClientError ServiceConfig :=
  match content with
  | .error cause => .error (.io cause)
  | .ok bytes =>
    match Utf8.decode? bytes with
    | none => .error (.io .notText)
    | some text => (read text).mapError fun cause => .badConfig (.inFile path cause)

end PowerBench.ServiceConfig
