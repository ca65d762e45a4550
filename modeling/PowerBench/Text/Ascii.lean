/-!
# ASCII letters

The capital letters of ASCII made small; all other characters stay as they are.
-/

set_option autoImplicit false

namespace PowerBench

/-- A text with the capital letters of ASCII made small. -/
def lowerAscii (s : String) : String := String.ofList (s.toList.map Char.toLower)

end PowerBench
