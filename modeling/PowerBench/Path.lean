import PowerBench.Text.Utf8

/-!
# Paths

A path is any byte string. Messages show it lossily, and so do the arguments handed to the
instrument.
-/

set_option autoImplicit false

namespace PowerBench

structure Path where
  bytes : Bytes
deriving DecidableEq, Repr, Inhabited

namespace Path

/-- The path whose bytes are the UTF-8 form of a text. -/
def ofText (s : String) : Path := ⟨Utf8.encode s⟩

/-- A path as text, broken stretches shown as U+FFFD. -/
def shown (p : Path) : String := Utf8.lossy p.bytes

def told (p : Path) : Path := ofText p.shown

/-- Whether the shown text ends with `ending`. -/
def shownEndsWith (p : Path) (ending : String) : Bool :=
  ending.toList.isSuffixOf p.shown.toList

end Path

end PowerBench
