import PowerBench.Environment
import PowerBench.Log.Entry

/-!
# Log filters

Which texts are filters, and what a filter lets through, is for the library to say that logs are made
with. So the language of filters is a parameter of all that is said about logs. The one thing that is
relied on is that the name of a level is a filter.
-/

set_option autoImplicit false

namespace PowerBench.Log

/-- A language of filters, each known by its text. -/
structure FilterLanguage where
  reads : String → Bool
  allows : String → Entry → Bool
  reads_level : ∀ name ∈ EnvReader.levelNames, reads name = true

end PowerBench.Log
