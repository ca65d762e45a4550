import PowerBench.Path

/-!
# Shell words

A command line in a form that a shell reads back as the same words. A word of safe characters stands
as it is; any other word stands between single quotes, and the two characters that single quotes
cannot hold are written outside them behind a backslash.
-/

set_option autoImplicit false

namespace PowerBench.ShellWord

def isSafe (c : Char) : Bool :=
  ('a' ≤ c && c ≤ 'z') || ('A' ≤ c && c ≤ 'Z') || ('0' ≤ c && c ≤ '9')
    || c == '-' || c == '_' || c == '=' || c == '/' || c == ',' || c == '.' || c == '+'

/-- One character inside single quotes; a quote and an exclamation mark step outside. -/
def quoteChar (c : Char) : List Char :=
  if c = '\'' ∨ c = '!' then ['\'', '\\', c, '\''] else [c]

def quote (word : List Char) : List Char :=
  if !word.isEmpty && word.all isSafe then word
  else '\'' :: word.flatMap quoteChar ++ ['\'']

def commandLine (program : Path) (args : List String) : String :=
  String.ofList <|
    quote program.shown.toList ++ args.flatMap fun a => ' ' :: quote a.toList

end PowerBench.ShellWord
