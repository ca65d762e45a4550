import PowerBench.CommandLine.Value

/-!
# Command line grammars

A program takes options of its own, the name of one of its commands, and the options and operands of
that command. An option is a flag, or a setting that takes a value; operands are told apart by their
place.
-/

set_option autoImplicit false

namespace PowerBench.CommandLine

/-- An option with a value. A setting can fall back to an environment variable and to a default. -/
structure Setting where
  long : String
  placeholder : String
  kind : ValueKind
  required : Bool
  repeatable : Bool
  environmentKey? : Option String
  default? : Option String
  about : String
deriving DecidableEq, Repr

inductive FlagEffect where
  | set
  | showHelp
  | showVersion
deriving DecidableEq, Repr

/-- An option without a value. -/
structure Flag where
  long : String
  short? : Option Char
  effect : FlagEffect
  about : String
deriving DecidableEq, Repr

inductive Choice where
  | flag (f : Flag)
  | setting (s : Setting)
deriving DecidableEq, Repr

/-- An argument told by its place; the label is how messages name it. -/
structure Operand where
  label : String
  kind : ValueKind
  about : String
deriving DecidableEq, Repr

/-- A command with its options, in the order that help lists them, and its operands. -/
structure Command where
  name : String
  about : String
  choices : List Choice
  operands : List Operand
deriving DecidableEq, Repr

/-- A program: itself as a command without operands, its commands, and its version. -/
structure Grammar where
  root : Command
  commands : List Command
  version : String
deriving DecidableEq, Repr

def Flag.label (f : Flag) : String := "--" ++ f.long

def Setting.label (s : Setting) : String := "--" ++ s.long ++ " <" ++ s.placeholder ++ ">"

namespace Choice

def long : Choice → String
  | .flag f => f.long
  | .setting s => s.long

def short? : Choice → Option Char
  | .flag f => f.short?
  | .setting _ => none

def setting? : Choice → Option Setting
  | .flag _ => none
  | .setting s => some s

def label : Choice → String
  | .flag f => f.label
  | .setting s => s.label

end Choice

namespace Command

def settings (c : Command) : List Setting := c.choices.filterMap Choice.setting?

def withLong? (c : Command) (name : String) : Option Choice := c.choices.find? (·.long == name)

def withShort? (c : Command) (name : Char) : Option Choice :=
  c.choices.find? (·.short? == some name)

def requiredLabels (c : Command) : List String :=
  (c.settings.filter Setting.required).map Setting.label

end Command

/-- The command that every program has besides its own: it shows the help of a command. -/
def helpCommand : Command :=
  { name := "help"
    about := "Print this message or the help of the given subcommand(s)"
    choices := []
    operands :=
      [{ label := "[COMMAND]...", kind := .text, about := "Print help for the subcommand(s)" }] }

namespace Grammar

def allCommands (g : Grammar) : List Command := g.commands ++ [helpCommand]

def command? (g : Grammar) (name : Bytes) : Option Command :=
  g.allCommands.find? fun c => Utf8.encode c.name == name

end Grammar

end PowerBench.CommandLine
