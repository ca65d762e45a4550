import PowerBench.CommandLine.Grammar
import PowerBench.Environment

/-!
# Help

The help of a program lists its commands and options, that of a command its operands and options.
Entries stand in two columns; behind what an option does stand its variable, its default and the
words it can be.
-/

set_option autoImplicit false

namespace PowerBench.CommandLine.Help

/-- One line of a section: what is named, and what is said about it. -/
structure Row where
  name : String
  about : String
deriving DecidableEq, Repr

def columns (rows : List Row) : String :=
  let width := (rows.map fun r => r.name.length).foldl max 0
  String.join <| rows.map fun r =>
    "  " ++ r.name ++ String.ofList (List.replicate (width - r.name.length) ' ') ++ "  " ++ r.about
      ++ "\n"

/-- A section under a heading, or nothing. -/
def titled (heading : String) (rows : List Row) : String :=
  if rows.isEmpty then "" else "\n" ++ heading ++ ":\n" ++ columns rows

def wordsNote (kind : ValueKind) : List String :=
  if kind.words.isEmpty then []
  else ["[possible values: " ++ String.intercalate ", " kind.words ++ "]"]

/-- Pieces with a space between those that are not empty. -/
def spaced (pieces : List String) : String :=
  String.intercalate " " (pieces.filter (!·.isEmpty))

def settingAbout (env : Environment) (s : Setting) : String :=
  let variableNote := match s.environmentKey? with
    | some key => ["[env: " ++ key ++ "=" ++ Utf8.lossy ((env.lookup key).getD []) ++ "]"]
    | none => []
  let defaultNote := match s.default? with
    | some text => ["[default: " ++ text ++ "]"]
    | none => []
  spaced (s.about :: variableNote ++ defaultNote ++ wordsNote s.kind)

/-- The row of an option; room is left for a short name. -/
def choiceRow (env : Environment) (c : Choice) : Row :=
  let short := match c.short? with
    | some s => String.ofList ['-', s, ',', ' ']
    | none => "    "
  match c with
  | .flag f => ⟨short ++ f.label, f.about⟩
  | .setting s => ⟨short ++ s.label, settingAbout env s⟩

def operandRow (o : Operand) : Row := ⟨o.label, spaced (o.about :: wordsNote o.kind)⟩

def usage (g : Grammar) (c : Command) : String :=
  let options := if c.choices.isEmpty then [] else ["[OPTIONS]"]
  spaced (g.root.name :: g.root.requiredLabels ++ c.name :: options ++ c.requiredLabels
    ++ c.operands.map Operand.label)

def ofCommand (env : Environment) (g : Grammar) (c : Command) : String :=
  c.about ++ "\n\nUsage: " ++ usage g c ++ "\n" ++ titled "Arguments" (c.operands.map operandRow)
    ++ titled "Options" (c.choices.map (choiceRow env))

def ofProgram (env : Environment) (g : Grammar) : String :=
  g.root.about ++ "\n\nUsage: "
    ++ spaced (g.root.name :: "[OPTIONS]" :: g.root.requiredLabels ++ ["<COMMAND>"]) ++ "\n"
    ++ titled "Commands" (g.allCommands.map fun c => ⟨c.name, c.about⟩)
    ++ titled "Options" (g.root.choices.map (choiceRow env))

def version (g : Grammar) : String := g.root.name ++ " " ++ g.version ++ "\n"

end PowerBench.CommandLine.Help
