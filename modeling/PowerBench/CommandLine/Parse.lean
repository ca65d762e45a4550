import PowerBench.CommandLine.Grammar
import PowerBench.Environment

/-!
# Reading a command line

Arguments are read from the left. The value of a setting that stands in an argument of its own, and an
operand, are kept aside and only looked at when the next argument has been recognised, so of two
faults the one that is recognised first is told, not always the leftmost. A command is read to its end
before what is left of the program's own arguments, its variables and its missing settings.
-/

set_option autoImplicit false

namespace PowerBench.CommandLine

inductive UsageFault where
  | unknownArgument (shown : String)
  | unknownCommand (shown : String)
  | valueAbsent (label : String) (words : List String)
  | valueUnneeded (shown label : String)
  | valueUnlisted (shown label : String) (words : List String)
  | valueRefused (shown label reason : String)
  | repeated (label : String)
  | missing (labels : List String)
  | commandAbsent (program : String) (commands : List String)
  | notText
deriving DecidableEq, Repr

namespace UsageFault

def wordsLine (heading : String) (words : List String) : String :=
  if words.isEmpty then ""
  else "\n  [" ++ heading ++ ": " ++ String.intercalate ", " words ++ "]"

def message : UsageFault → String
  | .unknownArgument shown => "unexpected argument '" ++ shown ++ "' found"
  | .unknownCommand shown => "unrecognized subcommand '" ++ shown ++ "'"
  | .valueAbsent label words =>
    "a value is required for '" ++ label ++ "' but none was supplied"
      ++ wordsLine "possible values" words
  | .valueUnneeded shown label =>
    "unexpected value '" ++ shown ++ "' for '" ++ label ++ "' found; no more were expected"
  | .valueUnlisted shown label words =>
    "invalid value '" ++ shown ++ "' for '" ++ label ++ "'" ++ wordsLine "possible values" words
  | .valueRefused shown label reason =>
    "invalid value '" ++ shown ++ "' for '" ++ label ++ "': " ++ reason
  | .repeated label => "the argument '" ++ label ++ "' cannot be used multiple times"
  | .missing labels =>
    "the following required arguments were not provided:"
      ++ String.join (labels.map fun l => "\n  " ++ l)
  | .commandAbsent program commands =>
    "'" ++ program ++ "' requires a subcommand but one was not provided"
      ++ wordsLine "subcommands" commands
  | .notText => "invalid UTF-8 was detected in one or more arguments"

def ofValue (label : String) (kind : ValueKind) : ValueFault → UsageFault
  | .notText => .notText
  | .absent => .valueAbsent label kind.words
  | .unlisted shown => .valueUnlisted shown label kind.words
  | .refused shown reason => .valueRefused shown label reason

end UsageFault

/-- Why reading ends before there is a command to run: help or the version is asked for, nothing at all
was given, or there is a fault. -/
inductive Halt where
  | help (command? : Option Command)
  | version
  | nothingGiven
  | fault (f : UsageFault)
deriving DecidableEq, Repr

/-! ## What has been given -/

/-- The arguments of one command, by long name or in order. -/
structure Given where
  flags : List String
  settings : List (String × Value)
  operands : List Value
deriving Repr

namespace Given

def has (f : Given) (long : String) : Bool := f.flags.contains long

def value? (f : Given) (long : String) : Option Value := f.settings.lookup long

def values (f : Given) (long : String) : List Value :=
  (f.settings.filter (·.1 == long)).map Prod.snd

def isEmpty (f : Given) : Bool := f.flags.isEmpty && f.settings.isEmpty && f.operands.isEmpty

end Given

/-- An argument that is recognised but not yet looked at. -/
inductive Pending where
  | setting (s : Setting) (value? : Option Bytes)
  | operand (o : Operand) (value : Bytes)
deriving DecidableEq, Repr

/-- The state of reading one command. `awaiting` says that the next argument can be the value of the
pending setting; `trailing` that only operands follow. -/
structure Level where
  given : Given
  pending? : Option Pending
  awaiting : Bool
  trailing : Bool
  next : Nat
deriving Repr

namespace Level

def start : Level :=
  { given := ⟨[], [], []⟩, pending? := none, awaiting := false, trailing := false, next := 0 }

def readValue (label : String) (kind : ValueKind) (bytes : Bytes) : Except Halt Value :=
  (kind.read bytes).mapError fun e => .fault (.ofValue label kind e)

def addSetting (s : Setting) (value? : Option Bytes) (given : Given) : Except Halt Given :=
  match value? with
  | none => .error (.fault (.valueAbsent s.label s.kind.words))
  | some bytes =>
    if !s.repeatable && (given.value? s.long).isSome then .error (.fault (.repeated s.label))
    else do
      let value ← readValue s.label s.kind bytes
      pure { given with settings := given.settings ++ [(s.long, value)] }

def resolve (l : Level) : Except Halt Level :=
  match l.pending? with
  | none => .ok l
  | some (.setting s value?) => do
    let given ← addSetting s value? l.given
    pure { l with given := given, pending? := none }
  | some (.operand o bytes) => do
    let value ← readValue o.label o.kind bytes
    pure { l with given := { l.given with operands := l.given.operands ++ [value] }, pending? := none }

def addFlag (c : Command) (f : Flag) (isRoot : Bool) (l : Level) : Except Halt Level := do
  let l ← l.resolve
  match f.effect with
  | .showHelp => .error (.help (if isRoot then none else some c))
  | .showVersion => .error .version
  | .set =>
    if l.given.has f.long then .error (.fault (.repeated f.label))
    else
      pure { l with given := { l.given with flags := l.given.flags ++ [f.long] }, awaiting := false }

/-- An argument that begins with two dashes, without them. -/
def readLong (c : Command) (isRoot : Bool) (body : Bytes) (l : Level) : Except Halt Level :=
  let name := body.takeWhile (· != 61)
  let value? : Option Bytes := match body.drop name.length with
    | [] => none
    | _ :: value => some value
  match (Utf8.decode? name).bind c.withLong? with
  | none => .error (.fault (.unknownArgument ("--" ++ Utf8.lossy name)))
  | some (.flag f) =>
    match value? with
    | some value => .error (.fault (.valueUnneeded (Utf8.lossy value) f.label))
    | none => l.addFlag c f isRoot
  | some (.setting s) => do
    let l ← l.resolve
    match value? with
    | some value =>
      let given ← addSetting s (some value) l.given
      pure { l with given := given, awaiting := false }
    | none => pure { l with pending? := some (.setting s none), awaiting := true }

/-- An argument that begins with one dash, without it: short names, one letter each. -/
def readShort (c : Command) (isRoot : Bool) : List Utf8.Piece → Level → Except Halt Level
  | [], l => .ok l
  | p :: rest, l =>
    match p.char? with
    | none =>
      let shown := (p :: rest).map fun p => p.char?.getD '\uFFFD'
      .error (.fault (.unknownArgument (String.ofList ('-' :: shown))))
    | some name =>
      match c.withShort? name with
      | some (.flag f) => do readShort c isRoot rest (← l.addFlag c f isRoot)
      | _ => .error (.fault (.unknownArgument (String.ofList ['-', name])))

def readOperand (g : Grammar) (c : Command) (isRoot : Bool) (bytes : Bytes) (l : Level) :
    Except Halt Level :=
  match c.operands[l.next]? with
  | some o => do
    let l ← l.resolve
    pure { l with pending? := some (.operand o bytes), awaiting := false, next := l.next + 1 }
  | none =>
    if isRoot && !(l.trailing && (g.command? bytes).isSome) then
      .error (.fault (.unknownCommand (Utf8.lossy bytes)))
    else .error (.fault (.unknownArgument (Utf8.lossy bytes)))

def readArgument (g : Grammar) (c : Command) (isRoot : Bool) (bytes : Bytes) (l : Level) :
    Except Halt Level :=
  if l.trailing then l.readOperand g c isRoot bytes
  else
    match bytes with
    | [45, 45] => .ok { l with trailing := true }
    | 45 :: 45 :: body => l.readLong c isRoot body
    | 45 :: b :: rest => l.readShort c isRoot (Utf8.pieces (b :: rest))
    | bytes =>
      match l.awaiting, l.pending? with
      | true, some (.setting s _) =>
        .ok { l with pending? := some (.setting s (some bytes)), awaiting := false }
      | _, _ => l.readOperand g c isRoot bytes

def readAll (g : Grammar) (c : Command) (l : Level) : List Bytes → Except Halt Level
  | [] => l.resolve
  | a :: rest => do readAll g c (← l.readArgument g c false a) rest

/-- Reads the arguments of the program up to the name of a command. -/
def readRoot (g : Grammar) (l : Level) : List Bytes → Except Halt (Level × Option (Command × List Bytes))
  | [] => .ok (l, none)
  | a :: rest =>
    match if l.trailing || l.awaiting then none else g.command? a with
    | some c => .ok (l, some (c, rest))
    | none => do readRoot g (← l.readArgument g g.root true a) rest

end Level

/-! ## The whole line -/

/-- The command that `help` is asked about. -/
def readHelp (g : Grammar) : List Bytes → Halt
  | [] => .help none
  | [name] =>
    match g.command? name with
    | some c => .help (some c)
    | none => .fault (.unknownCommand (Utf8.lossy name))
  | name :: more :: _ =>
    match g.command? name with
    | some _ => .fault (.unknownCommand (Utf8.lossy more))
    | none => .fault (.unknownCommand (Utf8.lossy name))

def addVariables (env : Environment) : List Setting → Given → Except Halt Given
  | [], given => .ok given
  | s :: rest, given =>
    match s.environmentKey?.bind fun key => env.lookup key with
    | some bytes =>
      if (given.value? s.long).isSome then addVariables env rest given
      else do addVariables env rest (← Level.addSetting s (some bytes) given)
    | none => addVariables env rest given

def missingLabels (c : Command) (given : Given) : List String :=
  ((c.settings.filter fun s => s.required && (given.value? s.long).isNone).map Setting.label)
    ++ (c.operands.drop given.operands.length).map Operand.label

def wantComplete (c : Command) (given : Given) : Except Halt Unit :=
  match missingLabels c given with
  | [] => .ok ()
  | labels => .error (.fault (.missing labels))

/-- A command line: what was given to the program, and the command with what was given to it. -/
structure Parsed where
  program : Given
  command : Command
  given : Given
deriving Repr

def parse (env : Environment) (g : Grammar) (args : List Bytes) : Except Halt Parsed := do
  match ← Level.start.readRoot g args with
  | (l, none) =>
    let program ← addVariables env g.root.settings (← l.resolve).given
    if program.isEmpty then .error .nothingGiven
    else
      .error (.fault (.commandAbsent g.root.name (g.allCommands.map Command.name)))
  | (l, some (c, rest)) =>
    if c.name = helpCommand.name then .error (readHelp g rest)
    else
      let given := (← Level.start.readAll g c rest).given
      wantComplete c given
      let program ← addVariables env g.root.settings (← l.resolve).given
      wantComplete g.root program
      pure { program := program, command := c, given := given }

end PowerBench.CommandLine
