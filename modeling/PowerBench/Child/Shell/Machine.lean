import PowerBench.Child.Shell.Arithmetic
import PowerBench.Child.Shell.Syntax
import PowerBench.Child.Utility
import PowerBench.FileTree

/-!
# The machine that a script runs on

A machine has variables, positional parameters, descriptors, files and a clock that only commands which
take time advance. What is written goes into pipes, each piece with the time it was written at; pipe 0
is the output of the whole script.
-/

set_option autoImplicit false

namespace PowerBench.Child.Shell

/-- Where a descriptor leads. -/
inductive Sink where
  | pipe (n : Nat)
  | file (a : Address)
  | nowhere
  | closed
deriving DecidableEq, Repr

/-- Bytes written to a pipe at a time. -/
structure Written where
  pipe : Nat
  time : Nat
  bytes : Bytes
deriving Repr

/-- The last command in the background: its number, and its exit code. -/
structure Job where
  number : Nat
  status : Nat
deriving DecidableEq, Repr

/-- The state of a shell. `written` stands last piece first; `repeating` holds the pipes into which a
byte goes for ever, `readers` those that a command reads from. `held` is the time until which commands
in the background keep pipe 0 open, `ended` the time at which the last of them ends. `guarded` says that
a failure is expected, `broken` that an expansion could not be made; `substituted?` is the exit code of
the last command whose output stands in a word, and `loops` counts the loops around a command. -/
structure Machine where
  name : String
  line : Nat
  options : List Char
  parameters : List String
  bindings : List (String × String)
  functions : List (String × Command)
  traps : List (String × String)
  status : Nat
  clock : Nat
  written : List Written
  pipes : Nat
  repeating : List (Nat × UInt8)
  readers : List Nat
  input : Stream
  sinks : List (Nat × Sink)
  job? : Option Job
  held : Nat
  ended : Nat
  files : FileTree
  guarded : Bool
  broken : Bool
  substituted? : Option Nat
  loops : Nat

/-- How a command leaves the flow of a script. -/
inductive Flow where
  | next
  | leave (status : Nat)
  | killed (signal : Nat)
  | breakOut (levels : Nat)
  | goOn (levels : Nat)
  | goBack (status : Nat)
  | stuck
deriving DecidableEq, Repr

namespace Machine

def start (name : String) (files : FileTree) : Machine :=
  { name := name, line := 1, options := [], parameters := [], bindings := [("PWD", "/")]
    functions := [], traps := [], status := 0, clock := 0, written := [], pipes := 1, repeating := []
    readers := [], input := .empty, sinks := [(1, .pipe 0), (2, .pipe 0)], job? := none, held := 0
    ended := 0, files := files, guarded := false, broken := false, substituted? := none
    loops := 0 }

/-! ## Output -/

def sinkOf (descriptor : Nat) (m : Machine) : Sink := (m.sinks.lookup descriptor).getD .closed

def pointTo (descriptor : Nat) (sink : Sink) (m : Machine) : Machine :=
  { m with sinks := (descriptor, sink) :: m.sinks.filter (·.1 != descriptor) }

def write (descriptor : Nat) (bytes : Bytes) (m : Machine) : Machine :=
  if bytes.isEmpty then m
  else
    match m.sinkOf descriptor with
    | .pipe n => { m with written := ⟨n, m.clock, bytes⟩ :: m.written }
    | .file a =>
      { m with files := m.files.put a (.file ((m.files.contentAt? a).getD [] ++ bytes)) }
    | .nowhere => m
    | .closed => m

def writeError (text : String) (m : Machine) : Machine := m.write 2 (Utf8.encode text)

def complain (text : String) (status : Nat) (m : Machine) : Machine :=
  { m.writeError (m.name ++ ": " ++ toString m.line ++ ": " ++ text ++ "\n") with status := status }

/-- Output of the shell itself; nothing can be written to a closed descriptor. -/
def say (builtin : String) (bytes : Bytes) (m : Machine) : Machine :=
  if m.sinkOf 1 = .closed && !bytes.isEmpty then m.complain (builtin ++ ": " ++ builtin ++ ": I/O error") 1
  else { m.write 1 bytes with status := 0 }

/-- Shows a command among the complaints where that is asked for. -/
def traced (words : List String) (m : Machine) : Machine :=
  if m.options.contains 'x' && !words.isEmpty then
    m.writeError ("+ " ++ String.intercalate " " words ++ "\n")
  else m

/-- All that came through a pipe, in order of time. -/
def received (n : Nat) (m : Machine) : Bytes :=
  let pieces := (m.written.filter (·.pipe == n)).reverse
  (pieces.mergeSort fun a b => a.time ≤ b.time).flatMap Written.bytes

def stream (n : Nat) (m : Machine) : Stream := ⟨m.received n, m.repeating.lookup n⟩

/-- Whether the output of the whole script is open. -/
def holdsOutput (m : Machine) : Bool := m.sinks.any (·.2 == .pipe 0)

def fresh (name : String) (options : List Char) (parameters : List String) (m : Machine) : Machine :=
  { m with
    name := name, line := 1, options := options, parameters := parameters, functions := []
    traps := [], status := 0, job? := none, guarded := false, loops := 0 }

/-- The machine after a subshell: what was written, the files and the clock stay, all else is as
before. -/
def afterSubshell (before after : Machine) (status : Nat) : Machine :=
  { before with
    status := status, clock := after.clock, written := after.written, pipes := after.pipes
    repeating := after.repeating, held := after.held, ended := max before.ended after.ended
    files := after.files, input := after.input }

def withDescriptors (m other : Machine) : Machine := { m with sinks := other.sinks, input := other.input }

/-- Ends what runs in the background now; what it would have written later is never written. -/
def endJobs (status : Nat) (m : Machine) : Machine :=
  { m with
    written := m.written.filter (·.time ≤ m.clock), held := min m.held m.clock
    ended := min m.ended m.clock, job? := m.job?.map fun j => { j with status := status } }

/-! ## Parameters -/

def value? (m : Machine) (name : String) : Option String := m.bindings.lookup name

def assign (name value : String) (m : Machine) : Machine :=
  { m with bindings := (name, value) :: m.bindings.filter (·.1 != name) }

def forget (name : String) (m : Machine) : Machine :=
  { m with bindings := m.bindings.filter (·.1 != name) }

def restore (names : List String) (before m : Machine) : Machine :=
  names.foldl (fun m name => match before.value? name with
    | some v => m.assign name v
    | none => m.forget name) m

/-- The process number of the script itself. -/
def self : String := "1"

/-- The value of a parameter by its name or sign. -/
def parameter? (m : Machine) (name : List Char) : Option String :=
  match name with
  | ['?'] => some (toString m.status)
  | ['#'] => some (toString m.parameters.length)
  | ['@'] => some (String.intercalate " " m.parameters)
  | ['*'] => some (String.intercalate " " m.parameters)
  | ['0'] => some m.name
  | ['$'] => some self
  | ['!'] => m.job?.map fun j => toString j.number
  | ['-'] => some (String.ofList m.options)
  | name =>
    if name.all Char.isDigit then m.parameters[Utility.numberOf name - 1]?
    else m.value? (String.ofList name)

end Machine

/-! ## Fields -/

/-- Fields in the making: those that are complete, last first, and the one at hand, if any. -/
structure Fields where
  complete : List String
  current? : Option String

namespace Fields

def empty : Fields := ⟨[], none⟩

def add (s : String) (f : Fields) : Fields := { f with current? := some (f.current?.getD "" ++ s) }

def close (f : Fields) : Fields :=
  match f.current? with
  | some s => ⟨s :: f.complete, none⟩
  | none => f

def addSplit (s : String) (f : Fields) : Fields :=
  s.toList.foldl (fun f c =>
    if c == ' ' || c == '\t' || c == '\n' then f.close else f.add (String.ofList [c])) f

def addEach : List String → Fields → Fields
  | [], f => f
  | [s], f => f.add s
  | s :: rest, f => addEach rest (f.add s).close

/-- Adds text that is split unless it is quoted. -/
def addValue (quoted : Bool) (s : String) (f : Fields) : Fields :=
  if quoted then f.add s else f.addSplit s

def toList (f : Fields) : List String := f.close.complete.reverse

def text (f : Fields) : String := String.intercalate " " f.toList

end Fields

/-- Output of a command as a value: without the line ends at its end. -/
def withoutLineEnds (bytes : Bytes) : String :=
  String.ofList (trimRight (· == '\n') (Utf8.lossyChars bytes))

end PowerBench.Child.Shell
