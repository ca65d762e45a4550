import PowerBench.Child.Shell.Machine

/-!
# Commands that the shell knows itself

The built-in commands that need no other command to run, and how utilities are run from a script.
-/

set_option autoImplicit false

namespace PowerBench.Child.Shell

/-! ## Tests -/

/-- Why a test has no answer. -/
inductive TestFault where
  | notNumber (text : String)
  | unexpectedOperator (text : String)
deriving DecidableEq, Repr

def TestFault.message : TestFault → String
  | .notNumber text => "Illegal number: " ++ text
  | .unexpectedOperator text => text ++ ": unexpected operator"

/-- A whole number with a sign and blanks around it. -/
def wholeNumber (s : String) : Except TestFault Int :=
  match trimBlanks s.toList with
  | '-' :: cs => unsigned cs (-1)
  | '+' :: cs => unsigned cs 1
  | cs => unsigned cs 1
where
  /-- Digits with a sign before them. -/
  unsigned (cs : List Char) (sign : Int) : Except TestFault Int :=
    if !cs.isEmpty && cs.all Char.isDigit then .ok (sign * Utility.numberOf cs)
    else .error (.notNumber s)

def leadsTo (files : FileTree) (directory : Bool) (path : String) : Bool :=
  match files.content (.ofText path) with
  | .ok _ => !directory
  | .error e => directory && e == .isDirectory

def compareNumbers (f : Int → Int → Bool) (a b : String) : Except TestFault Bool := do
  pure (f (← wholeNumber a) (← wholeNumber b))

def test (files : FileTree) : List String → Except TestFault Bool
  | [] => .ok false
  | [s] => .ok (!s.isEmpty)
  | [a, "=", b] => .ok (a == b)
  | [a, "!=", b] => .ok (a != b)
  | [a, "-eq", b] => compareNumbers (· == ·) a b
  | [a, "-ne", b] => compareNumbers (· != ·) a b
  | [a, "-lt", b] => compareNumbers (· < ·) a b
  | [a, "-le", b] => compareNumbers (· ≤ ·) a b
  | [a, "-gt", b] => compareNumbers (· > ·) a b
  | [a, "-ge", b] => compareNumbers (· ≥ ·) a b
  | [a, "-a", b] => .ok (!a.isEmpty && !b.isEmpty)
  | [a, "-o", b] => .ok (!a.isEmpty || !b.isEmpty)
  | ["-n", s] => .ok (!s.isEmpty)
  | ["-z", s] => .ok s.isEmpty
  | ["-t", _] => .ok false
  | ["-f", s] => .ok (leadsTo files false s)
  | ["-d", s] => .ok (leadsTo files true s)
  | ["-e", s] => .ok (leadsTo files false s || leadsTo files true s)
  | ["-r", s] => .ok (leadsTo files false s || leadsTo files true s)
  | "!" :: rest => (test files rest).map (!·)
  | a :: _ => .error (.unexpectedOperator a)

/-- Tests joined by `-a`, which binds tighter, and `-o`. -/
def testJoined (files : FileTree) (args : List String) : Except TestFault Bool :=
  if args.length ≤ 3 then test files args
  else do
    let answers ← (args.splitOn "-o").mapM fun part => do
      pure ((← (part.splitOn "-a").mapM (test files)).all id)
    pure (answers.any id)

/-! ## Arguments -/

def numberArgument? (s : String) : Option Nat :=
  if !s.isEmpty && s.toList.all Char.isDigit then some (Utility.numberOf s.toList) else none

/-- The signals by number, name, and what is told of a command that one of them ended. -/
def signals : List (Nat × String × String) :=
  [(1, "HUP", "Hangup"), (2, "INT", ""), (3, "QUIT", "Quit"), (4, "ILL", "Illegal instruction"),
    (5, "TRAP", "Trace/breakpoint trap"), (6, "ABRT", "Aborted"), (7, "BUS", "Bus error"),
    (8, "FPE", "Floating point exception"), (9, "KILL", "Killed"),
    (10, "USR1", "User defined signal 1"), (11, "SEGV", "Segmentation fault"),
    (12, "USR2", "User defined signal 2"), (13, "PIPE", ""), (14, "ALRM", "Alarm clock"),
    (15, "TERM", "Terminated"), (17, "CHLD", ""), (18, "CONT", ""), (19, "STOP", ""), (20, "TSTP", ""),
    (21, "TTIN", ""), (22, "TTOU", ""), (23, "URG", ""), (28, "WINCH", "")]

/-- A signal by name or number; zero is the end of the script. -/
def signal? (s : String) : Option Nat :=
  let name := if s.startsWith "SIG" then (s.drop 3).toString else s
  if name = "EXIT" then some 0
  else
    match numberArgument? name with
    | some n => some n
    | none => (signals.find? fun x => x.2.1 == name).map (·.1)

def signalName (s : String) : String :=
  match signal? s with
  | some 0 => "EXIT"
  | some n => ((signals.find? fun x => x.1 == n).map (·.2.1)).getD s
  | none => s

/-- What becomes of a process that a signal reaches. -/
inductive Reaction where
  | ignores
  | stops
  | ends
deriving DecidableEq, Repr

def reaction (signal : Nat) : Reaction :=
  if [17, 18, 23, 28].contains signal then .ignores
  else if [19, 20, 21, 22].contains signal then .stops
  else .ends

/-- The first line of an input, and what is left. -/
def firstLine (s : Stream) : Bytes × Stream × Bool :=
  let line := s.bytes.takeWhile (· != 10)
  match s.bytes.drop line.length with
  | [] => (line, ⟨[], s.endless?⟩, false)
  | _ :: rest => (line, ⟨rest, s.endless?⟩, true)

/-- Gives the words of a line to names; the last name takes all that is left. -/
def assignWords : List String → List String → Machine → Machine
  | [], _, m => m
  | [name], words, m => m.assign name (String.intercalate " " words)
  | name :: names, words, m => assignWords names (words.drop 1) (m.assign name (words.headD ""))

def assignArgument (m : Machine) (a : String) : Machine :=
  let name := a.toList.takeWhile (· != '=')
  match a.toList.drop name.length with
  | [] => m
  | _ :: value => m.assign (String.ofList name) (String.ofList value)

/-- The arguments of `set`: options to switch on or off, and perhaps new parameters. -/
def setOptions : List String → Machine → Machine
  | [], m => m
  | "--" :: rest, m => { m with parameters := rest }
  | a :: rest, m =>
    match a.toList with
    | '-' :: c :: cs => setOptions rest { m with options := m.options ++ c :: cs }
    | '+' :: c :: cs =>
      setOptions rest { m with options := m.options.filter fun o => !(c :: cs).contains o }
    | _ => { m with parameters := a :: rest }

/-! ## Utilities -/

def openStream (m : Machine) (name : String) : Except IoFault Stream :=
  match name with
  | "/dev/null" => .ok .empty
  | "/dev/zero" => .ok ⟨[], some 0⟩
  | "/dev/urandom" => .ok ⟨[], some 0⟩
  | "/dev/random" => .ok ⟨[], some 0⟩
  | "/dev/stdin" => .ok m.input
  | "/dev/fd/0" => .ok m.input
  | name => (m.files.content (.ofText name)).map Stream.ofBytes

/-- The descriptors and devices that have a name of their own. -/
def sinkNamed? (name : String) (m : Machine) : Option Sink :=
  match name with
  | "/dev/null" => some .nowhere
  | "/dev/stdout" => some (m.sinkOf 1)
  | "/dev/stderr" => some (m.sinkOf 2)
  | "/dev/fd/1" => some (m.sinkOf 1)
  | "/dev/fd/2" => some (m.sinkOf 2)
  | _ => none

/-- Whether a program reads the input when given these arguments. -/
def readsInput (name : String) (args : List String) : Bool :=
  match name with
  | "cat" => (Utility.splitOptions args).2.isEmpty
  | "tr" => true
  | "wc" => (Utility.splitOptions args).2.isEmpty
  | "head" => (Utility.operands args).isEmpty
  | "tail" => (Utility.operands args).isEmpty
  | _ => false

def perform (e : Effect) (m : Machine) : Flow × Machine :=
  let m := e.writes.foldl (fun m w => m.write (match w.1 with
    | .out => 1
    | .err => 2) w.2) m
  match e.ending with
  | .exits status took => (.next, { m with clock := m.clock + took.nanos, status := status })
  | .hangs => (.stuck, m)
  | .repeats b =>
    match m.sinkOf 1 with
    | .pipe n =>
      if m.readers.contains n then
        (.next, { m with repeating := (n, b) :: m.repeating, status := 141 })
      else (.stuck, m)
    | _ => (.stuck, m)

/-- Runs a utility that was called by the name `self`. -/
def runUtility (name self : String) (args : List String) (m : Machine) : Option (Flow × Machine) :=
  (Utility.run? name self (openStream m) m.input args).map fun e =>
    let (flow, m) := perform e m
    (flow, { m with input := if readsInput name args then .empty else m.input })

/-! ## Built-in commands -/

/-- The built-in commands that end a script when they fail, and whose assignments last. -/
def specialBuiltins : List String :=
  [":", ".", "break", "continue", "eval", "exec", "exit", "export", "readonly", "return", "set",
    "shift", "times", "trap", "unset"]

def otherBuiltins : List String :=
  ["[", "cd", "command", "echo", "false", "kill", "local", "printf", "pwd", "read", "test", "true",
    "type", "umask", "wait"]

/-- The answer of a test as an exit code. -/
def runTest (name : String) (args : List String) (m : Machine) : Flow × Machine :=
  match testJoined m.files args with
  | .ok b => (.next, { m with status := if b then 0 else 1 })
  | .error fault => (.next, m.complain (name ++ ": " ++ fault.message) 2)

/-- Leaves for as many levels as an argument says. -/
def levels (args : List String) : Nat := (args.head?.bind numberArgument?).getD 1

/-- Leaves with the exit code that the first argument asks for. -/
def leaving (name : String) (flow : Nat → Flow) (args : List String) (m : Machine) : Flow × Machine :=
  match args with
  | [] => (flow m.status, m)
  | a :: _ =>
    match numberArgument? a with
    | some n => (flow (n % 256), m)
    | none => (.leave 2, m.complain (name ++ ": Illegal number: " ++ a) 2)

def setTraps (args : List String) (m : Machine) : Machine :=
  match args with
  | [] => m
  | action :: conditions =>
    let names := conditions.map signalName
    let others := m.traps.filter fun t => !names.contains t.1
    { m with traps := if action = "-" then others else names.map (·, action) ++ others }

def readLineInto (args : List String) (m : Machine) : Machine :=
  let (line, rest, whole) := firstLine m.input
  let names := if args.head? == some "-r" then args.drop 1 else args
  let words := (Fields.empty.addSplit (Utf8.lossy line)).toList
  { assignWords names words { m with input := rest } with status := if whole then 0 else 1 }

def waitForJobs (args : List String) (m : Machine) : Machine :=
  let m := { m with clock := max m.clock m.ended }
  match args with
  | [] => { m with status := 0 }
  | a :: _ =>
    let status := match m.job? with
      | some j => if a = toString j.number then j.status else 127
      | none => 127
    { m with status := status }

/-- Runs a built-in command; `none` if there is none of that name. -/
def runBuiltin (name : String) (args : List String) (m : Machine) : Option (Flow × Machine) :=
  let done (m : Machine) : Option (Flow × Machine) := some (.next, { m with status := 0 })
  match name with
  | ":" => done m
  | "true" => done m
  | "false" => some (.next, { m with status := 1 })
  | "echo" => some (.next, m.say "echo" (Utility.shellEcho args))
  | "printf" =>
    match if args.head? == some "--" then args.drop 1 else args with
    | [] => some (.next, m.complain "printf: usage: printf format [arg ...]" 2)
    | format :: args =>
      let (bytes, faults) := Utility.shellPrintf format args
      let m := faults.foldl (fun m f => m.complain ("printf: " ++ f) 1) m
      let m := m.say "printf" bytes
      some (.next, { m with status := if faults.isEmpty then m.status else 1 })
  | "pwd" => some (.next, m.say "pwd" (Utf8.encode ((m.value? "PWD").getD "/" ++ "\n")))
  | "test" => some (runTest "test" args m)
  | "[" =>
    if args.getLast? == some "]" then some (runTest "[" args.dropLast m)
    else some (.next, m.complain "[: missing ]" 2)
  | "exit" => some (leaving "exit" .leave args m)
  | "return" => some (leaving "return" .goBack args m)
  | "break" => if m.loops = 0 then done m else some (.breakOut (levels args), m)
  | "continue" => if m.loops = 0 then done m else some (.goOn (levels args), m)
  | "shift" =>
    if levels args ≤ m.parameters.length then
      done { m with parameters := m.parameters.drop (levels args) }
    else some (.leave 2, m.complain "shift: can't shift that many" 2)
  | "set" => done (setOptions args m)
  | "export" => done (args.foldl assignArgument m)
  | "readonly" => done (args.foldl assignArgument m)
  | "local" => done (args.foldl assignArgument m)
  | "unset" =>
    done { m with
      bindings := m.bindings.filter fun v => !args.contains v.1
      functions := if args.head? == some "-f" then m.functions.filter fun f => !args.contains f.1
        else m.functions }
  | "cd" =>
    match args with
    | [] => done m
    | dir :: _ =>
      if leadsTo m.files true dir then done (m.assign "PWD" dir)
      else some (.next, m.complain ("cd: can't cd to " ++ dir) 2)
  | "umask" => if args.isEmpty then some (.next, m.say "umask" (Utf8.encode "0022\n")) else done m
  | "wait" => some (.next, waitForJobs args m)
  | "trap" => done (setTraps args m)
  | "read" => some (.next, readLineInto args m)
  | _ => none

/-- Where a command of some name comes from; `none` if there is none. -/
def whereabouts (name : String) (m : Machine) : Option String :=
  if (m.functions.lookup name).isSome || specialBuiltins.contains name || otherBuiltins.contains name
  then some name
  else if ("sh" :: Utility.names).contains name then some ("/usr/bin/" ++ name)
  else none

end PowerBench.Child.Shell
