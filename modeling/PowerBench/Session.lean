import PowerBench.ClientError
import PowerBench.FileTree
import PowerBench.Log.Entry
import PowerBench.Request
import PowerBench.Text.Quoted

/-!
# Sessions

A session is what operations of the client work on: the instrument, the files, the calls made so far,
what has been logged, and what has gone to the standard output of the program. The instrument is any
machine that answers a call: with what it printed or a failure, and with what it did to the file that the
call named. A scratch file is made under a name that is not in use.
-/

set_option autoImplicit false

namespace PowerBench

/-- What a finished call printed, and its exit code; a process ended by a signal has none. -/
structure Finished where
  output : String
  exitCode? : Option Int
deriving DecidableEq, Repr

namespace Finished

def success (f : Finished) : Bool := f.exitCode? == some 0

/-- An exit code as log entries show it. -/
def exitCodeText (code? : Option Int) : String :=
  match code? with
  | some n => "Some(" ++ toString n ++ ")"
  | none => "None"

end Finished

/-- What a call did to the file that it named. -/
inductive FileEffect where
  | keep
  | write (content : Bytes)
  | remove
deriving DecidableEq, Repr

/-- The files after an effect at an address. The standard output of the program is not the one of the
instrument, which cannot reach it. -/
def FileEffect.apply (files : FileTree) (a : Address) : FileEffect → FileTree
  | .keep => files
  | .write content => files.write a content
  | .remove => if files.node? a = some .output then files else files.erase a

/-- The answer to one call. -/
structure Reply where
  result : Except ClientError Finished
  file : FileEffect
  log : List Log.Entry
deriving Repr

/-- A machine with states `σ` that answers calls. -/
abbrev Instrument (σ : Type) := FileTree → Call → σ → Reply × σ

/-- What operations work on: calls and log entries stand oldest first, `scratch` counts the scratch
files made so far, and `printed` is what the standard output has been given. -/
structure Session (σ : Type) where
  state : σ
  files : FileTree
  calls : List Call
  log : List Log.Entry
  scratch : Nat
  printed : String
deriving Repr

abbrev Operation (σ α : Type) := ExceptT ClientError (StateM (Session σ)) α

namespace Session

def start {σ : Type} (state : σ) (files : FileTree) : Session σ :=
  { state := state, files := files, calls := [], log := [], scratch := 0, printed := "" }

def print {σ : Type} (text : String) (s : Session σ) : Session σ :=
  { s with printed := s.printed ++ text }

/-- A session that has written a text to what was opened at an address. -/
def write {σ : Type} (a : Address) (text : List Char) (s : Session σ) : Session σ :=
  { s with
    files := s.files.write a (Utf8.encodeChars text)
    printed := if s.files.node? a = some .output then s.printed ++ String.ofList text else s.printed }

/-! ## Scratch files -/

def scratchDirectory : Address := [Utf8.encode "tmp"]

/-- What a scratch file holds: a dump of metrics, or the rows of a trace. -/
inductive ScratchKind where
  | dump
  | rows
deriving DecidableEq, Repr

def ScratchKind.opening : ScratchKind → String
  | .dump => "bits_metrics"
  | .rows => "bits_csv_"

def ScratchKind.ending : ScratchKind → String
  | .dump => ".yaml"
  | .rows => ".csv"

def tagCharacters : List Char :=
  "0123456789ABCDEFGHIJKLMNOPQRSTUVWXYZabcdefghijklmnopqrstuvwxyz".toList

/-- The six letters and digits that tell scratch files apart. -/
def scratchTag (n : Nat) : String :=
  String.ofList ((List.range 6).map fun i => tagCharacters.getD (n / Nat.pow 62 i % 62) '0')

/-- A scratch file: its kind and its number. -/
structure Scratch where
  kind : ScratchKind
  number : Nat
deriving DecidableEq, Repr

namespace Scratch

def name (s : Scratch) : String := s.kind.opening ++ scratchTag s.number ++ s.kind.ending

def address (s : Scratch) : Address := scratchDirectory ++ [Utf8.encode s.name]

def path (s : Scratch) : Path := .ofText ("/tmp/" ++ s.name)

end Scratch

/-- How many names are tried for a scratch file. -/
def scratchTries : Nat := 65536

/-- The first scratch file from number `n` on that is not there yet. -/
def freshScratch? (files : FileTree) (kind : ScratchKind) : Nat → Nat → Option Scratch
  | 0, _ => none
  | tries + 1, n =>
    if (files.node? (Scratch.mk kind n).address).isNone then some ⟨kind, n⟩
    else freshScratch? files kind tries (n + 1)

/-- The fault of a scratch file that cannot be made. -/
def notMade (what : String) (p : Path) : IoFault :=
  .described (what ++ " at path " ++ Quoted.quote p.shown)

/-- Makes an empty scratch file under a name that is not in use. -/
def makeScratch {σ : Type} (s : Session σ) (kind : ScratchKind) :
    Except IoFault (Scratch × Session σ) :=
  match s.files.node? scratchDirectory with
  | some .directory =>
    match freshScratch? s.files kind scratchTries s.scratch with
    | some scratch =>
      .ok (scratch,
        { s with files := s.files.put scratch.address (.file []), scratch := scratch.number + 1 })
    | none => .error (notMade "too many temporary files exist" (.ofText "/tmp"))
  | some _ =>
    .error (notMade IoFault.notDirectory.message (Scratch.mk kind s.scratch).path)
  | none => .error (notMade IoFault.missing.message (Scratch.mk kind s.scratch).path)

/-- Does what a reply says to the file that a path leads to. -/
def affect (files : FileTree) (p : Path) (effect : FileEffect) : FileTree :=
  match files.fileToWrite p with
  | .ok a => effect.apply files a
  | .error _ => files

end Session

namespace Operation

variable {σ α : Type}

def record (e : Log.Entry) : Operation σ Unit :=
  modify fun s => { s with log := s.log ++ [e] }

/-- Runs a step on an empty scratch file, which is gone afterwards whatever came of the step. Where
none can be made, the step is not run. -/
def withScratch (kind : Session.ScratchKind) (body : Session.Scratch → Operation σ α) :
    Operation σ α := fun s =>
  match s.makeScratch kind with
  | .error cause => (.error (.io cause), s)
  | .ok (scratch, made) =>
    let (result, after) := body scratch made
    (result, { after with files := after.files.erase scratch.address })

def call (instrument : Instrument σ) (file? : Option Path) (c : Call) : Operation σ Finished := fun s =>
  let (reply, state) := instrument s.files c s.state
  let files := match file? with
    | some p => Session.affect s.files p reply.file
    | none => s.files
  (reply.result,
    { s with state := state, files := files, calls := s.calls ++ [c], log := s.log ++ reply.log })

end Operation

end PowerBench
