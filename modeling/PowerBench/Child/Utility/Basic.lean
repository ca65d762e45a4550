import PowerBench.Duration
import PowerBench.IoFault
import PowerBench.Text.Utf8

/-!
# Utilities: streams and effects

A utility reads streams, which may go on for ever, and has an effect: what it writes to its two
outputs, in order, and how it goes on after that.
-/

set_option autoImplicit false

namespace PowerBench.Child

/-- Input that ends, or that goes on with one byte for ever. -/
structure Stream where
  bytes : Bytes
  endless? : Option UInt8
deriving DecidableEq, Repr

namespace Stream

def empty : Stream := ⟨[], none⟩

def ofBytes (bytes : Bytes) : Stream := ⟨bytes, none⟩

/-- The first `n` bytes. -/
def take (n : Nat) (s : Stream) : Bytes :=
  match s.endless? with
  | none => s.bytes.take n
  | some b => s.bytes.take n ++ List.replicate (n - s.bytes.length) b

def whole? (s : Stream) : Option Bytes :=
  match s.endless? with
  | none => some s.bytes
  | some _ => none

end Stream

inductive Channel where
  | out
  | err
deriving DecidableEq, Repr

/-- How a utility goes on after its last write: it exits after some time, it repeats a byte for ever, or
it never does anything again. -/
inductive Ending where
  | exits (status : Nat) (after : Duration)
  | repeats (b : UInt8)
  | hangs
deriving DecidableEq, Repr

structure Effect where
  writes : List (Channel × Bytes)
  ending : Ending
deriving DecidableEq, Repr

namespace Effect

def exits (status : Nat) : Effect := ⟨[], .exits status ⟨0⟩⟩

def prints (out : Bytes) : Effect := ⟨[(.out, out)], .exits 0 ⟨0⟩⟩

def complains (text : String) (status : Nat) : Effect :=
  ⟨[(.err, Utf8.encode text)], .exits status ⟨0⟩⟩

def after (channel : Channel) (bytes : Bytes) (e : Effect) : Effect :=
  { e with writes := (channel, bytes) :: e.writes }

end Effect

namespace Utility

abbrev Opener := String → Except IoFault Stream

def numberOf (cs : List Char) : Nat := cs.foldl (fun n c => n * 10 + (c.toNat - 48)) 0

def faultText : IoFault → String
  | .system n => IoFault.systemText n
  | .described text => text

/-- Where the help of a utility is found. Here and below `self` is the name it was called by. -/
def helpHint (self : String) : String := "Try '" ++ self ++ " --help' for more information.\n"

/-- A complaint about the arguments of a utility. -/
def misused (self text : String) : Effect :=
  .complains (self ++ ": " ++ text ++ "\n" ++ helpHint self) 1

/-! ## Inputs -/

/-- The inputs a utility is told to use; without any, its own. -/
def inputs (opener : Opener) (input : Stream) (names : List String) :
    List (String × Except IoFault Stream) :=
  if names.isEmpty then [("-", .ok input)]
  else names.map fun n => (n, if n = "-" then .ok input else opener n)

/-- What a utility prints for each of its inputs. An input that cannot be read is told and spoils the
exit code; one that never ends is the last. `f` gives nothing where the output waits for an end that
never comes. -/
def overInputs (complaint : String → IoFault → String) (f : String → Stream → Option Stream)
    (status : Nat) : List (String × Except IoFault Stream) → Effect
  | [] => .exits status
  | (name, .error fault) :: rest =>
    (overInputs complaint f 1 rest).after .err (Utf8.encode (complaint name fault))
  | (name, .ok s) :: rest =>
    match f name s with
    | none => ⟨[], .hangs⟩
    | some ⟨bytes, some b⟩ => ⟨[(.out, bytes)], .repeats b⟩
    | some ⟨bytes, none⟩ => (overInputs complaint f status rest).after .out bytes

def fileComplaint (self name : String) (fault : IoFault) : String :=
  self ++ ": " ++ name ++ ": " ++ faultText fault ++ "\n"

/-- The complaint of utilities that tell what they were about to do with a file. -/
def readingComplaint (self name : String) (fault : IoFault) : String :=
  if fault = .isDirectory then
    self ++ ": error reading '" ++ name ++ "': " ++ faultText fault ++ "\n"
  else self ++ ": cannot open '" ++ name ++ "' for reading: " ++ faultText fault ++ "\n"

end Utility

end PowerBench.Child
