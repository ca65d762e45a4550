import PowerBench.ClientError
import PowerBench.Timestamp.Read

/-!
# Values on the command line

Each argument says what its value has to be. A value that is wrong is refused with the text it had
and, where there is more to say, with a reason.
-/

set_option autoImplicit false

namespace PowerBench.CommandLine

/-- What a value has to be: any text, a path, a number from zero to a limit, one of some words, a time,
or a time and a text with an equals sign between them. -/
inductive ValueKind where
  | text
  | path
  | number (most : Nat)
  | choice (words : List String)
  | time
  | marker
deriving DecidableEq, Repr

inductive Value where
  | text (s : String)
  | path (p : Path)
  | number (n : Nat)
  | choice (word : String)
  | time (t : Timestamp)
  | marker (t : Timestamp) (text : String)
deriving Repr

/-- What is wrong with a value: it is not UTF-8, there is none, it is none of the words, or it is
refused for a reason. -/
inductive ValueFault where
  | notText
  | absent
  | unlisted (shown : String)
  | refused (shown reason : String)
deriving DecidableEq, Repr

def ValueKind.words : ValueKind → List String
  | .choice words => words
  | _ => []

/-- A number from zero to `most`. -/
def readNumber (most : Nat) (s : String) : Except String Nat :=
  match readInt64 s.toList with
  | .error e => .error e.message
  | .ok n =>
    if 0 ≤ n ∧ n ≤ most then .ok n.toNat
    else .error (toString n ++ " is not in 0..=" ++ toString most)

def readTime (s : String) : Except String Timestamp :=
  (Timestamp.read s).mapError fun bad => (ClientError.badTimestamp bad).message

/-- A marker: a time, with blanks around it, and after the first equals sign the text. -/
def readMarker (s : String) : Except String (Timestamp × String) :=
  let cs := s.toList
  let time := cs.takeWhile (· != '=')
  match cs.drop time.length with
  | [] => .error ("expected TS=TEXT, got '" ++ s ++ "'")
  | _ :: text => do
    let t ← readTime (String.ofList (trimBlanks time))
    pure (t, String.ofList text)

def ValueKind.readText (kind : ValueKind) (s : String) : Except ValueFault Value :=
  match kind with
  | .text => .ok (.text s)
  | .path => if s.isEmpty then .error .absent else .ok (.path (.ofText s))
  | .number most => (Value.number <$> readNumber most s).mapError (.refused s)
  | .choice words =>
    if s.isEmpty then .error .absent
    else if words.contains s then .ok (.choice s)
    else .error (.unlisted s)
  | .time => (Value.time <$> readTime s).mapError (.refused s)
  | .marker => ((fun m => Value.marker m.1 m.2) <$> readMarker s).mapError (.refused s)

/-- Reads the bytes of a value. Only a path may be other than UTF-8. -/
def ValueKind.read (kind : ValueKind) (bytes : Bytes) : Except ValueFault Value :=
  match kind, Utf8.decode? bytes with
  | .path, none => .ok (.path ⟨bytes⟩)
  | .choice _, none => .error (.unlisted (Utf8.lossy bytes))
  | _, none => .error .notText
  | kind, some s => kind.readText s

end PowerBench.CommandLine
