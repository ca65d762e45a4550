import PowerBench.Child.Utility.Basic

/-!
# Parts of files

`cat`, `head` and `tail`. A portion is so many bytes or lines; a sign before the count turns it to the
other end of the file.
-/

set_option autoImplicit false

namespace PowerBench.Child.Utility

/-- A complaint about an option there is none of. -/
def unknownOption (self : String) (letter : Char) : Effect :=
  misused self ("invalid option -- '" ++ String.ofList [letter] ++ "'")

/-- The letters of the options at the front, and the operands. -/
def splitOptions : List String → List Char × List String
  | [] => ([], [])
  | a :: rest =>
    if a = "--" then ([], rest)
    else
      match a.toList with
      | '-' :: c :: cs =>
        let (letters, operands) := splitOptions rest
        (c :: cs ++ letters, operands)
      | _ =>
        let (letters, operands) := splitOptions rest
        (letters, a :: operands)

/-! ## cat -/

def numbered (bs : Bytes) : Bytes :=
  ((bs.splitBy fun a _ => a != 10).zipIdx 1).flatMap fun line =>
    let ds := Nat.toDigits 10 line.2
    Utf8.encodeChars (List.replicate (6 - ds.length) ' ' ++ ds ++ ['\t']) ++ line.1

def cat (self : String) (opener : Opener) (input : Stream) (args : List String) : Effect :=
  let (letters, names) := splitOptions args
  match letters.find? fun c => c != 'n' && c != 'u' with
  | some c => unknownOption self c
  | none =>
    overInputs (fileComplaint self)
      (fun _ s => if letters.contains 'n' then s.whole?.map fun bs => .ofBytes (numbered bs)
        else some s)
      0 (inputs opener input names)

/-! ## Portions -/

/-- A part of a file: so many bytes or lines, counted as the sign tells. -/
structure Portion where
  bytes : Bool
  sign? : Option Char
  count : Nat
deriving DecidableEq, Repr

def unit? : List Char → Option Nat
  | [] => some 1
  | ['b'] => some 512
  | ['k', 'B'] => some 1000
  | ['K'] | ['k'] | ['K', 'i', 'B'] => some 1024
  | ['M', 'B'] => some 1000000
  | ['M'] | ['M', 'i', 'B'] => some 1048576
  | ['G', 'B'] => some 1000000000
  | ['G'] | ['G', 'i', 'B'] => some 1073741824
  | _ => none

def Portion.ofText? (bytes : Bool) (cs : List Char) : Option Portion :=
  let (sign?, cs) := match cs with
    | '+' :: rest => (some '+', rest)
    | '-' :: rest => (some '-', rest)
    | cs => (none, cs)
  let ds := cs.takeWhile Char.isDigit
  if ds.isEmpty then none
  else (unit? (cs.drop ds.length)).map fun unit => ⟨bytes, sign?, numberOf ds * unit⟩

def Portion.usual : Portion := ⟨false, none, 10⟩

/-- The portion that the arguments ask for and the operands, or a complaint. -/
def portion (self : String) (args : List String) : Except Effect (Portion × List String) :=
  let counted (bytes : Bool) (text : List Char) (rest : List String) :
      Except Effect (Portion × List String) :=
    match Portion.ofText? bytes text with
    | some p => .ok (p, if rest.head? == some "--" then rest.drop 1 else rest)
    | none =>
      .error (.complains (self ++ ": invalid number of " ++ (if bytes then "bytes" else "lines")
        ++ ": '" ++ String.ofList text ++ "'\n") 1)
  match args with
  | [] => .ok (.usual, [])
  | a :: rest =>
    match a.toList with
    | ['-', '-'] => .ok (.usual, rest)
    | '-' :: letter :: ds =>
      if letter == 'c' || letter == 'n' then
        match ds, rest with
        | [], [] =>
          .error (misused self
            ("option requires an argument -- '" ++ String.ofList [letter] ++ "'"))
        | [], n :: rest => counted (letter == 'c') n.toList rest
        | ds, rest => counted (letter == 'c') ds rest
      else if letter.isDigit then counted false (letter :: ds) rest
      else .error (unknownOption self letter)
    | _ => .ok (.usual, args)

def operands (args : List String) : List String :=
  match portion "" args with
  | .ok (_, names) => names
  | .error _ => ["-"]

def firstLines : Nat → Bytes → Bytes
  | 0, _ => []
  | _, [] => []
  | n + 1, b :: bs => b :: firstLines (if b == 10 then n else n + 1) bs
termination_by _ bs => bs.length

def lastLines (n : Nat) (bs : Bytes) : Bytes :=
  let lines := bs.splitBy (fun a _ => a != 10)
  (lines.drop (lines.length - n)).flatten

def withoutLastLines (n : Nat) (bs : Bytes) : Bytes :=
  let lines := bs.splitBy (fun a _ => a != 10)
  (lines.take (lines.length - n)).flatten

def withoutFirstLines (n : Nat) (bs : Bytes) : Bytes := bs.drop (firstLines n bs).length

/-- The beginning of a stream; after a minus, all but so much of its end. -/
def Portion.beginning (p : Portion) (s : Stream) : Option Stream :=
  if p.sign? == some '-' then
    match s.whole? with
    | none => some s
    | some bs =>
      some (.ofBytes (if p.bytes then bs.take (bs.length - p.count)
        else withoutLastLines p.count bs))
  else if p.bytes then some (.ofBytes (s.take p.count))
  else
    match s.endless? with
    | none => some (.ofBytes (firstLines p.count s.bytes))
    | some b =>
      let lines := s.bytes.count 10
      if p.count ≤ lines then some (.ofBytes (firstLines p.count s.bytes))
      else if b == 10 then some (.ofBytes (s.bytes ++ List.replicate (p.count - lines) 10))
      else some s

/-- The end of a stream; after a plus, all from so far on. -/
def Portion.ending (p : Portion) (s : Stream) : Option Stream :=
  s.whole?.map fun bs => .ofBytes <|
    if p.sign? == some '+' then
      if p.bytes then bs.drop (p.count - 1) else withoutFirstLines (p.count - 1) bs
    else if p.bytes then bs.drop (bs.length - p.count)
    else lastLines p.count bs

def head (self : String) (opener : Opener) (input : Stream) (args : List String) : Effect :=
  match portion self args with
  | .error e => e
  | .ok (p, names) =>
    overInputs (readingComplaint self) (fun _ => p.beginning) 0 (inputs opener input names)

def tail (self : String) (opener : Opener) (input : Stream) (args : List String) : Effect :=
  match portion self args with
  | .error e => e
  | .ok (p, names) =>
    overInputs (readingComplaint self) (fun _ => p.ending) 0 (inputs opener input names)

end PowerBench.Child.Utility
