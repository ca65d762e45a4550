import PowerBench.Child.Utility.Portion
import PowerBench.Text.Blank

/-!
# Counting

`wc`: lines, words and bytes of each input in columns, and a line of totals under several inputs.
-/

set_option autoImplicit false

namespace PowerBench.Child.Utility

def wordCount (bs : Bytes) : Nat :=
  let isSpace (b : UInt8) : Bool := isAsciiBlank b || b == 11
  ((bs.splitBy fun a b => isSpace a == isSpace b).filter fun run => !(run.headD 32 |> isSpace)).length

def rightAligned (width n : Nat) : List Char :=
  let ds := Nat.toDigits 10 n
  List.replicate (width - ds.length) ' ' ++ ds

def counts (options : List Char) (bs : Bytes) : List Nat :=
  let wanted (c : Char) : Bool := options.isEmpty || options.contains c
  (if wanted 'l' then [bs.count 10] else []) ++ (if wanted 'w' then [wordCount bs] else [])
    ++ (if wanted 'c' || options.contains 'm' then [bs.length] else [])

def countLine (width : Nat) (ns : List Nat) (name : String) : String :=
  String.intercalate " " (ns.map fun n => String.ofList (rightAligned width n))
    ++ (if name.isEmpty then "" else " " ++ name) ++ "\n"

/-- How wide a column is: one wide for a single number, wide enough for the sizes of all files, and
seven where a size is not known beforehand. -/
def columnWidth (columns : Nat) (files : List (String × Except IoFault Stream)) : Nat :=
  let total := files.foldl (fun n f => match f.2 with
    | .ok s => n + s.bytes.length
    | .error _ => n) 0
  if columns == 1 && files.length == 1 then 1
  else if files.any (·.1 == "-") then max 7 (Nat.toDigits 10 total).length
  else (Nat.toDigits 10 total).length

def wc (self : String) (opener : Opener) (input : Stream) (args : List String) : Effect :=
  let (options, names) := splitOptions args
  match options.find? fun c => !(['c', 'l', 'm', 'w'].contains c) with
  | some c => unknownOption self c
  | none =>
    let files := inputs opener input names
    let width := columnWidth (counts options []).length files
    let shown (name : String) : String := if names.isEmpty then "" else name
    let e := overInputs (fileComplaint self)
      (fun name s => s.whole?.map fun bs =>
        .ofBytes (Utf8.encode (countLine width (counts options bs) (shown name))))
      0 files
    if files.length ≤ 1 || e.ending == .hangs then e
    else
      let all := files.foldl (fun ns f => match f.2 with
        | .ok s => List.zipWith (· + ·) ns (counts options s.bytes)
        | .error _ => ns) (counts options [])
      { e with writes := e.writes ++ [(.out, Utf8.encode (countLine width all "total"))] }

end PowerBench.Child.Utility
