import PowerBench.Child.Utility.Count
import PowerBench.Child.Utility.Format
import PowerBench.Child.Utility.Translate

/-!
# Utilities

The small programs that scripts stand in for an instrument with: what each does with its arguments and
its input.
-/

set_option autoImplicit false

namespace PowerBench.Child.Utility

/-! ## sleep -/

/-- The length of time of one argument, in nanoseconds: a decimal number and a unit. An endless time has
no number. -/
def interval? (a : String) : Option (Option Nat) :=
  let cs := a.toList
  let whole := cs.takeWhile Char.isDigit
  let rest := cs.dropWhile Char.isDigit
  let (fraction, rest) := match rest with
    | '.' :: r => (r.takeWhile Char.isDigit, r.dropWhile Char.isDigit)
    | r => ([], r)
  let unit? : Option Nat := match rest with
    | [] => some 1
    | ['s'] => some 1
    | ['m'] => some 60
    | ['h'] => some 3600
    | ['d'] => some 86400
    | _ => none
  if ["inf", "infinity"].contains a.toLower then some none
  else if whole.isEmpty && fraction.isEmpty then none
  else
    unit?.map fun unit =>
      some (numberOf (whole ++ fraction) * unit * 1000000000 / Nat.pow 10 fraction.length)

def sleep (self : String) (args : List String) : Effect :=
  let args := if args.head? == some "--" then args.drop 1 else args
  match args with
  | [] => misused self "missing operand"
  | first :: _ =>
    match first.toList with
    | '-' :: letter :: _ => unknownOption self letter
    | _ =>
      match args.filter fun a => (interval? a).isNone with
      | [] =>
        let times := args.filterMap interval?
        if times.contains none then ⟨[], .hangs⟩
        else ⟨[], .exits 0 ⟨times.foldl (fun n d => n + d.getD 0) 0⟩⟩
      | bad =>
        .complains (String.join (bad.map fun a => self ++ ": invalid time interval '" ++ a ++ "'\n")
          ++ helpHint self) 1

/-! ## All of them -/

def names : List String :=
  ["cat", "echo", "false", "head", "printf", "sleep", "tail", "tr", "true", "wc"]

/-- Runs a utility that was called by the name `self`. -/
def run? (name self : String) (opener : Opener) (input : Stream) (args : List String) :
    Option Effect :=
  match name with
  | "cat" => some (cat self opener input args)
  | "echo" => some (echo args)
  | "false" => some (.exits 1)
  | "head" => some (head self opener input args)
  | "printf" => some (printf self args)
  | "sleep" => some (sleep self args)
  | "tail" => some (tail self opener input args)
  | "tr" => some (tr self input args)
  | "true" => some (.exits 0)
  | "wc" => some (wc self opener input args)
  | _ => none

end PowerBench.Child.Utility
