import PowerBench.Child.Utility.Escape
import PowerBench.Child.Utility.Portion

/-!
# Translating bytes

`tr`: bytes of a first set become those of a second, are deleted, or are squeezed.
-/

set_option autoImplicit false

namespace PowerBench.Child.Utility

def classBytes : String → Bytes
  | "upper" => (List.range 26).map fun n => UInt8.ofNat (65 + n)
  | "lower" => (List.range 26).map fun n => UInt8.ofNat (97 + n)
  | "digit" => (List.range 10).map fun n => UInt8.ofNat (48 + n)
  | "alpha" => (List.range 26).flatMap fun n => [UInt8.ofNat (65 + n), UInt8.ofNat (97 + n)]
  | "alnum" => (List.range 10).map (fun n => UInt8.ofNat (48 + n))
      ++ (List.range 26).flatMap fun n => [UInt8.ofNat (65 + n), UInt8.ofNat (97 + n)]
  | "space" => [9, 10, 11, 12, 13, 32]
  | "blank" => [9, 32]
  | _ => []

/-- A set of bytes, in order: escapes, ranges and named classes are spelled out. -/
def setBytes : Nat → List Char → Bytes
  | 0, _ => []
  | _, [] => []
  | fuel + 1, '[' :: ':' :: cs =>
    let name := cs.takeWhile (· != ':')
    classBytes (String.ofList name) ++ setBytes fuel (cs.drop (name.length + 2))
  | fuel + 1, '\\' :: c :: cs =>
    if isOctal c then
      let ds := ((c :: cs).takeWhile isOctal).take 3
      UInt8.ofNat (octalValue ds) :: setBytes fuel ((c :: cs).drop ds.length)
    else
      match letterEscape? c with
      | some b => b :: setBytes fuel cs
      | none => Utf8.encodeChar c ++ setBytes fuel cs
  | fuel + 1, a :: '-' :: b :: cs =>
    ((List.range (b.toNat + 1 - a.toNat)).map fun n => UInt8.ofNat (a.toNat + n)) ++ setBytes fuel cs
  | fuel + 1, c :: cs => Utf8.encodeChar c ++ setBytes fuel cs

def setOf (s : String) : Bytes := setBytes (s.length + 1) s.toList

/-- The byte that takes the place of `b`; the last one of the second set stands for all that follow. -/
def translated (source target : Bytes) (b : UInt8) : UInt8 :=
  match source.idxOf? b with
  | some i => (target[i]?).getD (target.getLast?.getD b)
  | none => b

/-- Runs of a byte of a set made one byte long. -/
def squeeze (set : Bytes) (bs : Bytes) : Bytes :=
  (bs.splitBy fun a b => a == b && set.contains a).flatMap fun run =>
    if set.contains (run.headD 0) then run.take 1 else run

def mapped (f : UInt8 → UInt8) (s : Stream) : Stream := ⟨s.bytes.map f, s.endless?.map f⟩

/-- A stream without the bytes of a set; nothing follows where only such bytes come. -/
def without (set : Bytes) (s : Stream) : Stream × Bool :=
  (⟨s.bytes.filter fun b => !set.contains b, s.endless?.filter fun b => !set.contains b⟩,
    s.endless?.any set.contains)

/-- A stream with runs of the bytes of a set made one byte long. -/
def squeezed (set : Bytes) (s : Stream) : Stream × Bool :=
  match s.endless? with
  | none => (.ofBytes (squeeze set s.bytes), false)
  | some b =>
    if set.contains b then (.ofBytes (squeeze set (s.bytes ++ [b])), true)
    else (⟨squeeze set s.bytes, some b⟩, false)

/-- The effect of a stream that is printed; `waits` says that nothing follows and it never ends. -/
def streaming (s : Stream × Bool) : Effect :=
  match s with
  | (⟨bytes, some b⟩, _) => ⟨[(.out, bytes)], .repeats b⟩
  | (⟨bytes, none⟩, true) => ⟨[(.out, bytes)], .hangs⟩
  | (⟨bytes, none⟩, false) => .prints bytes

/-- The operands of `tr`: options stand before them. -/
def setOperands (args : List String) : List Char × List String :=
  let isOption (a : String) : Bool := a.startsWith "-" && a != "-"
  let options := args.takeWhile isOption
  ((options.filter (· != "--")).flatMap fun a => a.toList.drop 1, args.dropWhile isOption)

def tr (self : String) (input : Stream) (args : List String) : Effect :=
  let (options, sets) := setOperands args
  let has (c : Char) : Bool := options.contains c
  let complement (set : Bytes) : Bytes :=
    if has 'c' || has 'C' then ((List.range 256).map UInt8.ofNat).filter fun b => !set.contains b
    else set
  let missing (after note : String) : Effect :=
    .complains (self ++ ": missing operand after '" ++ after ++ "'\n" ++ note ++ "\n" ++ helpHint self) 1
  match options.find? fun c => !(['c', 'C', 'd', 's', 't'].contains c) with
  | some c => unknownOption self c
  | none =>
    match sets with
    | [] => misused self "missing operand"
    | [set] =>
      if has 'd' && has 's' then
        missing set "Two strings must be given when both deleting and squeezing repeats."
      else if has 'd' then streaming (without (complement (setOf set)) input)
      else if has 's' then streaming (squeezed (complement (setOf set)) input)
      else missing set "Two strings must be given when translating."
    | [source, target] =>
      if has 'd' && has 's' then
        streaming (squeezed (setOf target) (without (complement (setOf source)) input).1)
      else if has 'd' then
        .complains (self ++ ": extra operand '" ++ target
          ++ "'\nOnly one string may be given when deleting without squeezing repeats.\n"
          ++ helpHint self) 1
      else
        let out := mapped (translated (complement (setOf source)) (setOf target)) input
        streaming (if has 's' then squeezed (setOf target) out else (out, false))
    | _ :: _ :: extra :: _ => misused self ("extra operand '" ++ extra ++ "'")

end PowerBench.Child.Utility
