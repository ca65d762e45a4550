import PowerBench.IoFault
import PowerBench.Path

/-!
# Trees of files

Files and directories by the names on the way from the root, and the directory that relative paths
start from. A path is followed name by name; the faults are those of a system that follows it the same
way, and the first one met counts.
-/

set_option autoImplicit false

namespace PowerBench

/-- The names on the way from the root. -/
abbrev Address := List Bytes

/-- What stands at an address. An `output` is a name of the program's own standard output, a terminal or
a pipe: what is written there is shown and not held, and there is nothing to read. -/
inductive FileNode where
  | file (content : Bytes)
  | directory
  | output
deriving DecidableEq, Repr

/-- A tree of files. The root is a directory without being listed. -/
structure FileTree where
  nodes : List (Address × FileNode)
  here : Address
deriving Repr, Inhabited

namespace FileTree

/-! ## Addresses -/

def node? (t : FileTree) (a : Address) : Option FileNode :=
  if a.isEmpty then some .directory else t.nodes.lookup a

/-- The tree with a node at an address, in place of what stood there. -/
def put (a : Address) (n : FileNode) (t : FileTree) : FileTree :=
  { t with nodes := (a, n) :: t.nodes.filter (·.1 != a) }

def erase (a : Address) (t : FileTree) : FileTree :=
  { t with nodes := t.nodes.filter (·.1 != a) }

def contentAt? (t : FileTree) (a : Address) : Option Bytes :=
  match t.node? a with
  | some (.file content) => some content
  | _ => none

theorem node?_put_self (t : FileTree) (a : Address) (n : FileNode) (h : a ≠ []) :
    (t.put a n).node? a = some n := by
  cases a with
  | nil => exact absurd rfl h
  | cons x xs => simp [node?, put]

theorem lookup_filter_ne (a : Address) (nodes : List (Address × FileNode)) :
    (nodes.filter (·.1 != a)).lookup a = none := by
  induction nodes with
  | nil => rfl
  | cons p rest ih =>
    obtain ⟨b, n⟩ := p
    by_cases h : b = a
    · simpa [h] using ih
    · have h' : (a == b) = false := by simpa using Ne.symm h
      simp [h, List.lookup_cons, h', ih]

theorem node?_erase_self (t : FileTree) (a : Address) (h : a ≠ []) :
    (t.erase a).node? a = none := by
  cases a with
  | nil => exact absurd rfl h
  | cons x xs => simpa [node?, erase] using lookup_filter_ne (x :: xs) t.nodes

theorem lookup_filter_other {a b : Address} (h : a ≠ b) (nodes : List (Address × FileNode)) :
    (nodes.filter (·.1 != b)).lookup a = nodes.lookup a := by
  induction nodes with
  | nil => rfl
  | cons p rest ih =>
    obtain ⟨c, n⟩ := p
    by_cases hc : c = b
    · have h' : (a == c) = false := by simpa [hc] using h
      rw [hc] at h'
      simpa [hc, List.lookup_cons, h'] using ih
    · by_cases hac : a = c
      · simp [hc, hac]
      · have h' : (a == c) = false := by simpa using hac
        simp [hc, List.lookup_cons, h', ih]

theorem node?_put_other (t : FileTree) {a b : Address} (n : FileNode) (h : a ≠ b) :
    (t.put b n).node? a = t.node? a := by
  cases a with
  | nil => rfl
  | cons x xs =>
    have h' : ((x :: xs) == b) = false := by simpa using h
    simp [node?, put, List.lookup_cons, h', lookup_filter_other h]

/-! ## Following a path -/

def slash : UInt8 := 47

def self : Bytes := [46]

def parent : Bytes := [46, 46]

def splitSlashes : Bytes → List Bytes
  | [] => [[]]
  | b :: bs =>
    match splitSlashes bs with
    | piece :: rest => if b == slash then [] :: piece :: rest else (b :: piece) :: rest
    | [] => [[b]]

def names (p : Path) : List Bytes := (splitSlashes p.bytes).filter (!·.isEmpty)

def isAbsolute (p : Path) : Bool := p.bytes.head? == some slash

def endsWithSlash (p : Path) : Bool := p.bytes.getLast? == some slash

def start (t : FileTree) (p : Path) : Address := if isAbsolute p then [] else t.here

/-- The longest name, and the longest path. -/
def maxName : Nat := 255

def maxPath : Nat := 4095

def enter (t : FileTree) (dir : Address) (name : Bytes) : Except IoFault Address :=
  if name = self then .ok dir
  else if name = parent then .ok dir.dropLast
  else if maxName < name.length then .error .nameTooLong
  else
    match t.node? (dir ++ [name]) with
    | some .directory => .ok (dir ++ [name])
    | some _ => .error .notDirectory
    | none => .error .missing

/-- Where a path leads: a directory, or a name in a directory. -/
inductive Place where
  | directory (dir : Address)
  | entry (dir : Address) (name : Bytes)
deriving DecidableEq, Repr

/-- Follows a path up to its last name. -/
def locate (t : FileTree) (p : Path) : Except IoFault Place :=
  if p.bytes.contains 0 then .error .zeroInName
  else if p.bytes.isEmpty then .error .missing
  else if maxPath < p.bytes.length then .error .nameTooLong
  else
    match (names p).getLast? with
    | none => .ok (.directory (t.start p))
    | some last => do
      let dir ← (names p).dropLast.foldlM t.enter (t.start p)
      if last = self ∨ last = parent then
        pure (.directory (← t.enter dir last))
      else pure (.entry dir last)

def fileToRead (t : FileTree) (p : Path) : Except IoFault Address := do
  match ← t.locate p with
  | .directory _ => .error .isDirectory
  | .entry dir name =>
    if maxName < name.length then .error .nameTooLong
    else
      match t.node? (dir ++ [name]) with
      | none => .error .missing
      | some .directory => .error .isDirectory
      | some .output => .error .denied
      | some (.file _) => if endsWithSlash p then .error .notDirectory else .ok (dir ++ [name])

def content (t : FileTree) (p : Path) : Except IoFault Bytes := do
  let a ← t.fileToRead p
  pure ((t.contentAt? a).getD [])

/-- The address of the file that a path leads to, for writing; it need not be there yet. -/
def fileToWrite (t : FileTree) (p : Path) : Except IoFault Address := do
  match ← t.locate p with
  | .directory _ => .error .isDirectory
  | .entry dir name =>
    if endsWithSlash p then .error .isDirectory
    else if maxName < name.length then .error .nameTooLong
    else
      match t.node? (dir ++ [name]) with
      | some .directory => .error .isDirectory
      | _ => .ok (dir ++ [name])

/-! ## Making directories -/

/-- Makes the directories on a way that are not there yet. Those made before a fault stay. -/
def makeAlong (t : FileTree) (dir : Address) : List Bytes → Except IoFault Unit × FileTree
  | [] => (.ok (), t)
  | name :: rest =>
    if name = self then t.makeAlong dir rest
    else if name = parent then t.makeAlong dir.dropLast rest
    else if name.contains 0 then (.error .zeroInName, t)
    else if maxName < name.length then (.error .nameTooLong, t)
    else
      match t.node? (dir ++ [name]) with
      | some .directory => t.makeAlong (dir ++ [name]) rest
      | some _ => (.error (if rest.isEmpty then .alreadyThere else .notDirectory), t)
      | none => (t.put (dir ++ [name]) .directory).makeAlong (dir ++ [name]) rest

/-- The names of a path without those that stay where they are; the first name is kept. -/
def properNames (p : Path) : List Bytes :=
  match names p with
  | first :: rest => first :: rest.filter (· != self)
  | [] => []

def makeDirectoriesAbove (t : FileTree) (p : Path) : Except IoFault Unit × FileTree :=
  t.makeAlong (t.start p) (properNames p).dropLast

/-! ## Writing -/

/-- The tree after `content` has been written to what was opened at an address. -/
def write (a : Address) (content : Bytes) (t : FileTree) : FileTree :=
  if t.node? a = some .output then t else t.put a (.file content)

/-- Whether a path leads to the standard output, for writing. -/
def leadsToOutput (t : FileTree) (p : Path) : Bool :=
  match t.fileToWrite p with
  | .ok a => t.node? a == some .output
  | .error _ => false

/-- Opens a file for adding to its end: it is made if it is not there. -/
def openToAppend (t : FileTree) (p : Path) : Except IoFault Address × FileTree :=
  match t.fileToWrite p with
  | .error e => (.error e, t)
  | .ok a =>
    match t.node? a with
    | some _ => (.ok a, t)
    | none => (.ok a, t.put a (.file []))

/-- Opens a file for writing from the start: what it held is gone. -/
def openToReplace (t : FileTree) (p : Path) : Except IoFault Address × FileTree :=
  match t.fileToWrite p with
  | .error e => (.error e, t)
  | .ok a => (.ok a, t.write a [])

end FileTree

end PowerBench
