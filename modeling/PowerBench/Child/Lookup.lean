import PowerBench.FileTree

/-!
# Finding programs

A program named with a slash is the file that the path leads to; any other name is looked for in the
search directories, and the first runnable file counts. A file that is there and not runnable is
refused only when no runnable one is found.
-/

set_option autoImplicit false

namespace PowerBench.Child

/-- Which files are programs, and where they are looked for. -/
structure Programs where
  search : List Address
  runnable : Address → Bool

namespace Programs

/-- A zero byte in a program's name or in an argument. -/
def zeroByte : IoFault := .described "nul byte found in provided data"

def check (ps : Programs) (files : FileTree) (a : Address) : Except IoFault Address :=
  match files.node? a with
  | none => .error .missing
  | some (.file _) => if ps.runnable a then .ok a else .error .denied
  | some _ => .error .denied

/-- The file that a path with a slash leads to. -/
def followed (ps : Programs) (files : FileTree) (p : Path) : Except IoFault Address := do
  match ← files.locate p with
  | .directory _ => .error .denied
  | .entry dir name =>
    if FileTree.maxName < name.length then .error .nameTooLong
    else
      match files.node? (dir ++ [name]) with
      | some (.file _) =>
        if FileTree.endsWithSlash p then .error .notDirectory else ps.check files (dir ++ [name])
      | _ => ps.check files (dir ++ [name])

/-- The first runnable file of a name; `denied` says that one was found that is not. -/
def searched (ps : Programs) (files : FileTree) (name : Bytes) (denied : Bool) :
    List Address → Except IoFault Address
  | [] => .error (if denied then .denied else .missing)
  | dir :: rest =>
    match ps.check files (dir ++ [name]) with
    | .ok a => .ok a
    | .error e => ps.searched files name (denied || e == .denied) rest

def find (ps : Programs) (files : FileTree) (program : Path) : Except IoFault Address :=
  if program.bytes.contains 0 then .error zeroByte
  else if program.bytes.isEmpty then .error .missing
  else if program.bytes.contains FileTree.slash then ps.followed files program
  else if FileTree.maxName < program.bytes.length then .error .nameTooLong
  else if program.bytes = FileTree.self ∨ program.bytes = FileTree.parent then .error .denied
  else ps.searched files program.bytes false ps.search

end Programs

end PowerBench.Child
