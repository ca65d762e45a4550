/-!
# Input and output faults

What the operating system, or a stream, says when a file or a pipe cannot be used.
-/

set_option autoImplicit false

namespace PowerBench

/-- A fault of the operating system by number, or one told in words. -/
inductive IoFault where
  | system (number : Nat)
  | described (text : String)
deriving DecidableEq, Repr

namespace IoFault

def missing : IoFault := .system 2

def denied : IoFault := .system 13

def alreadyThere : IoFault := .system 17

def notDirectory : IoFault := .system 20

def isDirectory : IoFault := .system 21

def nameTooLong : IoFault := .system 36

def zeroInName : IoFault := .described "file name contained an unexpected NUL byte"

/-- A file that is not UTF-8 where text is wanted. -/
def notText : IoFault := .described "stream did not contain valid UTF-8"

/-- The system's words for a number. -/
def systemText : Nat → String
  | 1 => "Operation not permitted"
  | 2 => "No such file or directory"
  | 5 => "Input/output error"
  | 8 => "Exec format error"
  | 13 => "Permission denied"
  | 17 => "File exists"
  | 20 => "Not a directory"
  | 21 => "Is a directory"
  | 22 => "Invalid argument"
  | 26 => "Text file busy"
  | 28 => "No space left on device"
  | 36 => "File name too long"
  | 40 => "Too many levels of symbolic links"
  | n => "Unknown error " ++ toString n

def message : IoFault → String
  | .system n => systemText n ++ " (os error " ++ toString n ++ ")"
  | .described text => text

end IoFault

end PowerBench
