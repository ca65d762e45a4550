import PowerBench.Entries
import PowerBench.Json
import PowerBench.Text.Quoted

/-!
# Log entries

An entry has a level, the part of the program it comes from, a message, and named fields. It is
written as one line of text, or as one JSON object. The time stamp in front of a line is not part of
the entry.
-/

set_option autoImplicit false

namespace PowerBench.Log

/-- How serious an entry is. -/
inductive Level where
  | error
  | warn
  | info
  | debug
  | trace
deriving DecidableEq, Repr

namespace Level

/-- The rank of a level; a limit lets through every level of its rank or below. -/
def rank : Level → Nat
  | .error => 1
  | .warn => 2
  | .info => 3
  | .debug => 4
  | .trace => 5

def word : Level → String
  | .error => "ERROR"
  | .warn => "WARN"
  | .info => "INFO"
  | .debug => "DEBUG"
  | .trace => "TRACE"

end Level

/-- The value of a field: a text, which lines show between quotes, a text shown as it is, or a
number. -/
inductive FieldValue where
  | text (s : String)
  | shown (s : String)
  | number (n : Int)
deriving DecidableEq, Repr

namespace FieldValue

def onLine : FieldValue → String
  | .text s => Quoted.quote s
  | .shown s => s
  | .number n => toString n

def toJson : FieldValue → Json
  | .text s => .string s
  | .shown s => .string s
  | .number n => .int n

end FieldValue

structure Entry where
  level : Level
  target : String
  message : String
  fields : List (String × FieldValue)
deriving DecidableEq, Repr

namespace Entry

/-- A character of a message on a line: the control characters that steer a terminal are written out. -/
def messageChar (c : Char) : List Char :=
  if c = '\x1b' then "\\x1b".toList
  else if c = '\x07' then "\\x07".toList
  else if c = '\x08' then "\\x08".toList
  else if c = '\x0c' then "\\x0c".toList
  else if c = '\x7f' then "\\x7f".toList
  else if 0x80 ≤ c.toNat ∧ c.toNat ≤ 0x9F then Quoted.codeEscape c
  else [c]

def levelColumn (level : Level) : List Char :=
  List.replicate (5 - level.word.length) ' ' ++ level.word.toList

def line (e : Entry) : String :=
  String.ofList <|
    levelColumn e.level ++ ' ' :: e.target.toList ++ [':', ' '] ++ e.message.toList.flatMap messageChar
      ++ e.fields.flatMap fun f => ' ' :: f.1.toList ++ '=' :: f.2.onLine.toList

/-- An entry as a JSON object, the message among its fields. -/
def toJson (e : Entry) : Json :=
  .object (Entries.ofList
    [("level", .string e.level.word), ("target", .string e.target),
      ("fields", .object (Entries.ofList
        (("message", .string e.message) :: e.fields.map fun f => (f.1, f.2.toJson))))])

end Entry

end PowerBench.Log
