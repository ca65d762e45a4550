import PowerBench.Binary64.Decimal
import PowerBench.Binary64.Shortest
import PowerBench.Text.Quoted
import PowerBench.Yaml.Token

/-!
# YAML values

A dynamic value, the entries of a mapping in the order of the document. A plain scalar without a tag
stands for null, a boolean, an integer, a fractional number or its own text, in this order of
preference (`Plain.classify`).
-/

set_option autoImplicit false

namespace PowerBench.Yaml

inductive Value where
  | null
  | bool (b : Bool)
  | int (n : Int)
  | float (x : Binary64)
  | string (s : String)
  | sequence (items : List Value)
  | mapping (entries : List (Value × Value))
  | tagged (tag : String) (value : Value)
deriving Repr, Inhabited

namespace Value

/-- Equality of fractional numbers as keys: the zeros are one, and so is every not-a-number. -/
def sameFloat (x y : Binary64) : Bool := (x.isNaN && y.isNaN) || x.numEq y

mutual

/-- Equality of values. Two mappings are equal when they have the same entries in any order. -/
def same : Value → Value → Bool
  | .null, .null => true
  | .bool a, .bool b => a == b
  | .int a, .int b => a == b
  | .float a, .float b => sameFloat a b
  | .string a, .string b => a == b
  | .sequence a, .sequence b => sameItems a b
  | .mapping a, .mapping b => a.length == b.length && entriesIn a b
  | .tagged s a, .tagged t b => s == t && same a b
  | _, _ => false

/-- Equality of the items of two sequences. -/
def sameItems : List Value → List Value → Bool
  | [], [] => true
  | a :: as, b :: bs => same a b && sameItems as bs
  | _, _ => false

/-- Whether each entry is also among others. -/
def entriesIn : List (Value × Value) → List (Value × Value) → Bool
  | [], _ => true
  | (k, v) :: es, others => (others.any fun o => same k o.1 && same v o.2) && entriesIn es others

end

/-- The number a value holds, rounded to a fractional number. -/
def toFloat? : Value → Option Binary64
  | .int n => some (.ofInt n)
  | .float x => some x
  | .tagged _ v => v.toFloat?
  | _ => none

def floatText (x : Binary64) : String :=
  if x.isNaN then ".nan"
  else if x.isInfinite then (if x.isNegative then "-.inf" else ".inf")
  else x.scientific []

end Value

/-! ## Plain scalars -/

namespace Plain

def isNull (s : String) : Bool := s == "null" || s == "Null" || s == "NULL" || s == "~"

def bool? (s : String) : Option Bool :=
  if s == "true" || s == "True" || s == "TRUE" then some true
  else if s == "false" || s == "False" || s == "FALSE" then some false
  else none

/-- A text without a sign that is the one given. -/
def stripSign (sign : Char) : List Char → List Char
  | c :: cs => if c == sign then cs else c :: cs
  | [] => []

/-- Whether a text starts with a sign. -/
def hasSign : List Char → Bool
  | c :: _ => c == '+' || c == '-'
  | [] => false

/-- Decimal digits after a needless zero, with or without a sign: a text, not a number. -/
def isPaddedDigits (cs : List Char) : Bool :=
  let body := match cs with
    | c :: rest => if c == '+' || c == '-' then rest else c :: rest
    | [] => []
  match body with
  | '0' :: d :: ds => (d :: ds).all isDecimalDigit
  | _ => false

def digitIn (base : Nat) (c : Char) : Option Nat :=
  if isHexDigit c && hexValue c < base then some (hexValue c) else none

def digitsIn (base : Nat) (cs : List Char) : Option Nat :=
  if cs.isEmpty then none
  else cs.foldl (fun acc c => acc.bind fun n => (digitIn base c).map (n * base + ·)) (some 0)

/-- The base that a text announces after a zero. -/
def baseOf : Char → Option Nat
  | 'x' => some 16
  | 'o' => some 8
  | 'b' => some 2
  | _ => none

/-- The number of a text without sign: in an announced base, or in decimal. -/
def magnitude? (padded : Bool) (body : List Char) (limit : Nat) : Option Nat :=
  let based := match body with
    | '0' :: b :: rest => (baseOf b).bind fun base => digitsIn base rest
    | _ => none
  match based.filter (· ≤ limit) with
  | some n => some n
  | none => if padded then none else (digitsIn 10 body).filter (· ≤ limit)

/-- A number between zero and `limit`, with an optional plus sign. -/
def unsigned? (cs : List Char) (limit : Nat) : Option Nat :=
  magnitude? (isPaddedDigits cs) (stripSign '+' cs) limit

/-- A number between `-limit` and zero, with a minus sign. -/
def negative? (cs : List Char) (limit : Nat) : Option Int :=
  match cs with
  | '-' :: body => (magnitude? (isPaddedDigits cs) body limit).map fun n => -Int.ofNat n
  | _ => none

/-- What a text is as an integer. -/
inductive IntForm where
  | narrow (n : Int)
  | wide (n : Int) (word : String)
deriving DecidableEq, Repr

/-- An integer of 64 bits, or failing that of 128. -/
def int? (cs : List Char) : Option IntForm :=
  ((unsigned? cs (Nat.pow 2 64 - 1)).map fun n => .narrow n).or <|
  ((negative? cs (Nat.pow 2 63)).map .narrow).or <|
  ((unsigned? cs (Nat.pow 2 128 - 1)).map fun n => .wide n "u128").or <|
  (negative? cs (Nat.pow 2 127)).map fun n => .wide n "i128"

/-- A fractional number: finite, or one of the spellings of infinity and not-a-number. -/
def float? (cs : List Char) : Option Binary64 :=
  let body := stripSign '+' cs
  let isPlus := body.length < cs.length
  let word := String.ofList body
  let whole := String.ofList cs
  if isPlus && hasSign body then none
  else if word == ".inf" || word == ".Inf" || word == ".INF" then some (.infinity false)
  else if whole == "-.inf" || whole == "-.Inf" || whole == "-.INF" then some (.infinity true)
  else if whole == ".nan" || whole == ".NaN" || whole == ".NAN" then some .nan
  else Binary64.readFinite? body

/-- What a plain scalar stands for. -/
inductive Meaning where
  | null
  | bool (b : Bool)
  | int (n : Int)
  | wide (n : Int) (word : String)
  | float (x : Binary64)
  | string (s : String)
deriving DecidableEq, Repr

def IntForm.meaning : IntForm → Meaning
  | .narrow n => .int n
  | .wide n word => .wide n word

/-- What a plain scalar without a tag stands for. -/
def classify (s : String) : Meaning :=
  let cs := s.toList
  if cs.isEmpty || isNull s then .null
  else
    match bool? s with
    | some b => .bool b
    | none =>
      match int? cs with
      | some form => form.meaning
      | none =>
        if isPaddedDigits cs then .string s
        else
          match float? cs with
          | some x => .float x
          | none => .string s

end Plain

end PowerBench.Yaml
