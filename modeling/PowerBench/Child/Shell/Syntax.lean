import PowerBench.Text.Blank

/-!
# Shell scripts: syntax

A script is read in two steps: its characters are cut into words and operators, and these are put
together to commands. A word keeps its parts as written: plain text, parameters, arithmetic, and the
output of other commands; they are expanded when the command runs.
-/

set_option autoImplicit false

namespace PowerBench.Child.Shell

/-- A part of a word; quoted parts are never split. -/
inductive Part where
  | text (cs : List Char) (quoted : Bool)
  | parameter (expression : List Char) (quoted : Bool)
  | arithmetic (source : List Char) (quoted : Bool)
  | output (source : List Char) (quoted : Bool)
deriving DecidableEq, Repr

abbrev Word := List Part

/-- The text of a word without quotes and expansions. -/
def Word.bare? : Word → Option (List Char)
  | [.text cs false] => some cs
  | _ => none

inductive Direction where
  | copy (source : Nat)
  | close
  | input (file : Word)
  | output (file : Word)
  | append (file : Word)
deriving DecidableEq, Repr

/-- A redirection of one file descriptor. -/
structure Redirect where
  descriptor : Nat
  direction : Direction
deriving DecidableEq, Repr

inductive Command where
  | nothing
  | simple (line : Nat) (assignments : List (List Char × Word)) (words : List Word)
      (redirects : List Redirect)
  | sequence (first second : Command)
  | both (first second : Command)
  | either (first second : Command)
  | negated (body : Command)
  | background (body : Command)
  | pipeline (left right : Command)
  | group (body : Command) (redirects : List Redirect)
  | subshell (body : Command) (redirects : List Redirect)
  | loop (wanted : Bool) (condition body : Command) (redirects : List Redirect)
  | branch (condition yes no : Command)
  | each (name : List Char) (words : List Word) (body : Command) (redirects : List Redirect)
  | choice (subject : Word) (arms : List (List Word × Command)) (redirects : List Redirect)
  | define (name : List Char) (body : Command)
deriving Repr, Inhabited

/-- Why a script cannot be read; the end of the script is the token that is not there. -/
inductive SyntaxFault where
  | openQuote
  | badName
  | unexpected (token? : Option String) (wanted? : Option String)
deriving DecidableEq, Repr

def SyntaxFault.message : SyntaxFault → String
  | .openQuote => "Syntax error: Unterminated quoted string"
  | .badName => "Syntax error: Bad function name"
  | .unexpected token? wanted? =>
    let wanted := match wanted? with
      | some w => " (expecting \"" ++ w ++ "\")"
      | none => ""
    "Syntax error: " ++ token?.getD "end of file" ++ " unexpected" ++ wanted

/-- A fault and the line it is in, unless that is the last one. -/
structure PlacedFault where
  fault : SyntaxFault
  line? : Option Nat
deriving DecidableEq, Repr

/-! ## Tokens -/

/-- A token; a number stands directly before a redirection. -/
inductive Token where
  | word (w : Word)
  | number (n : Nat)
  | operator (cs : List Char)
  | newline
deriving DecidableEq, Repr

/-- A token and the line it begins in. -/
structure PlacedToken where
  token : Token
  line : Nat
deriving DecidableEq, Repr

def isNameStart (c : Char) : Bool := c.isAlpha || c == '_'

def isNameChar (c : Char) : Bool := c.isAlphanum || c == '_'

def isSpecial (c : Char) : Bool :=
  c.isDigit || c == '?' || c == '#' || c == '@' || c == '*' || c == '$' || c == '!' || c == '-'

def endsWord (c : Char) : Bool :=
  c == ' ' || c == '\t' || c == '\n' || c == ';' || c == '&' || c == '|' || c == '<' || c == '>'
    || c == '(' || c == ')'

/-- Text between double quotes as it is written, with the closing quote. -/
def quotedText : List Char → List Char × List Char
  | [] => ([], [])
  | '"' :: cs => (['"'], cs)
  | '\\' :: c :: cs =>
    let (inside, rest) := quotedText cs
    ('\\' :: c :: inside, rest)
  | c :: cs =>
    let (inside, rest) := quotedText cs
    (c :: inside, rest)

/-- The text up to the bracket that closes `depth` open ones, quoted text skipped. -/
def closing (opens closes : Char) : Nat → Nat → List Char → Option (List Char × List Char)
  | 0, _, _ => none
  | _, _, [] => none
  | fuel + 1, depth, '\\' :: c :: cs =>
    (closing opens closes fuel depth cs).map fun r => ('\\' :: c :: r.1, r.2)
  | fuel + 1, depth, '\'' :: cs =>
    let inside := cs.takeWhile (· != '\'')
    (closing opens closes fuel depth (cs.drop (inside.length + 1))).map fun r =>
      ('\'' :: inside ++ '\'' :: r.1, r.2)
  | fuel + 1, depth, '"' :: cs =>
    let (inside, rest) := quotedText cs
    (closing opens closes fuel depth rest).map fun r => ('"' :: inside ++ r.1, r.2)
  | fuel + 1, depth, c :: cs =>
    if c == closes && depth ≤ 1 then some ([], cs)
    else
      let depth := if c == closes then depth - 1 else if c == opens then depth + 1 else depth
      (closing opens closes fuel depth cs).map fun r => (c :: r.1, r.2)

def afterDollar (quoted : Bool) (cs : List Char) : Except SyntaxFault (Part × List Char) :=
  match cs with
  | '(' :: '(' :: rest =>
    match closing '(' ')' (rest.length + 1) 2 rest with
    | some (source, rest) =>
      let source := if source.getLast? == some ')' then source.dropLast else source
      .ok (.arithmetic source quoted, rest)
    | none => .error (.unexpected none (some "))"))
  | '(' :: rest =>
    match closing '(' ')' (rest.length + 1) 1 rest with
    | some (source, rest) => .ok (.output source quoted, rest)
    | none => .error (.unexpected none (some ")"))
  | '\x7b' :: rest =>
    match closing '\x7b' '\x7d' (rest.length + 1) 1 rest with
    | some (inside, rest) => .ok (.parameter inside quoted, rest)
    | none => .error (.unexpected none (some "\x7d"))
  | c :: rest =>
    if isSpecial c then .ok (.parameter [c] quoted, rest)
    else if isNameStart c then
      let name := cs.takeWhile isNameChar
      .ok (.parameter name quoted, cs.drop name.length)
    else .ok (.text ['$'] quoted, cs)
  | [] => .ok (.text ['$'] quoted, [])

def betweenBackquotes (quoted : Bool) (cs : List Char) : Except SyntaxFault (Part × List Char) :=
  let inside := cs.takeWhile (· != '\x60')
  if inside.length < cs.length then .ok (.output inside quoted, cs.drop (inside.length + 1))
  else .error .openQuote

/-- The parts up to the closing double quote. -/
def betweenQuotes : Nat → List Char → Except SyntaxFault (Word × List Char)
  | 0, _ => .error .openQuote
  | _, [] => .error .openQuote
  | _, '"' :: cs => .ok ([], cs)
  | fuel + 1, '\\' :: c :: cs => do
    let (parts, rest) ← betweenQuotes fuel cs
    if c = '\n' then pure (parts, rest)
    else if c = '$' || c = '\x60' || c = '"' || c = '\\' then pure (.text [c] true :: parts, rest)
    else pure (.text ['\\', c] true :: parts, rest)
  | fuel + 1, '$' :: cs => do
    let (part, cs) ← afterDollar true cs
    let (parts, rest) ← betweenQuotes fuel cs
    pure (part :: parts, rest)
  | fuel + 1, '\x60' :: cs => do
    let (part, cs) ← betweenBackquotes true cs
    let (parts, rest) ← betweenQuotes fuel cs
    pure (part :: parts, rest)
  | fuel + 1, c :: cs => do
    let (parts, rest) ← betweenQuotes fuel cs
    pure (.text [c] true :: parts, rest)

/-- Neighbouring texts of one kind as one part. -/
def joinTexts : Word → Word
  | [] => []
  | .text a q :: rest =>
    match joinTexts rest with
    | .text b q' :: rest' => if q = q' then .text (a ++ b) q :: rest' else .text a q :: .text b q' :: rest'
    | rest' => .text a q :: rest'
  | p :: rest => p :: joinTexts rest

def wordParts : Nat → List Char → Except SyntaxFault (Word × List Char)
  | 0, cs => .ok ([], cs)
  | _, [] => .ok ([], [])
  | fuel + 1, '\'' :: cs =>
    let inside := cs.takeWhile (· != '\'')
    if inside.length < cs.length then do
      let (parts, rest) ← wordParts fuel (cs.drop (inside.length + 1))
      pure (.text inside true :: parts, rest)
    else .error .openQuote
  | fuel + 1, '"' :: cs => do
    let (inside, cs) ← betweenQuotes (cs.length + 1) cs
    let (parts, rest) ← wordParts fuel cs
    pure (.text [] true :: inside ++ parts, rest)
  | fuel + 1, '\\' :: '\n' :: cs => wordParts fuel cs
  | fuel + 1, '\\' :: c :: cs => do
    let (parts, rest) ← wordParts fuel cs
    pure (.text [c] true :: parts, rest)
  | fuel + 1, '$' :: cs => do
    let (part, cs) ← afterDollar false cs
    let (parts, rest) ← wordParts fuel cs
    pure (part :: parts, rest)
  | fuel + 1, '\x60' :: cs => do
    let (part, cs) ← betweenBackquotes false cs
    let (parts, rest) ← wordParts fuel cs
    pure (part :: parts, rest)
  | fuel + 1, c :: cs =>
    if endsWord c then .ok ([], c :: cs)
    else do
      let (parts, rest) ← wordParts fuel cs
      pure (.text [c] false :: parts, rest)

def isDouble (a b : Char) : Bool :=
  (a == '&' && b == '&') || (a == '|' && b == '|') || (a == '>' && b == '>') || (a == '>' && b == '&')
    || (a == '<' && b == '&') || (a == ';' && b == ';')

def lineEnds (cs : List Char) : Nat := cs.count '\n'

/-- A script cut into tokens, from some line on, and what is wrong after the last of them. -/
def tokens : Nat → Nat → List Char → List PlacedToken × Option SyntaxFault
  | 0, _, _ => ([], none)
  | _, _, [] => ([], none)
  | fuel + 1, line, ' ' :: cs => tokens fuel line cs
  | fuel + 1, line, '\t' :: cs => tokens fuel line cs
  | fuel + 1, line, '\\' :: '\n' :: cs => tokens fuel (line + 1) cs
  | fuel + 1, line, '\n' :: cs => andThen ⟨.newline, line⟩ (tokens fuel (line + 1) cs)
  | fuel + 1, line, '#' :: cs => tokens fuel line (cs.dropWhile (· != '\n'))
  | fuel + 1, line, c :: cs =>
    if endsWord c then
      match cs with
      | d :: rest =>
        if isDouble c d then andThen ⟨.operator [c, d], line⟩ (tokens fuel line rest)
        else andThen ⟨.operator [c], line⟩ (tokens fuel line cs)
      | [] => ([⟨.operator [c], line⟩], none)
    else
      let ds := (c :: cs).takeWhile Char.isDigit
      match (c :: cs).drop ds.length with
      | '<' :: _ | '>' :: _ =>
        if ds.isEmpty then readWord fuel line (c :: cs)
        else
          let n := ds.foldl (fun n c => n * 10 + (c.toNat - 48)) 0
          andThen ⟨.number n, line⟩ (tokens fuel line ((c :: cs).drop ds.length))
      | _ => readWord fuel line (c :: cs)
where
  /-- A token before others. -/
  andThen (t : PlacedToken) (rest : List PlacedToken × Option SyntaxFault) :
      List PlacedToken × Option SyntaxFault := (t :: rest.1, rest.2)
  /-- A word, and the tokens after it. -/
  readWord (fuel line : Nat) (cs : List Char) : List PlacedToken × Option SyntaxFault :=
    match wordParts (cs.length + 1) cs with
    | .error fault => ([], some fault)
    | .ok (w, rest) =>
      let next := line + lineEnds (cs.take (cs.length - rest.length))
      andThen ⟨.word (joinTexts w), line⟩ (tokens fuel next rest)

/-! ## Commands -/

abbrev Reader (α : Type) := List PlacedToken → Except PlacedFault (α × List PlacedToken)

/-- The words that end a list of commands where a command could begin. -/
def closers : List String := ["done", "fi", "else", "elif", "then", "do", "\x7d", "esac"]

/-- The words with a meaning of their own where a command could begin. -/
def reserved : List String :=
  ["!", "\x7b", "case", "for", "if", "until", "while", "in"] ++ closers

def redirects (operator : List Char) : Bool :=
  [['<'], ['>'], ['>', '>'], ['>', '&'], ['<', '&']].contains operator

def Token.shown : Token → String
  | .word w =>
    match w.bare? with
    | some cs =>
      if reserved.contains (String.ofList cs) then "\"" ++ String.ofList cs ++ "\"" else "word"
    | none => "word"
  | .number _ => "redirection"
  | .operator cs => if redirects cs then "redirection" else "\"" ++ String.ofList cs ++ "\""
  | .newline => "newline"

/-- The fault of a token that does not belong where it is. -/
def unexpected {α : Type} (wanted? : Option String) : Reader α
  | [] => .error ⟨.unexpected none wanted?, none⟩
  | t :: _ => .error ⟨.unexpected (some t.token.shown) wanted?, some t.line⟩

/-- Whether the next token is a certain bare word. -/
def startsWithWord (word : String) : List PlacedToken → Bool
  | ⟨.word w, _⟩ :: _ => w.bare? == some word.toList
  | _ => false

/-- Whether the next token is a certain operator. -/
def startsWithOperator (operator : String) : List PlacedToken → Bool
  | ⟨.operator o, _⟩ :: _ => o == operator.toList
  | _ => false

def wantWord (word : String) : Reader Unit := fun ts =>
  if startsWithWord word ts then .ok ((), ts.drop 1) else unexpected (some word) ts

def skipLines (ts : List PlacedToken) : List PlacedToken := ts.dropWhile (·.token == .newline)

def ownDescriptor (operator : List Char) : Nat := if operator.head? == some '<' then 0 else 1

def direction? (operator : List Char) (w : Word) : Option Direction :=
  match String.ofList operator with
  | "<" => some (.input w)
  | ">" => some (.output w)
  | ">>" => some (.append w)
  | _ =>
    match w.bare? with
    | some ['-'] => some .close
    | some ds => if ds.all Char.isDigit then
        some (.copy (ds.foldl (fun n c => n * 10 + (c.toNat - 48)) 0)) else none
    | none => none

def readRedirect? : List PlacedToken → Except PlacedFault (Option Redirect × List PlacedToken)
  | ⟨.number n, _⟩ :: ⟨.operator o, _⟩ :: ts => do
    let (d, rest) ← target o ts
    pure (some ⟨n, d⟩, rest)
  | ⟨.operator o, line⟩ :: ts =>
    if redirects o then do
      let (d, rest) ← target o ts
      pure (some ⟨ownDescriptor o, d⟩, rest)
    else .ok (none, ⟨.operator o, line⟩ :: ts)
  | ts => .ok (none, ts)
where
  /-- Where a redirection leads. -/
  target (operator : List Char) : Reader Direction
    | ⟨.word w, line⟩ :: rest =>
      match direction? operator w with
      | some d => .ok (d, rest)
      | none => .error ⟨.unexpected (some (Token.shown (.word w))) none, some line⟩
    | ts => unexpected none ts

def readRedirects : Nat → Reader (List Redirect)
  | 0, ts => .ok ([], ts)
  | fuel + 1, ts => do
    match ← readRedirect? ts with
    | (some r, rest) =>
      let (more, rest) ← readRedirects fuel rest
      pure (r :: more, rest)
    | (none, rest) => pure ([], rest)

/-- An assignment: a name and an equals sign at the start of a word. -/
def assignment? : Word → Option (List Char × Word)
  | .text cs false :: rest =>
    let name := cs.takeWhile isNameChar
    match cs.drop name.length with
    | '=' :: value =>
      if name.isEmpty || !(name.headD '0' |> isNameStart) then none
      else some (name, if value.isEmpty then rest else .text value false :: rest)
    | _ => none
  | _ => none

def readSimple (line : Nat) :
    Nat → List (List Char × Word) → List Word → List Redirect → Reader Command
  | 0, assignments, words, rs, ts =>
    .ok (.simple line assignments.reverse words.reverse rs.reverse, ts)
  | fuel + 1, assignments, words, rs, ts => do
    match ← readRedirect? ts with
    | (some r, rest) => readSimple line fuel assignments words (r :: rs) rest
    | (none, ⟨.word w, _⟩ :: rest) =>
      match if words.isEmpty then assignment? w else none with
      | some a => readSimple line fuel (a :: assignments) words rs rest
      | none => readSimple line fuel assignments (w :: words) rs rest
    | (none, rest) =>
      if assignments.isEmpty && words.isEmpty && rs.isEmpty then unexpected none rest
      else pure (.simple line assignments.reverse words.reverse rs.reverse, rest)

def readWords : List PlacedToken → List Word × List PlacedToken
  | ⟨.word w, _⟩ :: rest =>
    let (ws, rest) := readWords rest
    (w :: ws, rest)
  | ts => ([], ts)

def readPatterns : Reader (List Word)
  | ⟨.word w, _⟩ :: ⟨.operator ['|'], _⟩ :: rest => do
    let (ws, rest) ← readPatterns rest
    pure (w :: ws, rest)
  | ⟨.word w, _⟩ :: ⟨.operator [')'], _⟩ :: rest => .ok ([w], rest)
  | ⟨.word _, _⟩ :: rest => unexpected (some ")") rest
  | ts => unexpected none ts

def skipSeparator : List PlacedToken → List PlacedToken
  | ⟨.operator [';'], _⟩ :: rest => skipLines rest
  | ts => skipLines ts

def lineOf : List PlacedToken → Nat
  | t :: _ => t.line
  | [] => 1

mutual

/-- Commands up to a word or operator that ends the list. -/
def readList (fuel : Nat) : Reader Command := fun ts =>
  match fuel with
  | 0 => .ok (.nothing, ts)
  | fuel + 1 =>
    let ts := skipLines ts
    if ts.isEmpty || startsWithOperator ")" ts || startsWithOperator ";;" ts
        || closers.any (startsWithWord · ts) then .ok (.nothing, ts)
    else do
      let (first, rest) ← readAndOr fuel ts
      match rest with
      | ⟨.operator [';'], _⟩ :: rest =>
        let (second, rest) ← readList fuel rest
        pure (.sequence first second, rest)
      | ⟨.newline, _⟩ :: rest =>
        let (second, rest) ← readList fuel rest
        pure (.sequence first second, rest)
      | ⟨.operator ['&'], _⟩ :: rest =>
        let (second, rest) ← readList fuel rest
        pure (.sequence (.background first) second, rest)
      | rest => pure (first, rest)

def readBody (fuel : Nat) : Reader Command := fun ts =>
  match fuel with
  | 0 => .ok (.nothing, ts)
  | fuel + 1 => do
    match ← readList fuel ts with
    | (.nothing, rest) => if rest.isEmpty then pure (.nothing, rest) else unexpected none rest
    | result => pure result

/-- Pipelines joined by `&&` and `||`. -/
def readAndOr (fuel : Nat) : Reader Command := fun ts =>
  match fuel with
  | 0 => .ok (.nothing, ts)
  | fuel + 1 => do
    let (first, rest) ← readPipeline fuel ts
    readJoined fuel first rest

def readJoined (fuel : Nat) (first : Command) : Reader Command := fun ts =>
  match fuel with
  | 0 => .ok (first, ts)
  | fuel + 1 =>
    match ts with
    | ⟨.operator ['&', '&'], _⟩ :: rest => do
      let (second, rest) ← readPipeline fuel (skipLines rest)
      readJoined fuel (.both first second) rest
    | ⟨.operator ['|', '|'], _⟩ :: rest => do
      let (second, rest) ← readPipeline fuel (skipLines rest)
      readJoined fuel (.either first second) rest
    | ts => .ok (first, ts)

/-- Commands joined by pipes, perhaps negated. -/
def readPipeline (fuel : Nat) : Reader Command := fun ts =>
  match fuel with
  | 0 => .ok (.nothing, ts)
  | fuel + 1 =>
    if startsWithWord "!" ts then do
      let (body, rest) ← readPipeline fuel (ts.drop 1)
      pure (.negated body, rest)
    else do
      let (left, rest) ← readCommand fuel ts
      match rest with
      | ⟨.operator ['|'], _⟩ :: rest =>
        let (right, rest) ← readPipeline fuel (skipLines rest)
        pure (.pipeline left right, rest)
      | rest => pure (left, rest)

def readCommand (fuel : Nat) : Reader Command := fun ts =>
  match fuel with
  | 0 => .ok (.nothing, ts)
  | fuel + 1 =>
    match ts with
    | ⟨.operator ['('], _⟩ :: rest => do
      let (body, rest) ← readBody fuel rest
      match rest with
      | ⟨.operator [')'], _⟩ :: rest =>
        let (rs, rest) ← readRedirects rest.length rest
        pure (.subshell body rs, rest)
      | rest => unexpected (some ")") rest
    | ⟨.word w, line⟩ :: ⟨.operator ['('], _⟩ :: rest =>
      match rest with
      | ⟨.operator [')'], _⟩ :: rest =>
        match w.bare? with
        | some name =>
          if name.all isNameChar && name.head?.any isNameStart then do
            let (body, rest) ← readCommand fuel (skipLines rest)
            pure (.define name body, rest)
          else .error ⟨.badName, some line⟩
        | none => .error ⟨.badName, some line⟩
      | rest => unexpected (some ")") rest
    | ts =>
      if startsWithWord "\x7b" ts then do
        let (body, rest) ← readBody fuel (ts.drop 1)
        let ((), rest) ← wantWord "\x7d" rest
        let (rs, rest) ← readRedirects rest.length rest
        pure (.group body rs, rest)
      else if startsWithWord "while" ts || startsWithWord "until" ts then do
        let (condition, rest) ← readBody fuel (ts.drop 1)
        let ((), rest) ← wantWord "do" rest
        let (body, rest) ← readBody fuel rest
        let ((), rest) ← wantWord "done" rest
        let (rs, rest) ← readRedirects rest.length rest
        pure (.loop (startsWithWord "while" ts) condition body rs, rest)
      else if startsWithWord "if" ts then readBranch fuel (ts.drop 1)
      else if startsWithWord "for" ts then readEach fuel (ts.drop 1)
      else if startsWithWord "case" ts then readChoice fuel (ts.drop 1)
      else if closers.any (startsWithWord · ts) then unexpected none ts
      else readSimple (lineOf ts) (ts.length + 1) [] [] [] ts

/-- A branch after `if` or `elif`. -/
def readBranch (fuel : Nat) : Reader Command := fun ts =>
  match fuel with
  | 0 => .ok (.nothing, ts)
  | fuel + 1 => do
    let (condition, rest) ← readBody fuel ts
    let ((), rest) ← wantWord "then" rest
    let (yes, rest) ← readBody fuel rest
    if startsWithWord "elif" rest then
      let (no, rest) ← readBranch fuel (rest.drop 1)
      pure (.branch condition yes no, rest)
    else if startsWithWord "else" rest then
      let (no, rest) ← readBody fuel (rest.drop 1)
      let ((), rest) ← wantWord "fi" rest
      pure (.branch condition yes no, rest)
    else
      let ((), rest) ← wantWord "fi" rest
      pure (.branch condition yes .nothing, rest)

/-- A loop over words after `for`. -/
def readEach (fuel : Nat) : Reader Command := fun ts =>
  match fuel with
  | 0 => .ok (.nothing, ts)
  | fuel + 1 =>
    match ts with
    | ⟨.word w, _⟩ :: rest =>
      match w.bare? with
      | none => unexpected none ts
      | some name => do
        let (words, rest) := if startsWithWord "in" rest then readWords (rest.drop 1)
          else ([[.parameter ['@'] true]], rest)
        let ((), rest) ← wantWord "do" (skipSeparator rest)
        let (body, rest) ← readBody fuel rest
        let ((), rest) ← wantWord "done" rest
        let (rs, rest) ← readRedirects rest.length rest
        pure (.each name words body rs, rest)
    | ts => unexpected none ts

/-- A choice by patterns after `case`. -/
def readChoice (fuel : Nat) : Reader Command := fun ts =>
  match fuel with
  | 0 => .ok (.nothing, ts)
  | fuel + 1 =>
    match ts with
    | ⟨.word w, _⟩ :: rest => do
      let ((), rest) ← wantWord "in" (skipLines rest)
      let (arms, rest) ← readArms fuel rest
      let (rs, rest) ← readRedirects rest.length rest
      pure (.choice w arms rs, rest)
    | ts => unexpected none ts

/-- The arms of a choice and the word that ends it. -/
def readArms (fuel : Nat) : Reader (List (List Word × Command)) := fun ts =>
  match fuel with
  | 0 => .ok ([], ts)
  | fuel + 1 =>
    let ts := skipLines ts
    if startsWithWord "esac" ts then .ok ([], ts.drop 1)
    else do
      let (patterns, rest) ← readPatterns (if startsWithOperator "(" ts then ts.drop 1 else ts)
      let (body, rest) ← readList fuel rest
      if startsWithOperator ";;" rest then
        let (arms, rest) ← readArms fuel (rest.drop 1)
        pure ((patterns, body) :: arms, rest)
      else
        let ((), rest) ← wantWord "esac" rest
        pure ([(patterns, body)], rest)

end

def readLine : Nat → Reader Command
  | 0, ts => .ok (.nothing, ts)
  | fuel + 1, ts => do
    let (first, rest) ← readAndOr fuel ts
    match rest with
    | ⟨.operator [';'], _⟩ :: rest =>
      if endsLine rest then pure (first, rest)
      else
        let (second, rest) ← readLine fuel rest
        pure (.sequence first second, rest)
    | ⟨.operator ['&'], _⟩ :: rest =>
      if endsLine rest then pure (.background first, rest)
      else
        let (second, rest) ← readLine fuel rest
        pure (.sequence (.background first) second, rest)
    | rest => if endsLine rest then pure (first, rest) else unexpected none rest
where
  /-- Whether nothing is left of a line. -/
  endsLine : List PlacedToken → Bool
    | [] => true
    | t :: _ => t.token == .newline

/-- A script as it is read: the lines that are complete, and what is wrong after them, with its wording
and its line. -/
structure Script where
  lines : List Command
  fault? : Option (String × Nat)
deriving Repr

/-- Reads the lines of a script. A line without an end is complete only where the script is. -/
def readLines (complete : Bool) : Nat → List PlacedToken → List Command × Option PlacedFault
  | 0, _ => ([], none)
  | fuel + 1, ts =>
    let ts := skipLines ts
    if ts.isEmpty then ([], none)
    else
      match readLine (12 * ts.length + 12) ts with
      | .error e => ([], some e)
      | .ok (c, rest) =>
        if rest.isEmpty && !complete then ([], none)
        else
          let (cs, fault?) := readLines complete fuel rest
          (c :: cs, fault?)

def read (line : Nat) (source : List Char) : Script :=
  let last := line + lineEnds source
  let (ts, broken?) := tokens (source.length + 1) line source
  let (lines, fault?) := readLines broken?.isNone (ts.length + 1) ts
  match broken?, fault? with
  | none, none => ⟨lines, none⟩
  | none, some e => ⟨lines, some (e.fault.message, e.line?.getD last)⟩
  | some f, none => ⟨lines, some (f.message, last)⟩
  | some f, some e =>
    match e.line? with
    | none => ⟨lines, some (f.message, last)⟩
    | some n => ⟨lines, some (e.fault.message, n)⟩

/-! ## Patterns -/

/-- Whether a text matches a pattern with `*` and `?`. -/
def matchesPattern : List Char → List Char → Bool
  | [], s => s.isEmpty
  | '*' :: p, [] => matchesPattern p []
  | '*' :: p, c :: s => matchesPattern p (c :: s) || matchesPattern ('*' :: p) s
  | '?' :: p, _ :: s => matchesPattern p s
  | p :: ps, c :: s => p == c && matchesPattern ps s
  | _ :: _, [] => false
termination_by p s => p.length + s.length

end PowerBench.Child.Shell
