import PowerBench.Text.ShellWord

set_option autoImplicit false

/-! # Command lines read back

A shell cuts a line into words at its blanks and takes the quotes out of the words. `Reading` does so
one character after the other, by the rules for single quotes, double quotes and backslashes; a
character that would end the command or begin an expansion is refused where it is not quoted, and so is
a line with an open quote. A word that `quote` writes is read as one word (`read_quote`), whatever it
holds, and so a command line gives back the program and the arguments it was made from
(`split?_commandLine`).
-/

namespace PowerBench.ShellWord

/-! ## The words of a line -/

/-- How the next character is taken: on its own, after a backslash, inside single quotes, inside
double quotes, or after a backslash inside double quotes. -/
inductive Quoting where
  | bare
  | escaped
  | single
  | double
  | doubleEscaped
deriving DecidableEq, Repr

/-- A line that is being read: the word that has begun, if one has, and the words before it. -/
structure Reading where
  quoting : Quoting
  word? : Option (List Char)
  words : List (List Char)
deriving DecidableEq, Repr

/-- The characters that end a command or begin an expansion. -/
def activeChars : List Char := ['\n', '|', '&', ';', '<', '>', '(', ')', '$', '\x60']

def isActive (c : Char) : Bool := activeChars.contains c

/-- The characters that a backslash keeps as they are inside double quotes. -/
def isEscapable (c : Char) : Bool := ['$', '\x60', '"', '\\'].contains c

namespace Reading

/-- Before the first character. -/
def start : Reading := { quoting := .bare, word? := none, words := [] }

/-- A quote begins or ends; even an empty one begins a word. -/
def turn (q : Quoting) (r : Reading) : Reading :=
  { r with quoting := q, word? := some (r.word?.getD []) }

def add (q : Quoting) (c : Char) (r : Reading) : Reading :=
  { r with quoting := q, word? := some (r.word?.getD [] ++ [c]) }

/-- The word has come to its end, if one has begun. -/
def finish (r : Reading) : Reading :=
  { quoting := .bare, word? := none, words := r.words ++ r.word?.toList }

/-- One character. A line end behind a backslash is left out together with it. -/
def step (r : Reading) (c : Char) : Option Reading :=
  match r.quoting with
  | .bare =>
    if c = ' ' ∨ c = '\t' then some r.finish
    else if c = '\'' then some (r.turn .single)
    else if c = '"' then some (r.turn .double)
    else if c = '\\' then some { r with quoting := .escaped }
    else if isActive c ∨ (c = '#' ∧ r.word? = none) then none
    else some (r.add .bare c)
  | .escaped => if c = '\n' then some { r with quoting := .bare } else some (r.add .bare c)
  | .single => if c = '\'' then some (r.turn .bare) else some (r.add .single c)
  | .double =>
    if c = '"' then some (r.turn .bare)
    else if c = '\\' then some { r with quoting := .doubleEscaped }
    else if c = '$' ∨ c = '\x60' then none
    else some (r.add .double c)
  | .doubleEscaped =>
    if c = '\n' then some { r with quoting := .double }
    else if isEscapable c then some (r.add .double c)
    else some ((r.add .double '\\').add .double c)

def read (r : Reading) (cs : List Char) : Option Reading := cs.foldlM step r

/-- The words at the end of a line, where no quote is open. -/
def words? (r : Reading) : Option (List String) :=
  if r.quoting = .bare then some (r.finish.words.map String.ofList) else none

end Reading

/-- The words of a line that is one command without expansions. -/
def split? (line : String) : Option (List String) :=
  (Reading.start.read line.toList).bind Reading.words?

/-! ## Characters -/

namespace Reading

theorem read_cons (r : Reading) (c : Char) (cs : List Char) :
    r.read (c :: cs) = (r.step c).bind fun r => r.read cs := List.foldlM_cons

theorem read_append (r : Reading) (cs ds : List Char) :
    r.read (cs ++ ds) = (r.read cs).bind fun r => r.read ds := List.foldlM_append

/-- A safe character is a character of the word it stands in. -/
theorem step_safe {c : Char} (safe : isSafe c = true) (word? : Option (List Char))
    (words : List (List Char)) :
    step ⟨.bare, word?, words⟩ c = some ⟨.bare, some (word?.getD [] ++ [c]), words⟩ := by
  have hplain : ∀ d, isSafe d = false → c ≠ d := by
    rintro d hd rfl
    rw [safe] at hd
    cases hd
  have hactive : isActive c = false := by
    rw [isActive, List.contains_eq_mem, decide_eq_false_iff_not]
    intro hmem
    have hall : activeChars.all (fun d => !isSafe d) = true := by decide
    have hunsafe : isSafe c = false := by simpa using List.all_eq_true.mp hall c hmem
    exact hplain c hunsafe rfl
  simp [step, add, hactive, hplain ' ' (by decide), hplain '\t' (by decide),
    hplain '\'' (by decide), hplain '"' (by decide), hplain '\\' (by decide),
    hplain '#' (by decide)]

/-- Between single quotes every character comes back as the one that was written. -/
theorem read_quoteChar (c : Char) (word : List Char) (words : List (List Char)) :
    read ⟨.single, some word, words⟩ (quoteChar c) = some ⟨.single, some (word ++ [c]), words⟩ := by
  unfold quoteChar
  split
  · rename_i hstep
    -- The quotes are closed, the character follows a backslash, and the quotes are opened again.
    have hline : c ≠ '\n' := by
      rintro rfl
      revert hstep
      decide
    simp [read, step, turn, add, hline]
  · rename_i hinside
    have hquote : c ≠ '\'' := fun h => hinside (.inl h)
    simp [read, step, add, hquote]

/-! ## Words -/

theorem read_safeWord {cs : List Char} (safe : ∀ c ∈ cs, isSafe c = true) (word : List Char)
    (words : List (List Char)) :
    read ⟨.bare, some word, words⟩ cs = some ⟨.bare, some (word ++ cs), words⟩ := by
  induction cs generalizing word with
  | nil => simp [read]
  | cons c cs ih =>
      obtain ⟨hc, hcs⟩ := List.forall_mem_cons.mp safe
      rw [read_cons, step_safe hc]
      show read ⟨.bare, some (word ++ [c]), words⟩ cs = _
      rw [ih hcs, List.append_assoc, List.singleton_append]

theorem read_quotedWord (cs word : List Char) (words : List (List Char)) :
    read ⟨.single, some word, words⟩ (cs.flatMap quoteChar)
      = some ⟨.single, some (word ++ cs), words⟩ := by
  induction cs generalizing word with
  | nil => simp [read]
  | cons c cs ih =>
      rw [List.flatMap_cons, read_append, read_quoteChar]
      show read ⟨.single, some (word ++ [c]), words⟩ (cs.flatMap quoteChar) = _
      rw [ih, List.append_assoc, List.singleton_append]

/-- **A written word is read as one word.** -/
theorem read_quote (word : List Char) (words : List (List Char)) :
    read ⟨.bare, none, words⟩ (quote word) = some ⟨.bare, some word, words⟩ := by
  unfold quote
  split
  · rename_i hplain
    obtain ⟨hfull, hall⟩ : word ≠ [] ∧ ∀ c ∈ word, isSafe c = true := by simpa using hplain
    obtain ⟨c, cs, rfl⟩ := List.exists_cons_of_ne_nil hfull
    obtain ⟨hc, hcs⟩ := List.forall_mem_cons.mp hall
    rw [read_cons, step_safe hc]
    exact read_safeWord hcs [c] words
  · have hopen : step ⟨.bare, none, words⟩ '\'' = some ⟨.single, some [], words⟩ := rfl
    have hclose : read ⟨.single, some word, words⟩ ['\''] = some ⟨.bare, some word, words⟩ := rfl
    rw [List.cons_append, read_cons, hopen, Option.bind_some, read_append, read_quotedWord,
      List.nil_append, Option.bind_some, hclose]

/-! ## Lines -/

/-- The words behind the first one, each with a blank in front. -/
theorem read_arguments (args : List String) (word : List Char) (words : List (List Char)) :
    (read ⟨.bare, some word, words⟩ (args.flatMap fun a => ' ' :: quote a.toList)).bind words?
      = some (words.map String.ofList ++ String.ofList word :: args) := by
  induction args generalizing word words with
  | nil => simp [read, words?, finish]
  | cons a args ih =>
      have hblank : step ⟨.bare, some word, words⟩ ' ' = some ⟨.bare, none, words ++ [word]⟩ := rfl
      rw [List.flatMap_cons, List.cons_append, read_cons, hblank, Option.bind_some, read_append,
        read_quote, Option.bind_some, ih]
      simp

end Reading

theorem split?_commandLine (program : Path) (args : List String) :
    split? (commandLine program args) = some (program.shown :: args) := by
  have hargs := Reading.read_arguments args program.shown.toList []
  rw [split?, commandLine, String.toList_ofList, Reading.read_append, Reading.start,
    Reading.read_quote, Option.bind_some, hargs]
  simp

example : split? "sh -c 'it'\\''s' ''" = some ["sh", "-c", "it's", ""] := by decide +kernel

/-- **A command line is read back as what it was made from:** the program as it is shown, and then the
arguments in order. So two command lines are the same only if their programs are shown alike and their
arguments are the same. -/
theorem line_split_back (program : Path) (args : List String) :
    split? (commandLine program args) = some (program.shown :: args)
      ∧ ∀ program' args', commandLine program args = commandLine program' args' ↔
        program.shown = program'.shown ∧ args = args' := by
  refine ⟨split?_commandLine program args, fun program' args' => ⟨fun hline => ?_, ?_⟩⟩
  · have hwords := split?_commandLine program args
    rw [hline, split?_commandLine program' args'] at hwords
    obtain ⟨hprogram, hargs⟩ := List.cons.inj (Option.some.inj hwords)
    exact ⟨hprogram.symm, hargs.symm⟩
  · rintro ⟨hprogram, rfl⟩
    rw [commandLine, commandLine, hprogram]

end PowerBench.ShellWord
