import PowerBench.Yaml.Layout

set_option autoImplicit false

/-! # What is on a page stays there

Writing only adds to a page: the characters that it begins with stay in front of everything that is
written later (`Begins.entries`). So a mapping begins with its first key (`renderMapping_begins`).
-/

namespace PowerBench.Yaml

namespace Page

def Begins (opening : List Char) (p : Page) : Prop := opening <+: p.reversed.reverse

section

variable {opening : List Char} {p : Page}

/-! ## Marks -/

theorem Begins.put (h : p.Begins opening) (c : Char) : (p.put c).Begins opening := by
  unfold Begins Page.put
  rw [List.reverse_cons]
  exact h.trans (List.prefix_append _ _)

theorem Begins.newline (h : p.Begins opening) (c : Char) : (p.newline c).Begins opening := by
  unfold Begins Page.newline
  rw [List.reverse_cons]
  exact h.trans (List.prefix_append _ _)

theorem Begins.puts (h : p.Begins opening) (cs : List Char) : (p.puts cs).Begins opening := by
  induction cs generalizing p with
  | nil => exact h
  | cons c cs ih => exact ih (h.put c)

theorem Begins.indent (h : p.Begins opening) (level : Nat) : (p.indent level).Begins opening := by
  unfold Page.indent
  dsimp only
  split
  · exact (h.newline '\n').puts _
  · exact h.puts _

theorem Begins.mark (h : p.Begins opening) (cs : List Char) (needsBlank entry : Bool) :
    (p.mark cs needsBlank entry).Begins opening := by
  unfold Page.mark
  dsimp only
  split
  · exact (h.put ' ').puts cs
  · exact h.puts cs

/-! ## Scalars -/

theorem Begins.indentIf (h : p.Begins opening) (level : Nat) (b : Bool) :
    (if b then p.indent level else p).Begins opening := by
  cases b with
  | true => exact h.indent level
  | false => exact h

theorem Begins.singleQuoted (h : p.Begins opening) (level : Nat) (afterBreak : Bool)
    (cs : List Char) : (singleQuoted level afterBreak cs p).Begins opening := by
  induction cs generalizing afterBreak p with
  | nil =>
      rw [Yaml.singleQuoted]
      exact h.indentIf level afterBreak
  | cons c cs ih =>
      rw [Yaml.singleQuoted]
      split
      · refine ih ?_ true
        exact h.newline c
      · split
        · exact ih (h.put c) afterBreak
        · -- A break before the character is made good, and a quote is written twice.
          have hindent := h.indentIf level afterBreak
          refine ih ?_ false
          refine Begins.put ?_ c
          split
          · exact hindent.put '\''
          · exact hindent

theorem Begins.literalLines (h : p.Begins opening) (level : Nat) (afterBreak : Bool)
    (cs : List Char) : (literalLines level afterBreak cs p).Begins opening := by
  induction cs generalizing afterBreak p with
  | nil => exact h
  | cons c cs ih =>
      rw [Yaml.literalLines]
      split
      · refine ih ?_ true
        exact h.newline c
      · refine ih ?_ false
        exact (h.indentIf level afterBreak).put c

theorem Begins.scalar (h : p.Begins opening) (level : Nat) (form : Form) (cs : List Char) :
    (p.scalar level form cs).Begins opening := by
  cases form with
  | plain =>
      unfold Page.scalar
      dsimp only
      split
      · exact (h.put ' ').puts cs
      · exact h.puts cs
  | single => exact ((h.mark ['\''] true false).singleQuoted level false cs).mark ['\''] false false
  | double => exact ((h.mark ['"'] true false).puts _).mark ['"'] false false
  | literal =>
      refine Begins.literalLines ?_ level true cs
      exact (h.mark (literalHeader cs) true false).newline '\n'

end

/-! ## Values -/

mutual

theorem Begins.value (level : Nat) (inMapping key : Bool) : ∀ (v : Value) {opening : List Char}
    {p : Page}, p.Begins opening → (Page.value level inMapping key v p).Begins opening
  | .sequence [], _, _, h => by
      rw [Page.value]
      exact h.mark ['[', ']'] true false
  | .mapping [], _, _, h => by
      rw [Page.value]
      exact h.mark ['\x7b', '\x7d'] true false
  | .sequence (v :: vs), _, _, h => by
      rw [Page.value]
      exact Begins.items _ (v :: vs) h
  | .mapping (e :: es), _, _, h => by
      rw [Page.value]
      exact Begins.entries (level + 2) (e :: es) h
  | .tagged tag v, _, _, h => by
      rw [Page.value]
      exact Begins.value level inMapping key v (h.mark (tagText tag) true false)
  | .null, _, _, h => by
      rw [Page.value]
      exact h.scalar _ _ _
  | .bool _, _, _, h => by
      rw [Page.value]
      exact h.scalar _ _ _
  | .int _, _, _, h => by
      rw [Page.value]
      exact h.scalar _ _ _
  | .float _, _, _, h => by
      rw [Page.value]
      exact h.scalar _ _ _
  | .string _, _, _, h => by
      rw [Page.value]
      exact h.scalar _ _ _

theorem Begins.items (level : Nat) : ∀ (vs : List Value) {opening : List Char} {p : Page},
    p.Begins opening → (Page.items level vs p).Begins opening
  | [], _, _, h => by
      rw [Page.items]
      exact h
  | v :: vs, _, _, h => by
      rw [Page.items]
      exact Begins.items level vs
        (Begins.value level false false v ((h.indent level).mark ['-'] true true))

theorem Begins.entries (level : Nat) : ∀ (es : List (Value × Value)) {opening : List Char}
    {p : Page}, p.Begins opening → (Page.entries level es p).Begins opening
  | [], _, _, h => by
      rw [Page.entries]
      exact h
  | (k, v) :: rest, _, _, h => by
      rw [Page.entries]
      have hindent := h.indent level
      refine Begins.entries level rest (Begins.value level true false v ?_)
      split
      · exact (Begins.value level true true k hindent).mark [':'] false false
      · exact ((Begins.value level true false k (hindent.mark ['?'] true true)).indent level).mark
          [':'] true true

end

theorem reversed_puts (cs : List Char) (p : Page) :
    (p.puts cs).reversed = cs.reverse ++ p.reversed := by
  induction cs generalizing p with
  | nil => rfl
  | cons c cs ih =>
      show ((p.put c).puts cs).reversed = _
      rw [ih, List.reverse_cons, List.append_assoc]
      rfl

end Page

/-- A mapping whose first key is a plain word begins with this word. -/
theorem renderMapping_begins {word : String} (plain : formOf true word = .plain)
    (short : isSimpleKey (.string word) = true) (v : Value) (rest : List (Value × Value)) :
    word.toList <+: (renderMapping ((.string word, v) :: rest)).toList := by
  let start : Page := Page.indent 0 {}
  have hkey : (Page.value 0 true true (.string word) start).Begins word.toList := by
    rw [Page.value, plain]
    show word.toList <+: (Page.puts word.toList start).reversed.reverse
    rw [Page.reversed_puts, List.reverse_append, List.reverse_reverse]
    exact List.prefix_refl _
  have hentries : (Page.entries 0 ((.string word, v) :: rest) {}).Begins word.toList := by
    rw [Page.entries, if_pos short]
    exact Page.Begins.entries 0 rest
      (Page.Begins.value 0 true false v (hkey.mark [':'] false false))
  have hpage := hentries.indent 0
  unfold renderMapping
  rw [String.toList_ofList]
  exact hpage

end PowerBench.Yaml
