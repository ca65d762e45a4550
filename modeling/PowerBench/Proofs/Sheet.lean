import Mathlib.Data.List.TakeWhile

set_option autoImplicit false

/-! # Records as they are written

A text is a sheet of records (`Sheet`). A record is fields between commas and ends with a line feed,
with a carriage return, or with the text; a field that starts with a quote runs to the next quote that
is not doubled, over commas and line ends too. What stands between two records are line ends only: blank
lines, and the line feed after a carriage return. Every text is a sheet (`exists_sheet`).
-/

namespace PowerBench.Csv

/-! ## Sheets -/

/-- Characters that can stand outside quotes. -/
def Plain (cs : List Char) : Prop := ∀ c ∈ cs, c ≠ ',' ∧ c ≠ '\n' ∧ c ≠ '\r'

/-- Line feeds and carriage returns only. -/
def LineEnds (cs : List Char) : Prop := ∀ c ∈ cs, c = '\n' ∨ c = '\r'

/-- A text as it stands between quotes. -/
def doubled (cs : List Char) : List Char := cs.flatMap fun c => if c = '"' then ['"', '"'] else [c]

/-- How a field is written, and what it says. A field that is not closed runs to the end of the whole
text. -/
inductive FieldText : Bool → List Char → List Char → Prop where
  | bare {cs : List Char} (plain : Plain cs) (unquoted : cs.head? ≠ some '"') : FieldText true cs cs
  | quoted (inside : List Char) {tail : List Char} (plain : Plain tail)
      (closing : tail.head? ≠ some '"') :
      FieldText true ('"' :: (doubled inside ++ '"' :: tail)) (inside ++ tail)
  | unclosed (inside : List Char) : FieldText false ('"' :: doubled inside) inside

/-- How a record is written, and its fields. -/
inductive RecordText : Bool → List Char → List (List Char) → Prop where
  | one {closed : Bool} {text value : List Char} (field : FieldText closed text value) :
      RecordText closed text [value]
  | more {closed : Bool} {text value rest : List Char} {values : List (List Char)}
      (field : FieldText true text value) (others : RecordText closed rest values) :
      RecordText closed (text ++ ',' :: rest) (value :: values)

/-- A record in its place: the line ends in front of it, its text, what its fields say, and the line
end that stops it. -/
structure Record where
  gap : List Char
  text : List Char
  fields : List (List Char)
  stop : List Char

/-- All characters that are read for a record. -/
def Record.whole (r : Record) : List Char := r.gap ++ (r.text ++ r.stop)

/-- The records of a text. -/
inductive Sheet : List Char → List Record → Prop where
  | finished {gap : List Char} (blank : LineEnds gap) : Sheet gap []
  | last {r : Record} {closed : Bool} (blank : LineEnds r.gap) (nonempty : r.text ≠ [])
      (written : RecordText closed r.text r.fields) (stop : r.stop = []) : Sheet r.whole [r]
  | next {r : Record} {rest : List Char} {records : List Record} (blank : LineEnds r.gap)
      (nonempty : r.text ≠ []) (written : RecordText true r.text r.fields)
      (stop : r.stop = ['\n'] ∨ r.stop = ['\r']) (later : Sheet rest records) :
      Sheet (r.whole ++ rest) (r :: records)

/-- The records one after the other are the text, but for line ends behind the last one. -/
theorem Sheet.text_eq {text : List Char} {records : List Record} (h : Sheet text records) :
    ∃ gap, LineEnds gap ∧ text = records.flatMap Record.whole ++ gap := by
  induction h with
  | @finished gap blank => exact ⟨gap, blank, rfl⟩
  | last => exact ⟨[], by simp [LineEnds], by simp⟩
  | next _ _ _ _ _ ih =>
      obtain ⟨gap, hgap, rfl⟩ := ih
      exact ⟨gap, hgap, by simp⟩

theorem Sheet.written {text : List Char} {records : List Record} (h : Sheet text records) :
    ∀ r ∈ records, ∃ closed, RecordText closed r.text r.fields := by
  induction h with
  | finished => simp
  | last _ _ written => exact List.forall_mem_singleton.mpr ⟨_, written⟩
  | next _ _ written _ _ ih => exact List.forall_mem_cons.mpr ⟨⟨_, written⟩, ih⟩

/-- A record without commas is one field. -/
theorem RecordText.single {closed : Bool} {text : List Char} {fields : List (List Char)}
    (h : RecordText closed text fields) (bare : ',' ∉ text) : fields.length = 1 := by
  cases h with
  | one => rfl
  | more => simp at bare

/-- A text without the byte order mark in front of it. -/
def withoutMark : List Char → List Char
  | '\uFEFF' :: cs => cs
  | cs => cs

/-- The line on which the text behind `before` goes on: one more than the line feeds in it. -/
def lineAfter (before : List Char) : Nat := before.count '\n' + 1

theorem withoutMark_subset (cs : List Char) : withoutMark cs ⊆ cs := by
  unfold withoutMark
  split
  · exact List.subset_cons_self _ _
  · exact List.Subset.refl _

theorem lineAfter_append (before gap : List Char) :
    lineAfter (before ++ gap) = lineAfter before + gap.count '\n' := by
  rw [lineAfter, lineAfter, List.count_append, Nat.add_right_comm]

/-- Records with the line on which what is before each of them ends. -/
def numbered (line : Nat) : List Record → List (Nat × Record)
  | [] => []
  | r :: records => (line, r) :: numbered (line + r.whole.count '\n') records

theorem map_numbered (line : Nat) (records : List Record) :
    (numbered line records).map Prod.snd = records := by
  induction records generalizing line with
  | nil => rfl
  | cons r records ih => rw [numbered, List.map_cons, ih]

/-- The line of a record counts the line feeds in all records before it. -/
theorem numbered_split {line k : Nat} {r : Record} {records : List Record}
    {good rest : List (Nat × Record)} (h : numbered line records = good ++ (k, r) :: rest) :
    records = good.map Prod.snd ++ r :: rest.map Prod.snd
      ∧ k = line + ((good.map Prod.snd).flatMap Record.whole).count '\n' := by
  have hall : records = good.map Prod.snd ++ r :: rest.map Prod.snd := by
    rw [← map_numbered line records, h, List.map_append, List.map_cons]
  refine ⟨hall, ?_⟩
  clear hall
  induction good generalizing line records with
  | nil =>
      cases records with
      | nil => cases h
      | cons first records =>
          obtain ⟨⟨rfl, -⟩, -⟩ : (line = k ∧ first = r) ∧ _ := by
            simpa [numbered] using h
          simp
  | cons front good ih =>
      cases records with
      | nil => cases h
      | cons first records =>
          obtain ⟨rfl, hlater⟩ := List.cons.inj h
          rw [ih hlater, List.map_cons, List.flatMap_cons, List.count_append, Nat.add_assoc]

/-! ## Every text is a sheet -/

/-- A text is cut before the first character of a class. -/
theorem exists_front (p : Char → Bool) (cs : List Char) :
    ∃ front rest, cs = front ++ rest ∧ (∀ c ∈ front, p c = false)
      ∧ ∀ c tail, rest = c :: tail → p c = true := by
  refine ⟨cs.takeWhile (!p ·), cs.dropWhile (!p ·), List.takeWhile_append_dropWhile.symm, ?_, ?_⟩
  · intro c hc
    simpa using List.mem_takeWhile_imp hc
  · intro c tail hrest
    have := List.head?_dropWhile_not (!p ·) cs
    rw [hrest] at this
    simpa using this

/-- A text after an opening quote: it is closed somewhere, or it never is. -/
theorem exists_inside (cs : List Char) :
    (∃ inside tail, cs = doubled inside ++ '"' :: tail ∧ tail.head? ≠ some '"')
      ∨ ∃ inside, cs = doubled inside := by
  match cs with
  | [] => exact .inr ⟨[], rfl⟩
  | c :: rest =>
      by_cases hc : c = '"'
      · subst hc
        match rest with
        | [] => exact .inl ⟨[], [], rfl, by simp⟩
        | d :: rest =>
            by_cases hd : d = '"'
            · subst hd
              rcases exists_inside rest with ⟨inside, tail, rfl, htail⟩ | ⟨inside, rfl⟩
              · exact .inl ⟨'"' :: inside, tail, by simp [doubled], htail⟩
              · exact .inr ⟨'"' :: inside, by simp [doubled]⟩
            · exact .inl ⟨[], d :: rest, rfl, by simpa using hd⟩
      · rcases exists_inside rest with ⟨inside, tail, rfl, htail⟩ | ⟨inside, rfl⟩
        · exact .inl ⟨c :: inside, tail, by simp [doubled, hc], htail⟩
        · exact .inr ⟨c :: inside, by simp [doubled, hc]⟩
termination_by cs.length

/-- What follows a field that is closed: the end of the text, or a character that divides. -/
def Divided (rest : List Char) : Prop := ∀ c tail, rest = c :: tail → c = ',' ∨ c = '\n' ∨ c = '\r'

/-- A text is cut behind its longest plain beginning. -/
theorem exists_plain (cs : List Char) :
    ∃ front rest, cs = front ++ rest ∧ Plain front ∧ Divided rest := by
  obtain ⟨front, rest, hcs, hfront, hrest⟩ :=
    exists_front (fun c => c = ',' ∨ c = '\n' ∨ c = '\r') cs
  refine ⟨front, rest, hcs, fun c hc => ?_, fun c tail h => ?_⟩
  · simpa using hfront c hc
  · simpa using hrest c tail h

theorem exists_field (cs : List Char) :
    ∃ closed text value rest, cs = text ++ rest ∧ FieldText closed text value ∧ Divided rest
      ∧ (closed = false → rest = []) := by
  cases cs with
  | nil => exact ⟨true, [], [], [], rfl, .bare (by simp [Plain]) (by simp), by simp [Divided], by simp⟩
  | cons c cs =>
      by_cases hc : c = '"'
      · subst hc
        rcases exists_inside cs with ⟨inside, tail, rfl, htail⟩ | ⟨inside, rfl⟩
        · obtain ⟨front, rest, rfl, hplain, hrest⟩ := exists_plain tail
          have hclosing : front.head? ≠ some '"' := by
            cases front with
            | nil => simp
            | cons d front => simpa using htail
          exact ⟨true, _, _, rest, by simp, .quoted inside hplain hclosing, hrest, by simp⟩
        · exact ⟨false, _, _, [], by simp, .unclosed inside, by simp [Divided], by simp⟩
      · obtain ⟨front, rest, hcs, hplain, hrest⟩ := exists_plain (c :: cs)
        have hbare : front.head? ≠ some '"' := by
          cases front with
          | nil => simp
          | cons d front =>
              obtain ⟨rfl, -⟩ := List.cons.inj hcs
              simpa using hc
        exact ⟨true, front, front, rest, hcs, .bare hplain hbare, hrest, by simp⟩

theorem exists_record (cs : List Char) :
    ∃ closed text fields rest, cs = text ++ rest ∧ RecordText closed text fields
      ∧ (∀ c tail, rest = c :: tail → c = '\n' ∨ c = '\r') ∧ (closed = false → rest = []) := by
  -- Each field leaves a shorter rest.
  induction hlen : cs.length using Nat.strongRecOn generalizing cs with
  | ind n ih =>
      obtain ⟨closed, text, value, rest, rfl, hfield, hrest, hopen⟩ := exists_field cs
      match rest with
      | [] => exact ⟨closed, text, [value], [], rfl, .one hfield, by simp, hopen⟩
      | c :: rest =>
          obtain rfl : closed = true := by
            cases closed with
            | false => cases hopen rfl
            | true => rfl
          by_cases hc : c = ','
          · subst hc
            have hshorter : rest.length < n := by
              rw [← hlen, List.length_append, List.length_cons]
              omega
            obtain ⟨closed, others, fields, rest, rfl, hothers, hrest, hopen⟩ :=
              ih rest.length hshorter rest rfl
            exact ⟨closed, _, _, rest, by simp, .more hfield hothers, hrest, hopen⟩
          · have hend := (hrest c rest rfl).resolve_left hc
            refine ⟨true, text, [value], c :: rest, rfl, .one hfield, fun d tail h => ?_, by simp⟩
            obtain ⟨rfl, -⟩ := List.cons.inj h
            exact hend

/-- **Every text is a sheet of records.** -/
theorem exists_sheet (cs : List Char) : ∃ records, Sheet cs records := by
  induction hlen : cs.length using Nat.strongRecOn generalizing cs with
  | ind n ih =>
      obtain ⟨gap, body, rfl, hgap, hbody⟩ := exists_front (fun c => !(c = '\n' ∨ c = '\r')) cs
      have hblank : LineEnds gap := fun c hc => by
        simpa [or_iff_not_imp_left] using hgap c hc
      obtain ⟨closed, text, fields, rest, hsplit, hwritten, hrest, hopen⟩ := exists_record body
      match body with
      | [] => exact ⟨[], by simpa using Sheet.finished hblank⟩
      | b :: body =>
          have hb : b ≠ '\n' ∧ b ≠ '\r' := by simpa using hbody b body rfl
          have hnonempty : text ≠ [] := by
            -- The record would be stopped by the character with which it begins.
            rintro rfl
            rcases hrest b body hsplit.symm with h | h
            · exact hb.1 h
            · exact hb.2 h
          rw [hsplit]
          match rest with
          | [] =>
              exact ⟨_, Sheet.last (r := ⟨gap, text, fields, []⟩) hblank hnonempty hwritten rfl⟩
          | c :: rest =>
              obtain rfl : closed = true := by
                cases closed with
                | false => cases hopen rfl
                | true => rfl
              have hshorter : rest.length < n := by
                rw [← hlen, hsplit]
                simp only [List.length_append, List.length_cons]
                omega
              obtain ⟨records, hlater⟩ := ih rest.length hshorter rest rfl
              have hstop : [c] = ['\n'] ∨ [c] = ['\r'] := by simpa using hrest c rest rfl
              have hsheet := Sheet.next (r := ⟨gap, text, fields, [c]⟩) hblank hnonempty hwritten
                hstop hlater
              have htext : (Record.mk gap text fields [c]).whole ++ rest
                  = gap ++ (text ++ c :: rest) := by simp [Record.whole]
              exact ⟨_, htext ▸ hsheet⟩

end PowerBench.Csv
