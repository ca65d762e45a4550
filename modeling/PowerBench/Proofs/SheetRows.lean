import PowerBench.Proofs.Sheet
import PowerBench.Proofs.TraceFaults
import PowerBench.Proofs.Utf8RoundTrip

set_option autoImplicit false

/-! # Reading what is written

What is read from the UTF-8 form of a text are the records of its sheet: a field by its form
(`scan_field`), a record field by field (`scan_record`), and the sheet record by record, each told by
the line on which what is before it ends (`rowsOf_sheet`).
-/

namespace PowerBench

/-! ## Characters in bytes -/

namespace Utf8

/-- A byte below 0x80 is a character of its own. -/
theorem eq_of_mem_encodeChar {c : Char} {b : UInt8} (h : b ∈ encodeChar c) (small : b.toNat < 0x80) :
    encodeChar c = [b] ∧ b.toNat = c.toNat := by
  have hbyte : ∀ n, n < 256 → b = UInt8.ofNat n → b.toNat = n := fun n hn hb => hb ▸ toNat_byte hn
  have hvalid : c.toNat < 0x110000 := by
    rcases c.valid with h | h
    · exact Nat.lt_trans h (by decide)
    · exact h.2
  unfold encodeChar at h ⊢
  dsimp only at h ⊢
  split at h
  · rename_i hc
    obtain rfl := List.mem_singleton.mp h
    rw [if_pos hc]
    exact ⟨rfl, toNat_byte (by omega)⟩
  · -- All bytes of a longer form are 0x80 or more.
    exfalso
    split at h
    · simp only [List.mem_cons, List.not_mem_nil, or_false] at h
      rcases h with h | h <;> · have := hbyte _ (by omega) h; omega
    · split at h
      · simp only [List.mem_cons, List.not_mem_nil, or_false] at h
        rcases h with h | h | h <;> · have := hbyte _ (by omega) h; omega
      · simp only [List.mem_cons, List.not_mem_nil, or_false] at h
        rcases h with h | h | h | h <;> · have := hbyte _ (by omega) h; omega

/-- The bytes of a character are not the byte of another character of ASCII. -/
theorem ne_of_mem_encodeChar {c k : Char} {b : UInt8} (h : b ∈ encodeChar c) (hk : IsAscii k)
    (hne : c ≠ k) : b ≠ UInt8.ofNat k.toNat := by
  rintro rfl
  have hbyte : (UInt8.ofNat k.toNat).toNat = k.toNat := toNat_byte (Nat.lt_trans hk (by decide))
  obtain ⟨-, hc⟩ := eq_of_mem_encodeChar h (by rw [hbyte]; exact hk)
  exact hne (Char.toNat_inj.mp (by omega))

/-- Line feeds are counted alike in characters and in bytes. -/
theorem count_encodeChars (cs : List Char) : (encodeChars cs).count 0x0A = cs.count '\n' := by
  induction cs with
  | nil => rfl
  | cons c cs ih =>
      rw [encodeChars_cons, List.count_append, ih, List.count_cons, Nat.add_comm]
      by_cases hc : c = '\n'
      · subst hc
        rfl
      · have hnone : (encodeChar c).count 0x0A = 0 :=
          List.count_eq_zero.mpr fun h => ne_of_mem_encodeChar h (k := '\n') (by decide) hc rfl
        simp [hnone, hc]

end Utf8

open Utf8

namespace Csv

/-! ## Reading fields and records -/

/-- The position behind some more bytes. -/
def Position.over (p : Position) (bs : Bytes) : Position := bs.foldl Position.advance p

/-- A draft with some more bytes in its last field. -/
def Draft.adding (d : Draft) (bs : Bytes) : Draft := ⟨d.fields, bs.reverse ++ d.field⟩

@[simp] theorem Position.over_nil (p : Position) : p.over [] = p := rfl

@[simp] theorem Position.over_cons (p : Position) (b : UInt8) (bs : Bytes) :
    p.over (b :: bs) = (p.advance b).over bs := rfl

theorem Position.over_append (p : Position) (as bs : Bytes) :
    p.over (as ++ bs) = (p.over as).over bs := List.foldl_append

theorem Position.byte_over (p : Position) (bs : Bytes) : (p.over bs).byte = p.byte + bs.length := by
  induction bs generalizing p with
  | nil => rfl
  | cons b bs ih =>
      rw [over_cons, ih, List.length_cons, Position.advance]
      dsimp only
      omega

theorem Position.line_over (p : Position) (bs : Bytes) :
    (p.over bs).line = p.line + bs.count 0x0A := by
  induction bs generalizing p with
  | nil => rfl
  | cons b bs ih =>
      rw [over_cons, ih, List.count_cons, Position.advance]
      by_cases hb : b = 0x0A
      · subst hb
        simp only [if_true, beq_self_eq_true]
        omega
      · simp [hb]

@[simp] theorem Draft.adding_nil (d : Draft) : d.adding [] = d := rfl

@[simp] theorem Draft.adding_cons (d : Draft) (b : UInt8) (bs : Bytes) :
    (d.add b).adding bs = d.adding (b :: bs) := by
  simp [adding, add]

theorem Draft.adding_append (d : Draft) (as bs : Bytes) :
    (d.adding as).adding bs = d.adding (as ++ bs) := by
  simp [adding]

section

variable (broken : Bool) (d : Draft) (p : Position) (rest : Bytes)

/-- Bytes that neither divide nor end a line are read on. -/
theorem scan_unquoted {bs : Bytes} (h : ∀ b ∈ bs, isLineEnd b = false ∧ b ≠ 0x2C) :
    scan broken .unquoted d p (bs ++ rest) = scan broken .unquoted (d.adding bs) (p.over bs) rest := by
  induction bs generalizing d p with
  | nil => rfl
  | cons b bs ih =>
      obtain ⟨hend, hcomma⟩ := h b List.mem_cons_self
      rw [List.cons_append, scan]
      simp only [hend, Bool.false_eq_true, if_false, hcomma]
      rw [ih _ _ fun c hc => h c (List.mem_cons_of_mem _ hc), Draft.adding_cons, Position.over_cons]

/-- Bytes that are no quotes are read on between quotes. -/
theorem scan_quoted {bs : Bytes} (h : ∀ b ∈ bs, b ≠ 0x22) :
    scan broken .quoted d p (bs ++ rest) = scan broken .quoted (d.adding bs) (p.over bs) rest := by
  induction bs generalizing d p with
  | nil => rfl
  | cons b bs ih =>
      rw [List.cons_append, scan]
      simp only [h b List.mem_cons_self, if_false]
      rw [ih _ _ fun c hc => h c (List.mem_cons_of_mem _ hc), Draft.adding_cons, Position.over_cons]

theorem scan_plain {cs : List Char} (h : Plain cs) :
    scan broken .unquoted d p (encodeChars cs ++ rest)
      = scan broken .unquoted (d.adding (encodeChars cs)) (p.over (encodeChars cs)) rest := by
  refine scan_unquoted broken d p rest fun b hb => ?_
  obtain ⟨c, hc, hb⟩ := List.mem_flatMap.mp hb
  obtain ⟨hcomma, hfeed, hreturn⟩ := h c hc
  have hfeed' : b ≠ 0x0A := ne_of_mem_encodeChar hb (k := '\n') (by decide) hfeed
  have hreturn' : b ≠ 0x0D := ne_of_mem_encodeChar hb (k := '\r') (by decide) hreturn
  exact ⟨by simp [isLineEnd, hfeed', hreturn'],
    ne_of_mem_encodeChar hb (k := ',') (by decide) hcomma⟩

/-- Between quotes, a doubled quote is one quote of the field. -/
theorem scan_doubled (cs : List Char) :
    scan broken .quoted d p (encodeChars (doubled cs) ++ rest)
      = scan broken .quoted (d.adding (encodeChars cs)) (p.over (encodeChars (doubled cs))) rest := by
  induction cs generalizing d p with
  | nil => rfl
  | cons c cs ih =>
      by_cases hc : c = '"'
      · subst hc
        have hquotes : encodeChars (doubled ('"' :: cs)) = 0x22 :: 0x22 :: encodeChars (doubled cs) :=
          rfl
        have hquote : encodeChars ('"' :: cs) = 0x22 :: encodeChars cs := rfl
        rw [hquotes, hquote, List.cons_append, List.cons_append, scan]
        simp only [if_true]
        rw [scan]
        simp only [if_true]
        rw [ih, Draft.adding_cons, Position.over_cons, Position.over_cons]
      · have hdoubled : doubled (c :: cs) = c :: doubled cs := by simp [doubled, hc]
        have hbytes : ∀ b ∈ encodeChar c, b ≠ 0x22 := fun b hb =>
          ne_of_mem_encodeChar hb (k := '"') (by decide) hc
        rw [hdoubled, encodeChars_cons, encodeChars_cons, List.append_assoc,
          scan_quoted broken d p _ hbytes, ih, Draft.adding_append, Position.over_append]

/-- At the start of a field, a byte that is no quote is read as outside quotes. -/
theorem scan_fieldStart {b : UInt8} (h : b ≠ 0x22) :
    scan broken .fieldStart d p (b :: rest) = scan broken .unquoted d p (b :: rest) := by
  rw [scan, scan]
  simp only [h, if_false]

/-- At the start of a record, a byte that neither is a quote nor ends a line is read as outside
quotes. -/
theorem scan_blank {b : UInt8} (hquote : b ≠ 0x22) (hend : isLineEnd b = false) :
    scan broken .blank d p (b :: rest) = scan broken .unquoted d p (b :: rest) := by
  rw [scan, scan]
  simp only [hquote, hend, Bool.false_eq_true, if_false]

theorem scan_comma {phase : Phase} (h : phase ≠ .quoted) :
    scan broken phase d p (0x2C :: rest) = scan broken .fieldStart d.endField (p.advance 0x2C) rest := by
  cases phase with
  | quoted => exact absurd rfl h
  | blank | fieldStart | unquoted | quoteMet => rw [scan]; rfl

/-- Outside quotes, a line end completes the record that has begun. -/
theorem scan_lineEnd {phase : Phase} {b : UInt8} (hquoted : phase ≠ .quoted) (hblank : phase ≠ .blank)
    (hend : isLineEnd b = true) :
    scan broken phase d p (b :: rest)
      = .record d.finish ⟨rest, broken, { p.advance b with record := (p.advance b).record + 1 }⟩ := by
  have hquote : b ≠ 0x22 := by
    rintro rfl
    cases hend
  cases phase with
  | quoted => exact absurd rfl hquoted
  | blank => exact absurd rfl hblank
  | fieldStart | unquoted => rw [scan]; simp only [hend, if_true]
  | quoteMet => rw [scan]; simp only [hend, hquote, if_true, if_false]

/-- Line ends in front of a record are read over. -/
theorem scan_gap {gap : List Char} (h : LineEnds gap) :
    scan broken .blank d p (encodeChars gap ++ rest)
      = scan broken .blank d (p.over (encodeChars gap)) rest := by
  induction gap generalizing p with
  | nil => rfl
  | cons c gap ih =>
      obtain ⟨b, hb, hend⟩ : ∃ b, encodeChar c = [b] ∧ isLineEnd b = true := by
        rcases h c List.mem_cons_self with rfl | rfl
        · exact ⟨0x0A, rfl, rfl⟩
        · exact ⟨0x0D, rfl, rfl⟩
      rw [encodeChars_cons, hb, List.singleton_append, List.cons_append, scan]
      simp only [hend, if_true]
      rw [ih _ fun x hx => h x (List.mem_cons_of_mem _ hx), Position.over_cons]

end

/-- Reading a field leaves it in the draft, outside quotes if it is closed. Reading has not begun only
if there was nothing to read. -/
theorem scan_field {closed : Bool} {text value : List Char} (h : FieldText closed text value)
    {start : Phase} (hstart : start = .blank ∨ start = .fieldStart) (d : Draft) :
    ∃ phase, (closed = true → phase ≠ .quoted) ∧ (phase = .blank → start = .blank ∧ text = [])
      ∧ ∀ broken p rest, scan broken start d p (encodeChars text ++ rest)
        = scan broken phase (d.adding (encodeChars value)) (p.over (encodeChars text)) rest := by
  -- A quote at the start leads between quotes.
  have hopen : ∀ broken p rest, scan broken start d p (0x22 :: rest)
      = scan broken .quoted d (p.advance 0x22) rest := by
    intro broken p rest
    rcases hstart with rfl | rfl
    · rw [scan]; rfl
    · rw [scan]; rfl
  cases h with
  | bare plain unquoted =>
      cases text with
      | nil =>
          refine ⟨start, ?_, fun h => ⟨h, rfl⟩, fun _ _ _ => rfl⟩
          rcases hstart with rfl | rfl <;> simp
      | cons c cs =>
          refine ⟨.unquoted, by simp, by simp, fun broken p rest => ?_⟩
          obtain ⟨b, tail, hb, -⟩ := front_encodeChar c []
          have hmem : b ∈ encodeChar c := hb ▸ List.mem_cons_self
          obtain ⟨-, hfeed, hreturn⟩ := plain c List.mem_cons_self
          have hquote : b ≠ 0x22 := ne_of_mem_encodeChar hmem (k := '"') (by decide) (by
            simpa using unquoted)
          have hfeed' : b ≠ 0x0A := ne_of_mem_encodeChar hmem (k := '\n') (by decide) hfeed
          have hreturn' : b ≠ 0x0D := ne_of_mem_encodeChar hmem (k := '\r') (by decide) hreturn
          have hend : isLineEnd b = false := by simp [isLineEnd, hfeed', hreturn']
          have hplain := scan_plain broken d p rest plain
          rw [encodeChars_cons, hb, List.cons_append, List.cons_append] at hplain ⊢
          rw [← hplain]
          rcases hstart with rfl | rfl
          · exact scan_blank broken d p _ hquote hend
          · exact scan_fieldStart broken d p _ hquote
  | @quoted inside tail plain closing =>
      have hbytes : encodeChars ('"' :: (doubled inside ++ '"' :: tail))
          = 0x22 :: (encodeChars (doubled inside) ++ 0x22 :: encodeChars tail) := by
        rw [encodeChars_cons, encodeChars_append]
        rfl
      have hread : ∀ broken p rest, scan broken start d p
            (encodeChars ('"' :: (doubled inside ++ '"' :: tail)) ++ rest)
          = scan broken .quoteMet (d.adding (encodeChars inside))
              (p.over (0x22 :: (encodeChars (doubled inside) ++ [0x22]))) (encodeChars tail ++ rest) := by
        intro broken p rest
        rw [hbytes, List.cons_append, hopen, List.append_assoc, scan_doubled, List.cons_append, scan]
        simp only [if_true, Position.over_cons, Position.over_append, Position.over_nil]
      have hover : ∀ p : Position,
          (p.over (0x22 :: (encodeChars (doubled inside) ++ [0x22]))).over (encodeChars tail)
            = p.over (encodeChars ('"' :: (doubled inside ++ '"' :: tail))) := by
        intro p
        rw [hbytes, ← Position.over_append]
        simp
      cases tail with
      | nil =>
          refine ⟨.quoteMet, by simp, by simp, fun broken p rest => ?_⟩
          rw [hread, ← hover, List.append_nil]
          rfl
      | cons c cs =>
          refine ⟨.unquoted, by simp, by simp, fun broken p rest => ?_⟩
          obtain ⟨b, more, hb, -⟩ := front_encodeChar c []
          have hmem : b ∈ encodeChar c := hb ▸ List.mem_cons_self
          have hquote : b ≠ 0x22 := ne_of_mem_encodeChar hmem (k := '"') (by decide) (by
            simpa using closing)
          -- Behind the closing quote, the next byte is read as outside quotes.
          have hclosed : ∀ d p rest, scan broken .quoteMet d p (b :: rest)
              = scan broken .unquoted d p (b :: rest) := by
            intro d p rest
            rw [scan, scan]
            simp only [hquote, if_false]
          have hplain := scan_plain broken (d.adding (encodeChars inside))
            (p.over (0x22 :: (encodeChars (doubled inside) ++ [0x22]))) rest plain
          rw [Draft.adding_append, ← encodeChars_append, hover] at hplain
          rw [hread, ← hplain, encodeChars_cons, hb, List.cons_append, List.cons_append, hclosed]
  | unclosed =>
      refine ⟨.quoted, by simp, by simp, fun broken p rest => ?_⟩
      have hbytes : ∀ cs, encodeChars ('"' :: cs) = 0x22 :: encodeChars cs := fun cs => rfl
      rw [hbytes, List.cons_append, hopen, scan_doubled, Position.over_cons]

theorem Draft.finish_adding {d : Draft} (fresh : d.field = []) (bs : Bytes) :
    (d.adding bs).finish = d.fields.reverse ++ [bs] := by
  simp [finish, endField, adding, fresh]

/-- Reading a record leaves its fields in the draft. -/
theorem scan_record {closed : Bool} {text : List Char} {fields : List (List Char)}
    (h : RecordText closed text fields) {start : Phase}
    (hstart : start = .blank ∨ start = .fieldStart) {d : Draft} (fresh : d.field = []) :
    ∃ phase d', (closed = true → phase ≠ .quoted) ∧ (phase = .blank → start = .blank ∧ text = [])
      ∧ d'.finish = d.fields.reverse ++ fields.map encodeChars
      ∧ ∀ broken p rest, scan broken start d p (encodeChars text ++ rest)
        = scan broken phase d' (p.over (encodeChars text)) rest := by
  induction h generalizing start d with
  | one field =>
      obtain ⟨phase, hclosed, hblank, hread⟩ := scan_field field hstart d
      exact ⟨phase, _, hclosed, hblank, Draft.finish_adding fresh _, hread⟩
  | @more text value rest values field _ ih =>
      obtain ⟨phase, hclosed, -, hread⟩ := scan_field field hstart d
      obtain ⟨phase', d', hclosed', hblank', hfinish, hread'⟩ :=
        ih (.inr rfl) (d := (d.adding (encodeChars value)).endField) rfl
      refine ⟨phase', d', hclosed', fun h => ?_, ?_, fun broken p bytes => ?_⟩
      · cases (hblank' h).1
      · rw [hfinish]
        simp [Draft.endField, Draft.adding, fresh]
      · have hcomma : encodeChars (text ++ ',' :: rest)
            = encodeChars text ++ 0x2C :: encodeChars rest := by
          rw [encodeChars_append]
          rfl
        rw [hcomma, List.append_assoc, hread, List.cons_append,
          scan_comma broken _ _ _ (hclosed rfl), hread', Position.over_append, Position.over_cons]

/-! ## The rows of a sheet -/

def Position.behind (p : Position) (r : Record) : Position :=
  let q := p.over (encodeChars r.whole)
  { q with record := q.record + 1 }

theorem Position.line_behind (p : Position) (r : Record) :
    (p.behind r).line = p.line + r.whole.count '\n' := by
  rw [← count_encodeChars, ← Position.line_over]
  rfl

theorem Position.byte_behind (p : Position) {r : Record} (nonempty : r.text ≠ []) :
    0 < (p.behind r).byte := by
  have hpos : 0 < (encodeChars r.whole).length := by
    refine List.length_pos_iff.mpr fun h => nonempty ?_
    have htext : encodeChars r.text = [] := by
      simp only [Record.whole, encodeChars_append, List.append_eq_nil_iff] at h
      exact h.2.1
    cases hr : r.text with
    | nil => rfl
    | cons c cs =>
        obtain ⟨b, tail, hb, -⟩ := front_encodeChar c []
        rw [hr, encodeChars_cons, hb] at htext
        cases htext
  have hbyte := p.byte_over (encodeChars r.whole)
  have hsame : (p.behind r).byte = (p.over (encodeChars r.whole)).byte := rfl
  omega

theorem Reader.next_of_begun {bytes : Bytes} {broken : Bool} {p : Position} (begun : 0 < p.byte) :
    (Reader.mk bytes broken p).next = scan broken .blank .empty p bytes := by
  have hnot : ¬ (Reader.mk bytes broken p).AtMark := fun h => Nat.ne_of_gt begun h.1
  rw [next, dropMark_of_not_atMark hnot]

/-- A record is read from its gap to its stop. -/
theorem scan_whole {r : Record} {closed : Bool} (blank : LineEnds r.gap) (nonempty : r.text ≠ [])
    (written : RecordText closed r.text r.fields) (p : Position) :
    ∃ phase d, phase ≠ .blank ∧ (closed = true → phase ≠ .quoted)
      ∧ d.finish = r.fields.map encodeChars
      ∧ ∀ rest, scan false .blank .empty p (encodeChars (r.gap ++ r.text) ++ rest)
        = scan false phase d (p.over (encodeChars (r.gap ++ r.text))) rest := by
  obtain ⟨phase, d, hclosed, hblank, hfinish, hread⟩ :=
    scan_record written (.inl (rfl : Phase.blank = .blank)) (rfl : Draft.empty.field = [])
  refine ⟨phase, d, fun h => nonempty (hblank h).2, hclosed, hfinish, fun rest => ?_⟩
  rw [encodeChars_append, List.append_assoc, scan_gap false _ _ _ blank, hread, Position.over_append]

/-- The next record of a sheet is read, and reading goes on behind it. -/
theorem scan_sheet {text : List Char} {records : List Record} (h : Sheet text records)
    (p : Position) :
    match records with
    | [] => scan false .blank .empty p (encodeChars text) = .finished
    | r :: records => ∃ rest, Sheet rest records
        ∧ scan false .blank .empty p (encodeChars text)
          = .record (r.fields.map encodeChars) ⟨encodeChars rest, false, p.behind r⟩
        ∧ 0 < (p.behind r).byte := by
  cases h with
  | finished blank =>
      have hread := scan_gap false .empty p [] blank
      rw [List.append_nil] at hread
      rw [hread, scan_nil]
      rfl
  | @last r closed blank nonempty written stop =>
      obtain ⟨phase, d, hblank, -, hfinish, hread⟩ := scan_whole blank nonempty written p
      have hwhole : r.gap ++ r.text = r.whole := by rw [Record.whole, stop, List.append_nil]
      have hall := hread []
      rw [hwhole, List.append_nil, scan_nil] at hall
      simp only [Bool.false_eq_true, if_false, hblank, hfinish] at hall
      exact ⟨[], .finished (by simp [LineEnds]), hall, p.byte_behind nonempty⟩
  | @next r rest records blank nonempty written stop later =>
      obtain ⟨phase, d, hblank, hclosed, hfinish, hread⟩ := scan_whole blank nonempty written p
      obtain ⟨b, hb, hend⟩ : ∃ b, encodeChars r.stop = [b] ∧ isLineEnd b = true := by
        rcases stop with stop | stop
        · exact ⟨0x0A, by rw [stop]; rfl, rfl⟩
        · exact ⟨0x0D, by rw [stop]; rfl, rfl⟩
      have hwhole : encodeChars r.whole = encodeChars (r.gap ++ r.text) ++ [b] := by
        rw [Record.whole, ← List.append_assoc, encodeChars_append, hb]
      have hposition : p.behind r = { (p.over (encodeChars (r.gap ++ r.text))).advance b with
          record := ((p.over (encodeChars (r.gap ++ r.text))).advance b).record + 1 } := by
        rw [Position.behind, hwhole, Position.over_append]
        rfl
      refine ⟨rest, later, ?_, p.byte_behind nonempty⟩
      rw [encodeChars_append, hwhole, List.append_assoc, hread, List.singleton_append,
        scan_lineEnd false d _ _ (hclosed rfl) hblank hend, hfinish, hposition]

/-- A row of a trace is a record of a text, told by a line. -/
def IsRow (record : Nat × Record) (row : Trace.Row) : Prop :=
  row.line = record.1 ∧ row.fields = record.2.fields.map encodeChars

/-- The rows of what is left of a sheet are its records. -/
theorem rowsFrom_sheet {text : List Char} {records : List Record} (h : Sheet text records)
    (before : Position) {p : Position} (begun : 0 < p.byte) :
    List.Forall₂ IsRow (numbered p.line records)
      (Trace.rowsFrom before ⟨encodeChars text, false, p⟩) := by
  induction records generalizing text before p with
  | nil =>
      have hnext : (Reader.mk (encodeChars text) false p).next = .finished := by
        rw [Reader.next_of_begun begun]
        exact scan_sheet h p
      rw [Trace.rowsFrom_end (.inl hnext)]
      exact .nil
  | cons r records ih =>
      obtain ⟨rest, hrest, hscan, hbyte⟩ := scan_sheet h p
      have hnext : (Reader.mk (encodeChars text) false p).next
          = .record (r.fields.map encodeChars) ⟨encodeChars rest, false, p.behind r⟩ := by
        rw [Reader.next_of_begun begun, hscan]
      rw [Trace.rowsFrom_record hnext, numbered]
      refine .cons ⟨rfl, rfl⟩ ?_
      rw [← p.line_behind]
      exact ih hrest (p.behind r) hbyte

/-- The first three bytes are the mark exactly if the first character is. -/
theorem start_dropMark (text : List Char) :
    ∃ p : Position, p.line = 1
      ∧ (Reader.start (encodeChars text) false).dropMark
        = ⟨encodeChars (withoutMark text), false, p⟩ := by
  by_cases hmark : text.head? = some '\uFEFF'
  · obtain ⟨cs, rfl⟩ := List.head?_eq_some_iff.mp hmark
    exact ⟨⟨3, 1, 0⟩, rfl, rfl⟩
  · refine ⟨⟨0, 1, 0⟩, rfl, ?_⟩
    have hsame : withoutMark text = text := by
      unfold withoutMark
      split
      · simp at hmark
      · rfl
    rw [hsame]
    refine Reader.dropMark_of_not_atMark ?_
    rintro ⟨-, rest, hahead⟩
    have hbytes : encodeChars text = 0xEF :: 0xBB :: 0xBF :: rest := hahead
    cases text with
    | nil => cases hbytes
    | cons c cs =>
        obtain ⟨first, tail, hc, hfront⟩ := front_encodeChar c (encodeChars cs)
        rw [encodeChars_cons, hc, List.cons_append] at hbytes
        obtain ⟨rfl, htail⟩ := List.cons.inj hbytes
        have hread : front 0xEF (0xBB :: 0xBF :: rest) = ⟨some '\uFEFF', 2⟩ := rfl
        rw [htail, hread] at hfront
        obtain rfl : '\uFEFF' = c := by simpa using congrArg Piece.char? hfront
        exact hmark rfl

/-- **The rows of a text.** The rows of the UTF-8 form of a text are the records of its sheet but for
the first, which is the header. -/
theorem rowsOf_sheet {text : List Char} {records : List Record}
    (h : Sheet (withoutMark text) records) :
    List.Forall₂ IsRow (numbered 1 records).tail (Trace.rowsOf (encodeChars text) false) := by
  obtain ⟨p, hline, hstart⟩ := start_dropMark text
  have hnext : (Reader.start (encodeChars text) false).next
      = scan false .blank .empty p (encodeChars (withoutMark text)) := by
    rw [Reader.next, hstart]
  have hscan := scan_sheet h p
  unfold Trace.rowsOf
  cases records with
  | nil =>
      rw [hnext, hscan]
      exact .nil
  | cons r records =>
      obtain ⟨rest, hrest, hread, hbyte⟩ := hscan
      rw [hnext, hread]
      have := rowsFrom_sheet hrest (Reader.start (encodeChars text) false).position hbyte
      rw [p.line_behind, hline] at this
      exact this

theorem exists_isRow {records : List (Nat × Record)} {rows : List Trace.Row}
    (h : List.Forall₂ IsRow records rows) {row : Trace.Row} (hrow : row ∈ rows) :
    ∃ record ∈ records, IsRow record row := by
  induction h with
  | nil => simp at hrow
  | cons hfirst _ ih =>
      rcases List.mem_cons.mp hrow with rfl | hlater
      · exact ⟨_, List.mem_cons_self, hfirst⟩
      · obtain ⟨record, hmem, his⟩ := ih hlater
        exact ⟨record, List.mem_cons_of_mem _ hmem, his⟩

end Csv

end PowerBench
