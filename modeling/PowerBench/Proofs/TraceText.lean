import PowerBench.ClientError
import PowerBench.Proofs.Binary64Quotient
import PowerBench.Proofs.DecimalText
import PowerBench.Proofs.SheetRows
import PowerBench.Proofs.TimestampText

set_option autoImplicit false

/-! # Converting a text

A trace that is a text is converted record by record of its sheet. A record whose first two fields
denote finite numbers becomes one line of two numerals with 7 and 12 places (`isFixed_fixed`); the first
record that is unfit stops the conversion, and only the lines of those before it are written
(`converted_text`). It is told with the line on which the record before it ends, which is the line on
which it begins only if no line feed stands between them (`row_line_told`).
-/

namespace PowerBench

namespace Utf8

def isNarrowBlank (c : Char) : Bool := (encodeChar c).all isAsciiBlank

/-- A blank of ASCII is one byte, which is blank. -/
theorem encodeChar_of_narrowBlank {c : Char} (h : isNarrowBlank c = true) :
    ∃ b, encodeChar c = [b] ∧ isAsciiBlank b = true ∧ b.toNat = c.toNat := by
  obtain ⟨b, tail, hb, -⟩ := front_encodeChar c []
  have hmem : b ∈ encodeChar c := hb ▸ List.mem_cons_self
  have hblank : isAsciiBlank b = true := List.all_eq_true.mp h b hmem
  have hsmall : b.toNat < 0x80 := by
    simp only [isAsciiBlank, Bool.or_eq_true, beq_iff_eq] at hblank
    rcases hblank with (((rfl | rfl) | rfl) | rfl) | rfl <;> decide
  obtain ⟨hone, hcode⟩ := eq_of_mem_encodeChar hmem hsmall
  exact ⟨b, hone, hblank, hcode⟩

/-- No byte of another character is blank. -/
theorem not_asciiBlank_of_mem {c : Char} (h : isNarrowBlank c = false) {b : UInt8}
    (hb : b ∈ encodeChar c) : isAsciiBlank b = false := by
  by_contra hblank
  rw [Bool.not_eq_false] at hblank
  have hsmall : b.toNat < 0x80 := by
    simp only [isAsciiBlank, Bool.or_eq_true, beq_iff_eq] at hblank
    rcases hblank with (((rfl | rfl) | rfl) | rfl) | rfl <;> decide
  rw [isNarrowBlank, (eq_of_mem_encodeChar hb hsmall).1] at h
  simp [hblank] at h

theorem isBlank_of_narrowBlank {c : Char} (h : isNarrowBlank c = true) : isBlank c = true := by
  obtain ⟨b, -, hblank, hcode⟩ := encodeChar_of_narrowBlank h
  simp only [isAsciiBlank, Bool.or_eq_true, beq_iff_eq] at hblank
  rcases hblank with (((rfl | rfl) | rfl) | rfl) | rfl <;> simp [isBlank, ← hcode]

theorem dropWhile_encodeChars (cs : List Char) :
    (encodeChars cs).dropWhile isAsciiBlank = encodeChars (cs.dropWhile isNarrowBlank) := by
  induction cs with
  | nil => rfl
  | cons c cs ih =>
      cases hc : isNarrowBlank c with
      | true =>
          obtain ⟨b, hb, hblank, -⟩ := encodeChar_of_narrowBlank hc
          rw [encodeChars_cons, hb, List.singleton_append, List.dropWhile_cons_of_pos hblank, ih,
            List.dropWhile_cons_of_pos hc]
      | false =>
          obtain ⟨b, tail, hb, -⟩ := front_encodeChar c []
          have hnot := not_asciiBlank_of_mem hc (hb ▸ List.mem_cons_self : b ∈ encodeChar c)
          rw [List.dropWhile_cons_of_neg (by simp [hc]), encodeChars_cons, hb, List.cons_append,
            List.dropWhile_cons_of_neg (by simp [hnot])]

theorem rdropWhile_encodeChars (cs : List Char) :
    (encodeChars cs).rdropWhile isAsciiBlank = encodeChars (cs.rdropWhile isNarrowBlank) := by
  induction cs using List.reverseRecOn with
  | nil => rfl
  | append_singleton cs c ih =>
      have hone : encodeChars [c] = encodeChar c := List.append_nil _
      cases hc : isNarrowBlank c with
      | true =>
          obtain ⟨b, hb, hblank, -⟩ := encodeChar_of_narrowBlank hc
          rw [encodeChars_append, hone, hb, List.rdropWhile_concat_pos _ _ _ hblank, ih,
            List.rdropWhile_concat_pos _ _ _ hc]
      | false =>
          have hne : encodeChar c ≠ [] := by
            obtain ⟨b, tail, hb, -⟩ := front_encodeChar c []
            simp [hb]
          have hnot := not_asciiBlank_of_mem hc (List.getLast_mem hne)
          rw [List.rdropWhile_concat_neg _ _ _ (by simp [hc]), encodeChars_append, hone,
            ← List.dropLast_append_getLast hne, ← List.append_assoc,
            List.rdropWhile_concat_neg _ _ _ (by simp [hnot])]

/-- Trimming a text in its bytes. -/
theorem trimEnds_encodeChars (cs : List Char) :
    trimEnds isAsciiBlank (encodeChars cs) = encodeChars (trimEnds isNarrowBlank cs) := by
  rw [trimEnds_eq, trimEnds_eq, dropWhile_encodeChars, rdropWhile_encodeChars]

end Utf8

namespace Trace

/-! ## Numerals with a fixed number of places -/

/-- The text is a numeral with a stated number of places behind the point, and without the point its
digits are `n`. -/
def IsFixed (places : Nat) (negative : Bool) (n : Nat) (text : List Char) : Prop :=
  ∃ whole fraction, text = (if negative then ['-'] else []) ++ (whole ++ '.' :: fraction)
    ∧ whole ≠ [] ∧ (∀ c ∈ whole ++ fraction, c.isDigit = true) ∧ fraction.length = places
    ∧ digitsValue (whole ++ fraction) = n

theorem digitsValue_padDigits (width n : Nat) : digitsValue (padDigits width n) = n := by
  rw [padDigits, digitsValue_zeros_append, digitsValue_toDigits]

/-- Digits with zeros in front fill the places that they fit in. -/
theorem length_padDigits {width n : Nat} (fits : n < 10 ^ width) (pos : 0 < width) :
    (padDigits width n).length = width := by
  have hlength : (Nat.toDigits 10 n).length ≤ width :=
    (Nat.length_toDigits_le_iff (by decide) pos).mpr fits
  rw [padDigits, List.length_append, List.length_replicate]
  omega

/-- A value with a stated number of places is such a numeral. -/
theorem isFixed_fixed {places : Nat} (pos : 0 < places) (x : Binary64) :
    IsFixed places x.isNegative (x.scaled places) (x.fixed places) := by
  have hmod : x.scaled places % 10 ^ places < 10 ^ places :=
    Nat.mod_lt _ (Nat.pow_pos (by decide))
  have hlength := length_padDigits hmod pos
  refine ⟨Nat.toDigits 10 (x.scaled places / 10 ^ places),
    padDigits places (x.scaled places % 10 ^ places), ?_, Nat.toDigits_ne_nil, ?_, hlength, ?_⟩
  · rw [Binary64.fixed, List.append_assoc]
    rfl
  · intro c hc
    rcases List.mem_append.mp hc with hc | hc
    · exact isDigit_of_mem_decimal hc
    · rcases List.mem_append.mp hc with hc | hc
      · rw [List.eq_of_mem_replicate hc]
        rfl
      · exact isDigit_of_mem_decimal hc
  · rw [digitsValue_append, digitsValue_toDigits, digitsValue_padDigits, hlength, Nat.mul_comm,
      Nat.div_add_mod]

/-! ## Rows that are texts -/

/-- The two numbers of a row. -/
structure Sample where
  nanos : Binary64
  milliamps : Binary64

def Sample.line (s : Sample) : List Char := lineOf s.nanos s.milliamps

/-- The first value on the line. -/
def Sample.seconds (s : Sample) : Binary64 := s.nanos.divNat 1000000000

/-- The second value on the line. -/
def Sample.amps (s : Sample) : Binary64 := s.milliamps.divNat 1000

/-- The first two fields of a row, without the blanks around them, denote finite numbers. -/
def Reads (fields : List (List Char)) (s : Sample) : Prop :=
  ∃ a b more, fields = a :: b :: more ∧ Binary64.readFinite? (trimBlanks a) = some s.nanos
    ∧ Binary64.readFinite? (trimBlanks b) = some s.milliamps

/-- Why a row has no two numbers: there are less than two fields, or else the first denotes no finite
number, or else the second. -/
inductive Unfit : List (List Char) → RowFault → Prop where
  | tooShort {fields : List (List Char)} (short : fields.length < 2) :
      Unfit fields (.tooShort fields.length)
  | first {a b : List Char} {more : List (List Char)}
      (bad : Binary64.readFinite? (trimBlanks a) = none) :
      Unfit (a :: b :: more) (.notNumber 0 (String.ofList (trimBlanks a)))
  | second {a b : List Char} {more : List (List Char)} {x : Binary64}
      (good : Binary64.readFinite? (trimBlanks a) = some x)
      (bad : Binary64.readFinite? (trimBlanks b) = none) :
      Unfit (a :: b :: more) (.notNumber 1 (String.ofList (trimBlanks b)))

theorem reads_or_unfit (fields : List (List Char)) :
    (∃ s, Reads fields s) ∨ ∃ cause, Unfit fields cause := by
  match fields with
  | [] => exact .inr ⟨_, .tooShort (by simp)⟩
  | [a] => exact .inr ⟨_, .tooShort (by simp)⟩
  | a :: b :: more =>
      cases ha : Binary64.readFinite? (trimBlanks a) with
      | none => exact .inr ⟨_, .first ha⟩
      | some x =>
          cases hb : Binary64.readFinite? (trimBlanks b) with
          | none => exact .inr ⟨_, .second ha hb⟩
          | some y => exact .inl ⟨⟨x, y⟩, a, b, more, rfl, ha, hb⟩

theorem Unfit.not_reads {fields : List (List Char)} {cause : RowFault} (h : Unfit fields cause) :
    ¬ ∃ s, Reads fields s := by
  rintro ⟨s, a, b, more, rfl, ha, hb⟩
  cases h with
  | tooShort short =>
      simp only [List.length_cons] at short
      omega
  | first bad => cases ha.symm.trans bad
  | second _ bad => cases hb.symm.trans bad

theorem isFinite_of_readFinite? {cs : List Char} {x : Binary64}
    (h : Binary64.readFinite? cs = some x) : x.isFinite = true :=
  (Option.filter_eq_some_iff.mp h).2

theorem Reads.finite {fields : List (List Char)} {s : Sample} (h : Reads fields s) :
    s.nanos.isFinite = true ∧ s.milliamps.isFinite = true := by
  obtain ⟨a, b, more, -, ha, hb⟩ := h
  exact ⟨isFinite_of_readFinite? ha, isFinite_of_readFinite? hb⟩

theorem Reads.unique {fields : List (List Char)} {s t : Sample} (hs : Reads fields s)
    (ht : Reads fields t) : s = t := by
  obtain ⟨a, b, more, rfl, ha, hb⟩ := hs
  obtain ⟨a', b', more', heq, ha', hb'⟩ := ht
  simp only [List.cons.injEq] at heq
  obtain ⟨rfl, rfl, rfl⟩ := heq
  cases s
  cases t
  simp_all

theorem reads_of_samples {rows : List (List (List Char))} {samples : List Sample}
    (h : List.Forall₂ Reads rows samples) : ∀ row ∈ rows, ∃ s, Reads row s :=
  ((List.forall₂_and_left _ _).mp (h.imp fun _ s hs => ⟨⟨s, hs⟩, hs⟩)).1

/-- The fields of a record that is a text are texts, and trimming them in their bytes is trimming
them. -/
theorem firstNotText_encoded (fields : List (List Char)) :
    firstNotText (trimFields (fields.map Utf8.encodeChars)) = none := by
  unfold firstNotText
  rw [Option.map_eq_none_iff, List.find?_eq_none]
  rintro ⟨field, i⟩ hmem
  obtain ⟨hi, hfield⟩ := List.mem_zipIdx' hmem
  simp only [trimFields, List.getElem_map, Utf8.trimEnds_encodeChars] at hfield
  simp [hfield, Utf8.decodeChars?_encodeChars]

theorem trimBlanks_lossyChars (cs : List Char) :
    trimBlanks (Utf8.lossyChars (trimEnds isAsciiBlank (Utf8.encodeChars cs))) = trimBlanks cs := by
  rw [Utf8.trimEnds_encodeChars, Utf8.lossyChars_encodeChars, trimBlanks,
    trimEnds_of_imp (fun _ => Utf8.isBlank_of_narrowBlank), trimBlanks]

theorem column_of_number (line index : Nat) {cs : List Char} {x : Binary64}
    (h : Binary64.readFinite? (trimBlanks cs) = some x) :
    column line index (trimBlanks (Utf8.lossyChars (trimEnds isAsciiBlank (Utf8.encodeChars cs))))
      = .ok x := by
  rw [trimBlanks_lossyChars, column, h]

theorem column_of_other (line index : Nat) {cs : List Char}
    (h : Binary64.readFinite? (trimBlanks cs) = none) :
    column line index (trimBlanks (Utf8.lossyChars (trimEnds isAsciiBlank (Utf8.encodeChars cs))))
      = .error (.row line (.notNumber index (String.ofList (trimBlanks cs)))) := by
  rw [trimBlanks_lossyChars, column, h]

/-- A row that is a text is converted by what its fields say. -/
theorem Row.convert_of_isRow {line : Nat} {r : Csv.Record} {row : Row}
    (h : Csv.IsRow (line, r) row) :
    (∀ s, Reads r.fields s → row.convert = .ok s.line)
      ∧ ∀ cause, Unfit r.fields cause → row.convert = .error (.row line cause) := by
  obtain ⟨hline, hfields⟩ := h
  dsimp only at hline hfields
  subst hline
  have htext := firstNotText_encoded r.fields
  unfold Row.convert convertRow
  rw [hfields]
  dsimp only
  rw [htext]
  dsimp only
  constructor
  · rintro s ⟨a, b, more, hr, ha, hb⟩
    rw [hr]
    simp only [trimFields, List.map_cons, column_of_number _ _ ha, column_of_number _ _ hb]
    rfl
  · rintro cause hbad
    generalize r.fields = fields at hbad
    cases hbad with
    | tooShort short =>
        obtain rfl | ⟨a, rfl⟩ : fields = [] ∨ ∃ a, fields = [a] := by
          rw [← List.length_eq_zero_iff, ← List.length_eq_one_iff]
          omega
        · rfl
        · rfl
    | first bad => simp only [trimFields, List.map_cons, column_of_other _ _ bad]; rfl
    | second good bad =>
        simp only [trimFields, List.map_cons, column_of_number _ _ good, column_of_other _ _ bad]
        rfl

/-! ## Walking over the records of a text -/

/-- A record of a sheet is read as two numbers. -/
def RecordReads (record : Nat × Csv.Record) (s : Sample) : Prop := Reads record.2.fields s

/-- Either every record has its two numbers, and their lines are written, or the first that has not
ends the walk. -/
theorem walk_of_isRow {records : List (Nat × Csv.Record)} {rows : List Row}
    (h : List.Forall₂ Csv.IsRow records rows) :
    (∃ samples, List.Forall₂ RecordReads records samples
        ∧ linesOf rows = samples.map Sample.line ∧ firstFault? rows = none)
      ∨ ∃ good line bad rest samples cause, records = good ++ (line, bad) :: rest
          ∧ List.Forall₂ RecordReads good samples ∧ Unfit bad.fields cause
          ∧ linesOf rows = samples.map Sample.line
          ∧ firstFault? rows = some (.row line cause) := by
  induction h with
  | nil => exact .inl ⟨[], .nil, rfl, rfl⟩
  | @cons record row records rows hrow _ ih =>
      obtain ⟨line, r⟩ := record
      obtain ⟨hreads, hunfit⟩ := Row.convert_of_isRow hrow
      rcases reads_or_unfit r.fields with ⟨s, hs⟩ | ⟨cause, hcause⟩
      · have hline := hreads s hs
        rcases ih with ⟨samples, hall, hlines, hnone⟩
          | ⟨good, badLine, bad, rest, samples, cause, rfl, hgood, hbad, hlines, hfault⟩
        · refine .inl ⟨s :: samples, .cons hs hall, ?_, ?_⟩
          · rw [linesOf, hline, List.map_cons, ← hlines]
          · rw [firstFault?, hline, hnone]
        · refine .inr ⟨(line, r) :: good, badLine, bad, rest, s :: samples, cause, rfl,
            .cons hs hgood, hbad, ?_, ?_⟩
          · rw [linesOf, hline, List.map_cons, ← hlines]
          · rw [firstFault?, hline, hfault]
      · have hline := hunfit cause hcause
        refine .inr ⟨[], line, r, records, [], cause, rfl, .nil, hcause, ?_, ?_⟩
        · rw [linesOf, hline, List.map_nil]
        · rw [firstFault?, hline]

/-- How the conversion of a text ends, by the records of its sheet. -/
theorem convert_sheet {text : List Char} {records : List Csv.Record}
    (sheet : Csv.Sheet (Csv.withoutMark text) records) :
    (∃ samples, List.Forall₂ RecordReads (Csv.numbered 1 records).tail samples
        ∧ (convert (Utf8.encodeChars text) false {}).1 = .ok samples.length
        ∧ (convert (Utf8.encodeChars text) false {}).2.written
          = (samples.map Sample.line).flatten)
      ∨ ∃ good line bad rest samples cause,
          (Csv.numbered 1 records).tail = good ++ (line, bad) :: rest
          ∧ List.Forall₂ RecordReads good samples ∧ Unfit bad.fields cause
          ∧ (convert (Utf8.encodeChars text) false {}).1 = .error (.row line cause)
          ∧ (convert (Utf8.encodeChars text) false {}).2.written
            = (samples.map Sample.line).flatten := by
  have hrows := Csv.rowsOf_sheet sheet
  obtain ⟨hresult, hwritten⟩ := convert_roomy (Utf8.encodeChars text) false false
  rcases walk_of_isRow hrows with ⟨samples, hall, hlines, hnone⟩
    | ⟨good, line, bad, rest, samples, cause, hsplit, hgood, hbad, hlines, hfault⟩
  · have hcount : (rowsOf (Utf8.encodeChars text) false).length = samples.length :=
      hrows.length_eq.symm.trans hall.length_eq
    refine .inl ⟨samples, hall, ?_, ?_⟩
    · refine Eq.trans hresult ?_
      simp [ending, hnone, hcount]
    · rw [← hlines]
      exact hwritten
  · refine .inr ⟨good, line, bad, rest, samples, cause, hsplit, hgood, hbad, ?_, ?_⟩
    · refine Eq.trans hresult ?_
      simp [ending, hfault]
    · rw [← hlines]
      exact hwritten

/-- The rows of a text: what the fields of its records say, but for the first record, which is the
header. -/
def rowsIn (records : List Csv.Record) : List (List (List Char)) := records.tail.map Csv.Record.fields

theorem rowsIn_eq (line : Nat) (records : List Csv.Record) :
    rowsIn records = (Csv.numbered line records).tail.map fun record => record.2.fields := by
  cases records with
  | nil => rfl
  | cons r records =>
      show records.map Csv.Record.fields = (Csv.numbered _ records).map _
      conv_lhs => rw [← Csv.map_numbered (line + r.whole.count '\n') records, List.map_map]
      rfl

/-- The samples of numbered records are those of their rows. -/
theorem forall₂_rowsIn {line : Nat} {records : List Csv.Record} {samples : List Sample} :
    List.Forall₂ Reads (rowsIn records) samples
      ↔ List.Forall₂ RecordReads (Csv.numbered line records).tail samples := by
  rw [rowsIn_eq line, List.forall₂_map_left_iff]
  rfl

/-- **Converting a text.** A text is a sheet of records. If every row has two numbers in front, the
conversion gives how many rows there are, and what is written is the line of each; if not, it gives the
fault of the first row that has not, and what is written is the lines of those before it. Each line is
two finite values with 7 and 12 places. -/
theorem converted_text (text : String) :
    (∃ records, Csv.Sheet (Csv.withoutMark text.toList) records)
      ∧ (∀ records, Csv.Sheet (Csv.withoutMark text.toList) records →
        ((∀ row ∈ rowsIn records, ∃ s, Reads row s) → ∃ samples,
            List.Forall₂ Reads (rowsIn records) samples
            ∧ (convert (Utf8.encode text) false {}).1 = .ok (rowsIn records).length
            ∧ (convert (Utf8.encode text) false {}).2.written
              = (samples.map Sample.line).flatten)
        ∧ ((¬ ∀ row ∈ rowsIn records, ∃ s, Reads row s) → ∃ good bad rest samples line cause,
            rowsIn records = good ++ bad :: rest ∧ List.Forall₂ Reads good samples
            ∧ Unfit bad cause
            ∧ (convert (Utf8.encode text) false {}).1.mapError ClientError.ofTrace
              = .error (.badTrace line cause)
            ∧ (convert (Utf8.encode text) false {}).2.written
              = (samples.map Sample.line).flatten))
      ∧ ∀ row s, Reads row s → s.seconds.isFinite = true ∧ s.amps.isFinite = true
        ∧ s.line = s.seconds.fixed 7 ++ ' ' :: s.amps.fixed 12 ++ ['\n']
        ∧ IsFixed 7 s.seconds.isNegative (s.seconds.scaled 7) (s.seconds.fixed 7)
        ∧ IsFixed 12 s.amps.isNegative (s.amps.scaled 12) (s.amps.fixed 12) := by
  refine ⟨Csv.exists_sheet _, fun records sheet => ?_, fun row s reads => ?_⟩
  · rcases convert_sheet sheet with ⟨samples, hall, hresult, hwritten⟩
      | ⟨good, line, bad, rest, samples, cause, hsplit, hgood, hbad, hresult, hwritten⟩
    · have hrows := forall₂_rowsIn.mpr hall
      refine ⟨fun _ => ⟨samples, hrows, ?_, hwritten⟩, fun hnot => (hnot ?_).elim⟩
      · rw [hrows.length_eq]
        exact hresult
      · exact reads_of_samples hrows
    · have hrows : rowsIn records
          = good.map (fun record => record.2.fields) ++ bad.fields
            :: rest.map (fun record => record.2.fields) := by
        rw [rowsIn_eq 1, hsplit, List.map_append, List.map_cons]
      constructor
      · intro hall
        exact (hbad.not_reads (hall _ (by simp [hrows]))).elim
      · intro _
        refine ⟨_, _, _, samples, line, cause, hrows, List.forall₂_map_left_iff.mpr hgood, hbad, ?_,
          hwritten⟩
        exact congrArg (Except.mapError ClientError.ofTrace) hresult
  · obtain ⟨hnanos, hmilliamps⟩ := reads.finite
    exact ⟨Binary64.isFinite_divNat hnanos (by decide), Binary64.isFinite_divNat hmilliamps (by decide),
      rfl, isFixed_fixed (by decide) _, isFixed_fixed (by decide) _⟩

/-- **The line that a bad row is told with.** It is the line on which the record before the row ends.
The row begins later by as many lines as there are line feeds in between: the second half of a line end
of two characters, and blank lines. -/
theorem row_line_told {text : String} {records : List Csv.Record}
    (sheet : Csv.Sheet (Csv.withoutMark text.toList) records) {line : Nat} {cause : RowFault}
    (stopped : (convert (Utf8.encode text) false {}).1 = .error (.row line cause)) :
    ∃ header good bad rest before behind, records = header :: (good ++ bad :: rest)
      ∧ (∀ r ∈ good, ∃ s, Reads r.fields s) ∧ Unfit bad.fields cause
      ∧ before = (header :: good).flatMap Csv.Record.whole
      ∧ Csv.withoutMark text.toList = before ++ (bad.gap ++ (bad.text ++ behind))
      ∧ line = Csv.lineAfter before
      ∧ Csv.lineAfter (before ++ bad.gap) = line + bad.gap.count '\n'
      ∧ (line = Csv.lineAfter (before ++ bad.gap) ↔ '\n' ∉ bad.gap) := by
  rcases convert_sheet sheet with ⟨samples, -, hresult, -⟩
    | ⟨good, told, bad, rest, samples, cause', hsplit, hgood, hbad, hresult, -⟩
  · cases stopped.symm.trans hresult
  · have hsame : Fault.row told cause' = Fault.row line cause :=
      Except.error.inj (hresult.symm.trans stopped)
    obtain ⟨rfl, rfl⟩ := Fault.row.inj hsame
    match records with
    | [] => exact absurd hsplit (by simp [Csv.numbered])
    | header :: records =>
        have hnumbered : Csv.numbered 1 (header :: records)
            = ((1, header) :: good) ++ (told, bad) :: rest := congrArg ((1, header) :: ·) hsplit
        obtain ⟨hrecords, hline⟩ := Csv.numbered_split hnumbered
        obtain ⟨tail, -, htext⟩ := sheet.text_eq
        have hgap : Csv.lineAfter (((1, header) :: good).map Prod.snd |>.flatMap Csv.Record.whole)
            = told := by rw [Csv.lineAfter, hline, Nat.add_comm]
        have hbegin := Csv.lineAfter_append
          (((1, header) :: good).map Prod.snd |>.flatMap Csv.Record.whole) bad.gap
        rw [hgap] at hbegin
        refine ⟨header, good.map Prod.snd, bad, rest.map Prod.snd, _,
          bad.stop ++ ((rest.map Prod.snd).flatMap Csv.Record.whole ++ tail), hrecords, ?_, hbad, rfl,
          ?_, hgap.symm, hbegin, ?_⟩
        · intro r hr
          obtain ⟨record, hmem, rfl⟩ := List.mem_map.mp hr
          exact reads_of_samples (List.forall₂_map_left_iff.mpr hgood) _
            (List.mem_map_of_mem hmem)
        · rw [htext, hrecords]
          simp [Csv.Record.whole]
        · rw [List.map_cons] at hbegin
          rw [hbegin, ← List.count_eq_zero]
          omega

/-- A blank line stands between the header and a short row. -/
theorem row_line_told_blank :
    ∃ records, Csv.Sheet (Csv.withoutMark "t,c\n\n1\n".toList) records
      ∧ (convert (Utf8.encode "t,c\n\n1\n") false {}).1 = .error (.row 2 (.tooShort 1))
      ∧ ∃ header good bad rest before behind, records = header :: (good ++ bad :: rest)
        ∧ (∀ r ∈ good, ∃ s, Reads r.fields s) ∧ Unfit bad.fields (.tooShort 1)
        ∧ before = (header :: good).flatMap Csv.Record.whole
        ∧ Csv.withoutMark "t,c\n\n1\n".toList = before ++ (bad.gap ++ (bad.text ++ behind))
        ∧ 2 = Csv.lineAfter before
        ∧ Csv.lineAfter (before ++ bad.gap) = 2 + bad.gap.count '\n'
        ∧ (2 = Csv.lineAfter (before ++ bad.gap) ↔ '\n' ∉ bad.gap) := by
  obtain ⟨records, sheet⟩ := Csv.exists_sheet (Csv.withoutMark "t,c\n\n1\n".toList)
  have stopped : (convert (Utf8.encode "t,c\n\n1\n") false {}).1 = .error (.row 2 (.tooShort 1)) := by
    decide +kernel
  exact ⟨records, sheet, stopped, row_line_told sheet stopped⟩

/-- Between lines that end with two characters, a short row on the second line is told with the
first. -/
theorem row_line_behind :
    Csv.Sheet (Csv.withoutMark "t,c\r\n1\r\n".toList)
        [⟨[], ['t', ',', 'c'], [['t'], ['c']], ['\r']⟩, ⟨['\n'], ['1'], [['1']], ['\r']⟩]
      ∧ Unfit [['1']] (.tooShort 1)
      ∧ (convert (Utf8.encode "t,c\r\n1\r\n") false {}).1 = .error (.row 1 (.tooShort 1))
      ∧ Csv.lineAfter ("t,c\r".toList ++ ['\n']) = 2 := by
  refine ⟨?_, .tooShort (by decide), by decide +kernel, by decide⟩
  have bare : ∀ c, c ∈ ['t', 'c', '1'] → Csv.FieldText true [c] [c] := by
    intro c hc
    have hc : c = 't' ∨ c = 'c' ∨ c = '1' := by simpa using hc
    rcases hc with rfl | rfl | rfl <;> exact .bare (by simp [Csv.Plain]) (by simp)
  have written : Csv.RecordText true ['t', ',', 'c'] [['t'], ['c']] :=
    .more (bare _ (by simp)) (.one (bare _ (by simp)))
  have short : Csv.RecordText true ['1'] [['1']] := .one (bare _ (by simp))
  have rest : Csv.Sheet ['\n'] [] := .finished (by simp [Csv.LineEnds])
  have row := Csv.Sheet.next (r := ⟨['\n'], ['1'], [['1']], ['\r']⟩) (by simp [Csv.LineEnds])
    (by simp) short (.inr rfl) rest
  exact .next (r := ⟨[], ['t', ',', 'c'], [['t'], ['c']], ['\r']⟩) (by simp [Csv.LineEnds]) (by simp)
    written (.inr rfl) row

end Trace

end PowerBench
