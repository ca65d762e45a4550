import Mathlib.Data.List.Forall2
import PowerBench.Trace.Convert

set_option autoImplicit false

/-! # The rows of a trace

A byte stream holds a list of rows (`rowsOf`), and converting it is a walk over that list
(`convert_eq`): the reader takes at least one byte for each record, so the bytes that are left
bound the steps that are left. What a walk leaves on a sink that always has room is the lines of
the rows up to the first bad one (`writeRows_ample`).
-/

namespace PowerBench

/-! ## Reading a record -/

namespace Csv

/-- One byte completes the record or is read over, whatever comes after it. -/
theorem scan_cons (phase : Phase) (d : Draft) (p : Position) (b : UInt8) :
    (∀ broken rest, scan broken phase d p (b :: rest) = .record d.finish
        ⟨rest, broken, { p.advance b with record := (p.advance b).record + 1 }⟩)
      ∨ ∃ phase' d', ∀ broken rest, scan broken phase d p (b :: rest)
          = scan broken phase' d' (p.advance b) rest := by
  cases phase with
  | blank =>
      right
      by_cases hend : isLineEnd b
      · exact ⟨.blank, d, fun _ _ => by simp [scan, hend]⟩
      · by_cases hquote : b = 0x22
        · exact ⟨.quoted, d, fun _ _ => by rw [scan, if_neg hend, if_pos hquote]⟩
        · by_cases hcomma : b = 0x2C
          · exact ⟨.fieldStart, d.endField, fun _ _ => by
              rw [scan, if_neg hend, if_neg hquote, if_pos hcomma]⟩
          · exact ⟨.unquoted, d.add b, fun _ _ => by
              rw [scan, if_neg hend, if_neg hquote, if_neg hcomma]⟩
  | fieldStart =>
      by_cases hend : isLineEnd b
      · exact .inl fun _ _ => by rw [scan, if_pos hend]
      · right
        by_cases hquote : b = 0x22
        · exact ⟨.quoted, d, fun _ _ => by rw [scan, if_neg hend, if_pos hquote]⟩
        · by_cases hcomma : b = 0x2C
          · exact ⟨.fieldStart, d.endField, fun _ _ => by
              rw [scan, if_neg hend, if_neg hquote, if_pos hcomma]⟩
          · exact ⟨.unquoted, d.add b, fun _ _ => by
              rw [scan, if_neg hend, if_neg hquote, if_neg hcomma]⟩
  | unquoted =>
      by_cases hend : isLineEnd b
      · exact .inl fun _ _ => by rw [scan, if_pos hend]
      · right
        by_cases hcomma : b = 0x2C
        · exact ⟨.fieldStart, d.endField, fun _ _ => by rw [scan, if_neg hend, if_pos hcomma]⟩
        · exact ⟨.unquoted, d.add b, fun _ _ => by rw [scan, if_neg hend, if_neg hcomma]⟩
  | quoted =>
      right
      by_cases hquote : b = 0x22
      · exact ⟨.quoteMet, d, fun _ _ => by rw [scan, if_pos hquote]⟩
      · exact ⟨.quoted, d.add b, fun _ _ => by rw [scan, if_neg hquote]⟩
  | quoteMet =>
      by_cases hquote : b = 0x22
      · exact .inr ⟨.quoted, d.add b, fun _ _ => by rw [scan, if_pos hquote]⟩
      · by_cases hend : isLineEnd b
        · exact .inl fun _ _ => by rw [scan, if_neg hquote, if_pos hend]
        · right
          by_cases hcomma : b = 0x2C
          · exact ⟨.fieldStart, d.endField, fun _ _ => by
              rw [scan, if_neg hquote, if_neg hend, if_pos hcomma]⟩
          · exact ⟨.unquoted, d.add b, fun _ _ => by
              rw [scan, if_neg hquote, if_neg hend, if_neg hcomma]⟩

/-- Where the bytes run out, an unfinished record is complete unless a fault stands there. -/
theorem scan_nil (broken : Bool) (phase : Phase) (d : Draft) (p : Position) :
    scan broken phase d p [] =
      if broken then .failed
      else if phase = .blank then .finished
      else .record d.finish ⟨[], false, { p with record := p.record + 1 }⟩ := by
  rw [scan]

/-- Whether a fault stands at the end of a stream does not change along it. -/
theorem scan_broken (broken : Bool) (phase : Phase) (d : Draft) (p : Position) (bytes : Bytes) :
    (scan broken phase d p bytes = .failed → broken = true)
      ∧ (scan broken phase d p bytes = .finished → broken = false)
      ∧ ∀ fields after, scan broken phase d p bytes = .record fields after →
          after.broken = broken ∧ after.ahead.length ≤ bytes.length := by
  induction bytes generalizing phase d p with
  | nil =>
      rw [scan_nil]
      cases broken with
      | true => simp
      | false =>
          by_cases hphase : phase = .blank
          · simp [hphase]
          · simp only [Bool.false_eq_true, if_false, hphase, reduceCtorEq, false_implies, true_and,
              Next.record.injEq]
            rintro fields after ⟨-, rfl⟩
            exact ⟨rfl, Nat.le_refl 0⟩
  | cons b rest ih =>
      rcases scan_cons phase d p b with hrec | ⟨phase', d', hon⟩
      · rw [hrec]
        simp only [reduceCtorEq, false_implies, true_and, Next.record.injEq]
        rintro fields after ⟨-, rfl⟩
        exact ⟨rfl, Nat.le_succ _⟩
      · -- The byte is read over, and what is found is found further on.
        obtain ⟨hfailed, hfinished, hrecord⟩ := ih phase' d' (p.advance b)
        rw [hon]
        refine ⟨hfailed, hfinished, fun fields after h => ?_⟩
        obtain ⟨hbroken, hlen⟩ := hrecord fields after h
        exact ⟨hbroken, Nat.le_trans hlen (Nat.le_succ _)⟩

theorem Reader.dropMark_broken (r : Reader) : r.dropMark.broken = r.broken := by
  unfold dropMark
  split <;> rfl

theorem Reader.dropMark_length (r : Reader) : r.dropMark.ahead.length ≤ r.ahead.length := by
  unfold dropMark
  split
  · rename_i h
    rw [h]
    simp only [List.length_cons]
    omega
  · exact Nat.le_refl _

theorem Reader.next_failed {r : Reader} (h : r.next = .failed) : r.broken = true := by
  rw [← r.dropMark_broken]
  exact (scan_broken _ _ _ _ _).1 h

theorem Reader.next_finished {r : Reader} (h : r.next = .finished) : r.broken = false := by
  rw [← r.dropMark_broken]
  exact (scan_broken _ _ _ _ _).2.1 h

/-- A record takes at least one byte. -/
theorem Reader.next_record {r after : Reader} {fields : List Bytes}
    (h : r.next = .record fields after) :
    after.broken = r.broken ∧ after.ahead.length < r.ahead.length := by
  have hscan : scan r.dropMark.broken .blank .empty r.dropMark.position r.dropMark.ahead
      = .record fields after := h
  obtain ⟨-, -, hrecord⟩ := scan_broken r.dropMark.broken .blank .empty r.dropMark.position
    r.dropMark.ahead
  have hbroken := (hrecord fields after hscan).1.trans r.dropMark_broken
  refine ⟨hbroken, ?_⟩
  have hmark := r.dropMark_length
  cases hahead : r.dropMark.ahead with
  | nil =>
      -- Between two records nothing has been begun, so there is no record without a byte.
      rw [hahead, scan_nil] at hscan
      split at hscan
      · cases hscan
      · simp at hscan
  | cons b rest =>
      rw [hahead] at hscan hmark
      rw [List.length_cons] at hmark
      have hrest : after.ahead.length ≤ rest.length := by
        rcases scan_cons .blank .empty r.dropMark.position b with
          hrec | ⟨phase', d', hon⟩
        · rw [hrec] at hscan
          obtain ⟨-, rfl⟩ := Next.record.inj hscan
          exact Nat.le_refl _
        · rw [hon] at hscan
          exact ((scan_broken _ _ _ _ _).2.2 fields after hscan).2
      omega

end Csv

namespace Trace

/-! ## Rows -/

/-- A record of a trace: where reading stood when it was asked for, the line where it starts, and
its fields. -/
structure Row where
  before : Csv.Position
  line : Nat
  fields : List Bytes
deriving DecidableEq, Repr

def Row.convert (r : Row) : Except Fault (List Char) := convertRow r.before r.line r.fields

def rowsFrom (before : Csv.Position) (reader : Csv.Reader) : List Row :=
  match _h : reader.next with
  | .record fields after =>
    ⟨before, reader.position.line, fields⟩ :: rowsFrom after.position after
  | .finished => []
  | .failed => []
termination_by reader.ahead.length
decreasing_by exact (Csv.Reader.next_record _h).2

/-- The rows of a byte stream: its records but for the first, which is the header. -/
def rowsOf (bytes : Bytes) (broken : Bool) : List Row :=
  match (Csv.Reader.start bytes broken).next with
  | .record _ reader => rowsFrom (Csv.Reader.start bytes broken).position reader
  | .finished => []
  | .failed => []

theorem rowsFrom_record {before : Csv.Position} {reader after : Csv.Reader} {fields : List Bytes}
    (h : reader.next = .record fields after) :
    rowsFrom before reader
      = ⟨before, reader.position.line, fields⟩ :: rowsFrom after.position after := by
  rw [rowsFrom]
  split
  · rename_i h'
    obtain ⟨rfl, rfl⟩ := Csv.Next.record.inj (h.symm.trans h')
    rfl
  · rename_i h'
    cases h.symm.trans h'
  · rename_i h'
    cases h.symm.trans h'

theorem rowsFrom_end {before : Csv.Position} {reader : Csv.Reader}
    (h : reader.next = .finished ∨ reader.next = .failed) : rowsFrom before reader = [] := by
  rw [rowsFrom]
  split
  · rename_i h'
    rcases h with h | h
    · cases h.symm.trans h'
    · cases h.symm.trans h'
  · rfl
  · rfl

/-! ## Lines -/

/-- The characters of a number with a stated number of places. -/
theorem mem_fixed {places : Nat} {x : Binary64} {c : Char} (h : c ∈ x.fixed places) :
    c.isDigit = true ∨ c = '.' ∨ c = '-' := by
  have hdigits : ∀ n, c ∈ Nat.toDigits 10 n → c.isDigit = true :=
    fun n hn => Nat.isDigit_of_mem_toDigits (by decide) (by decide) hn
  have hpad : ∀ n, c ∈ padDigits places n → c.isDigit = true := by
    intro n hn
    rcases List.mem_append.mp hn with hzero | hn
    · rw [List.eq_of_mem_replicate hzero]
      rfl
    · exact hdigits n hn
  have hsign : c ∈ (if x.isNegative then ['-'] else []) → c = '-' := by
    split
    · exact List.mem_singleton.mp
    · exact fun hnone => absurd hnone List.not_mem_nil
  simp only [Binary64.fixed, List.mem_append, List.mem_cons] at h
  rcases h with (hs | hn) | rfl | hn
  · exact .inr (.inr (hsign hs))
  · exact .inl (hdigits _ hn)
  · exact .inr (.inl rfl)
  · exact .inl (hpad _ hn)

theorem noBreak_fixed (places : Nat) (x : Binary64) : '\n' ∉ x.fixed places := by
  intro h
  rcases mem_fixed h with hdigit | hpoint | hsign
  · exact absurd hdigit (by decide)
  · exact absurd hpoint (by decide)
  · exact absurd hsign (by decide)

/-- A text and a line break, which is the only one. -/
def IsLine (line : List Char) : Prop := ∃ text, line = text ++ ['\n'] ∧ '\n' ∉ text

theorem isLine_pair {a b : List Char} (ha : '\n' ∉ a) (hb : '\n' ∉ b) :
    IsLine (a ++ ' ' :: b ++ ['\n']) := by
  refine ⟨a ++ ' ' :: b, rfl, ?_⟩
  simp only [List.mem_append, List.mem_cons, not_or]
  exact ⟨ha, by decide, hb⟩

theorem isLine_lineOf (nanos milliamps : Binary64) : IsLine (lineOf nanos milliamps) := by
  unfold lineOf
  exact isLine_pair (noBreak_fixed 7 _) (noBreak_fixed 12 _)

/-- What becomes of a row: the line of two numbers, or a fault that is told with a line of the
trace. -/
theorem Row.convert_cases (row : Row) :
    (∃ nanos milliamps, row.convert = .ok (lineOf nanos milliamps))
      ∨ ∃ line cause, row.convert = .error (.row line cause) := by
  have hcolumn : ∀ index text, (∃ x, column row.line index text = .ok x)
      ∨ ∃ cause, column row.line index text = .error (.row row.line cause) := by
    intro index text
    unfold column
    split
    · exact .inl ⟨_, rfl⟩
    · exact .inr ⟨_, rfl⟩
  unfold Row.convert convertRow
  dsimp only
  split
  · exact .inr ⟨_, _, rfl⟩
  · split
    · rename_i a b _ _
      rcases hcolumn 0 (trimBlanks (Utf8.lossyChars a)) with ⟨nanos, ha⟩ | ⟨cause, ha⟩
      · rcases hcolumn 1 (trimBlanks (Utf8.lossyChars b)) with ⟨milliamps, hb⟩ | ⟨cause, hb⟩
        · exact .inl ⟨nanos, milliamps, by simp only [ha, hb]; rfl⟩
        · exact .inr ⟨row.line, cause, by simp only [ha, hb]; rfl⟩
      · exact .inr ⟨row.line, cause, by simp only [ha]; rfl⟩
    · exact .inr ⟨_, _, rfl⟩

/-- A row that can be converted holds two numbers, which give its line. -/
theorem Row.convert_eq_ok {row : Row} {line : List Char} (h : row.convert = .ok line) :
    ∃ nanos milliamps, line = lineOf nanos milliamps := by
  rcases row.convert_cases with ⟨nanos, milliamps, hok⟩ | ⟨_, _, hbad⟩
  · exact ⟨nanos, milliamps, Except.ok.inj (h.symm.trans hok)⟩
  · cases h.symm.trans hbad

theorem Row.isLine_convert {row : Row} {line : List Char} (h : row.convert = .ok line) :
    IsLine line := by
  obtain ⟨nanos, milliamps, rfl⟩ := Row.convert_eq_ok h
  exact isLine_lineOf nanos milliamps

/-- `lines` are the output lines of `rows`. -/
def Converted (rows : List Row) (lines : List (List Char)) : Prop :=
  List.Forall₂ (fun row line => row.convert = .ok line) rows lines

theorem Converted.isLine {rows : List Row} {lines : List (List Char)} (h : Converted rows lines) :
    ∀ line ∈ lines, IsLine line := by
  induction h with
  | nil => simp
  | cons hrow _ ih =>
      intro line hline
      rcases List.mem_cons.mp hline with rfl | hline
      · exact Row.isLine_convert hrow
      · exact ih line hline

/-! ## Walking over rows -/

/-- Ends a conversion of `count` rows. -/
def conclude (broken : Bool) (count : Nat) (sink : Sink) : Except Fault Nat × Sink :=
  if broken then (.error (.io readFailed), sink)
  else
    match sink.flush with
    | .ok () => (.ok count, sink)
    | .error e => (.error e, sink)

/-- Writes the lines of rows, after `count` others. -/
def writeRows (broken : Bool) : List Row → Nat → Sink → Except Fault Nat × Sink
  | [], count, sink => conclude broken count sink
  | row :: rest, count, sink =>
    match row.convert with
    | .error e => (.error e, sink)
    | .ok line =>
      match sink.write line with
      | (.error e, sink) => (.error e, sink)
      | (.ok (), sink) => writeRows broken rest (count + 1) sink

theorem convertRows_eq {fuel : Nat} {reader : Csv.Reader} (enough : reader.ahead.length < fuel)
    (count : Nat) (before : Csv.Position) (sink : Sink) :
    convertRows fuel count before reader sink
      = writeRows reader.broken (rowsFrom before reader) count sink := by
  -- The steps that are left and the bytes that are left go down together.
  induction fuel generalizing reader count before sink with
  | zero => omega
  | succ fuel ih =>
      rw [convertRows]
      cases h : reader.next with
      | failed =>
          rw [rowsFrom_end (.inr h), writeRows, conclude, Csv.Reader.next_failed h, if_pos rfl]
      | finished =>
          have hbroken := Csv.Reader.next_finished h
          rw [rowsFrom_end (.inl h), writeRows]
          cases hflush : sink.flush with
          | error e => simp [conclude, hbroken, hflush]
          | ok _ => simp [conclude, hbroken, hflush]
      | record fields after =>
          obtain ⟨hbroken, hlen⟩ := Csv.Reader.next_record h
          rw [rowsFrom_record h, writeRows, Row.convert]
          dsimp only
          cases convertRow before reader.position.line fields with
          | error e => rfl
          | ok line =>
              dsimp only
              rcases sink.write line with ⟨e | _, sink'⟩
              · rfl
              · dsimp only
                rw [ih (by omega), hbroken]

/-- A conversion is a walk over the rows of the stream. -/
theorem convert_eq (bytes : Bytes) (broken : Bool) (sink : Sink) :
    convert bytes broken sink = writeRows broken (rowsOf bytes broken) 0 sink := by
  unfold convert rowsOf
  dsimp only
  cases h : (Csv.Reader.start bytes broken).next with
  | failed =>
      have hbroken : broken = true := Csv.Reader.next_failed h
      simp [writeRows, conclude, hbroken]
  | finished =>
      have hbroken : broken = false := Csv.Reader.next_finished h
      cases hflush : sink.flush with
      | error e => simp [writeRows, conclude, hbroken, hflush]
      | ok _ => simp [writeRows, conclude, hbroken, hflush]
  | record fields reader =>
      obtain ⟨hbroken, hlen⟩ := Csv.Reader.next_record h
      have henough : reader.ahead.length < bytes.length + 1 := by
        have : (Csv.Reader.start bytes broken).ahead.length = bytes.length := rfl
        omega
      dsimp only
      rw [convertRows_eq henough, hbroken]
      rfl

/-- A sink that takes everything. -/
structure Sink.Ample (s : Sink) : Prop where
  room : s.room? = none
  flushes : s.flushFails = false

def Sink.adding (lines : List (List Char)) (s : Sink) : Sink :=
  { s with pieces := lines.reverse ++ s.pieces }

@[simp] theorem Sink.adding_nil (s : Sink) : s.adding [] = s := rfl

theorem Sink.written_adding (lines : List (List Char)) (s : Sink) :
    (s.adding lines).written = s.written ++ lines.flatten := by
  simp [written, adding]

/-- On a sink that takes everything, either all rows are good, and their lines are written and
counted, or the lines of the rows before the first bad one are written, and its fault is given. -/
theorem writeRows_ample (rows : List Row) (count : Nat) (sink : Sink) (ample : sink.Ample) :
    (∃ lines, Converted rows lines
        ∧ writeRows false rows count sink = (.ok (count + lines.length), sink.adding lines))
      ∨ ∃ good bad rest lines fault, rows = good ++ bad :: rest ∧ Converted good lines
          ∧ bad.convert = .error fault
          ∧ writeRows false rows count sink = (.error fault, sink.adding lines) := by
  induction rows generalizing count sink with
  | nil =>
      refine .inl ⟨[], .nil, ?_⟩
      simp [writeRows, conclude, Sink.flush, ample.flushes]
  | cons row rest ih =>
      cases hrow : row.convert with
      | error fault =>
          refine .inr ⟨[], row, rest, [], fault, rfl, .nil, hrow, ?_⟩
          simp [writeRows, hrow]
      | ok line =>
          -- The line is written, and the walk goes on with a sink that still has room.
          have hwrite : sink.write line = (.ok (), sink.adding [line]) := by
            simp [Sink.write, ample.room, Sink.adding]
          have hstep : writeRows false (row :: rest) count sink
              = writeRows false rest (count + 1) (sink.adding [line]) := by
            simp [writeRows, hrow, hwrite]
          have hadding : ∀ lines, (sink.adding [line]).adding lines = sink.adding (line :: lines) :=
            fun lines => by simp [Sink.adding]
          rw [hstep]
          rcases ih (count + 1) (sink.adding [line]) ⟨ample.room, ample.flushes⟩ with
            ⟨lines, hlines, hrun⟩ | ⟨good, bad, rest', lines, fault, rfl, hlines, hbad, hrun⟩
          · refine .inl ⟨line :: lines, .cons hrow hlines, ?_⟩
            rw [hrun, hadding, List.length_cons, Nat.add_right_comm, Nat.add_assoc]
          · refine .inr ⟨row :: good, bad, rest', line :: lines, fault, rfl, .cons hrow hlines,
              hbad, ?_⟩
            rw [hrun, hadding]

end Trace

end PowerBench
