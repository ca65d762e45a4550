import PowerBench.Proofs.AsciiText
import PowerBench.Proofs.Rows

set_option autoImplicit false

/-! # Conversion under faults

A stream can break off, a sink can be full, and a flush can fail. Against the conversion without
faults (`faultless`), a full sink holds the first bytes of the same text, a stream that breaks off
leaves whole lines from its front, and a failed flush leaves all of it (`convert_faults`).

For the stream, two readers are compared, one over a part of the bytes and one over all of them: as
long as the first gives records the second gives the same (`Csv.Reader.next_append`), so the rows of
the part are the first rows of the whole (`rowsOf_take`).
-/

namespace PowerBench

/-! ## Records of a part of a stream -/

namespace Csv

/-- A record that ends before the bytes run out is the same when more bytes follow. -/
theorem scan_append {phase : Phase} {d : Draft} {p : Position} {bytes : Bytes}
    {fields : List Bytes} {after : Reader} (h : scan true phase d p bytes = .record fields after)
    (broken : Bool) (more : Bytes) :
    scan broken phase d p (bytes ++ more)
      = .record fields ⟨after.ahead ++ more, broken, after.position⟩ := by
  induction bytes generalizing phase d p with
  | nil =>
      rw [scan_nil, if_pos rfl] at h
      cases h
  | cons b rest ih =>
      rcases scan_cons phase d p b with hrec | ⟨phase', d', hon⟩
      · rw [hrec] at h
        obtain ⟨rfl, rfl⟩ := Next.record.inj h
        rw [List.cons_append, hrec]
      · rw [hon] at h
        rw [List.cons_append, hon]
        exact ih h

namespace Reader

/-- A reader at the very front of a stream with a byte order mark. -/
def AtMark (r : Reader) : Prop :=
  r.position.byte = 0 ∧ ∃ rest, r.ahead = 0xEF :: 0xBB :: 0xBF :: rest

theorem dropMark_of_not_atMark {r : Reader} (h : ¬ r.AtMark) : r.dropMark = r := by
  unfold dropMark
  split
  · rename_i hbyte hahead
    exact absurd ⟨hbyte, _, hahead⟩ h
  · rfl

/-- A mark that is cut off in the middle is no record. -/
theorem next_of_cut_mark {ahead more : Bytes} {p : Position} {broken : Bool}
    (part : ¬ (Reader.mk ahead true p).AtMark) (whole : (Reader.mk (ahead ++ more) broken p).AtMark) :
    (Reader.mk ahead true p).next = .failed := by
  obtain ⟨hbyte, rest, hahead⟩ := whole
  have hnext : (Reader.mk ahead true p).next = scan true .blank .empty p ahead := by
    rw [next, dropMark_of_not_atMark part]
  rw [hnext]
  match ahead with
  | [] => rfl
  | [a] =>
      simp only [List.cons_append, List.cons.injEq] at hahead
      obtain ⟨rfl, -⟩ := hahead
      rfl
  | [a, b] =>
      simp only [List.cons_append, List.cons.injEq] at hahead
      obtain ⟨rfl, rfl, -⟩ := hahead
      rfl
  | a :: b :: c :: tail =>
      simp only [List.cons_append, List.cons.injEq] at hahead
      obtain ⟨rfl, rfl, rfl, -⟩ := hahead
      exact absurd ⟨hbyte, tail, rfl⟩ part

/-- What a reader over a part of the bytes gives as a record, a reader over all of them gives too. -/
theorem next_append {ahead : Bytes} {p : Position} {fields : List Bytes} {after : Reader}
    (h : (Reader.mk ahead true p).next = .record fields after) (broken : Bool) (more : Bytes) :
    (Reader.mk (ahead ++ more) broken p).next
      = .record fields ⟨after.ahead ++ more, broken, after.position⟩ := by
  by_cases part : (Reader.mk ahead true p).AtMark
  · obtain ⟨hbyte, rest, hahead⟩ := part
    dsimp only at hbyte hahead
    subst hahead
    have hmark : ∀ broken rest, (Reader.mk (0xEF :: 0xBB :: 0xBF :: rest) broken p).dropMark
        = ⟨rest, broken, { p with byte := 3 }⟩ := by
      intro broken rest
      simp [dropMark, hbyte]
    rw [next, hmark] at h
    rw [List.cons_append, List.cons_append, List.cons_append, next, hmark]
    exact scan_append h broken more
  · by_cases whole : (Reader.mk (ahead ++ more) broken p).AtMark
    · rw [next_of_cut_mark part whole] at h
      cases h
    · rw [next, dropMark_of_not_atMark part] at h
      rw [next, dropMark_of_not_atMark whole]
      exact scan_append h broken more

end Reader

end Csv

namespace Trace

/-- The reader that a record leaves over bytes that break off. -/
theorem after_record {reader after : Csv.Reader} {fields : List Bytes}
    (h : reader.next = .record fields after) (broken : reader.broken = true) :
    after = ⟨after.ahead, true, after.position⟩ := by
  rw [← broken, ← (Csv.Reader.next_record h).1]

/-- The rows that a reader gives over a part of the bytes are the first ones it gives over all. -/
theorem rowsFrom_append (before p : Csv.Position) (ahead more : Bytes) (broken : Bool) :
    rowsFrom before ⟨ahead, true, p⟩ <+: rowsFrom before ⟨ahead ++ more, broken, p⟩ := by
  -- Each record takes at least one of the bytes that are left.
  induction hlen : ahead.length using Nat.strongRecOn generalizing before p ahead with
  | ind n ih =>
      cases hnext : (Csv.Reader.mk ahead true p).next with
      | failed =>
          rw [rowsFrom_end (.inr hnext)]
          exact List.nil_prefix
      | finished =>
          rw [rowsFrom_end (.inl hnext)]
          exact List.nil_prefix
      | record fields after =>
          have hshorter : after.ahead.length < n := hlen ▸ (Csv.Reader.next_record hnext).2
          rw [rowsFrom_record hnext, rowsFrom_record (Csv.Reader.next_append hnext broken more)]
          refine (List.prefix_cons_inj _).mpr ?_
          rw [after_record hnext rfl]
          exact ih after.ahead.length hshorter after.position after.position after.ahead rfl

/-- The rows of a stream that breaks off are its first rows. -/
theorem rowsOf_take (bytes : Bytes) (n : Nat) : rowsOf (bytes.take n) true <+: rowsOf bytes false := by
  have hwhole : bytes = bytes.take n ++ bytes.drop n := (List.take_append_drop n bytes).symm
  unfold rowsOf
  cases hnext : (Csv.Reader.start (bytes.take n) true).next with
  | failed => exact List.nil_prefix
  | finished => exact List.nil_prefix
  | record fields after =>
      have hsame : (Csv.Reader.start bytes false).next
          = .record fields ⟨after.ahead ++ bytes.drop n, false, after.position⟩ := by
        conv_lhs => rw [hwhole]
        exact Csv.Reader.next_append hnext false (bytes.drop n)
      rw [hsame]
      dsimp only
      rw [after_record hnext rfl]
      exact rowsFrom_append _ _ _ _ _

/-! ## Lines and faults of rows -/

/-- The lines of the rows before the first bad one. -/
def linesOf : List Row → List (List Char)
  | [] => []
  | row :: rest =>
    match row.convert with
    | .ok line => line :: linesOf rest
    | .error _ => []

def firstFault? : List Row → Option Fault
  | [] => none
  | row :: rest =>
    match row.convert with
    | .ok _ => firstFault? rest
    | .error fault => some fault

theorem mem_linesOf {rows : List Row} {line : List Char} (h : line ∈ linesOf rows) :
    ∃ nanos milliamps, line = lineOf nanos milliamps := by
  induction rows with
  | nil => cases h
  | cons row rest ih =>
      rw [linesOf] at h
      cases hrow : row.convert with
      | error fault =>
          rw [hrow] at h
          cases h
      | ok first =>
          rw [hrow] at h
          rcases List.mem_cons.mp h with rfl | hrest
          · exact Row.convert_eq_ok hrow
          · exact ih hrest

/-- The characters of a line are digits, points, signs, a space and a line break. -/
theorem isAscii_lineOf {nanos milliamps : Binary64} {c : Char} (h : c ∈ lineOf nanos milliamps) :
    IsAscii c := by
  have hnumber : ∀ places x, c ∈ Binary64.fixed places x → IsAscii c := by
    intro places x hc
    rcases mem_fixed hc with hdigit | rfl | rfl
    · have hnine : c.toNat ≤ '9'.toNat := (Char.isDigit_iff_toNat.mp hdigit).2
      exact Nat.lt_of_le_of_lt hnine (by decide)
    · decide
    · decide
  simp only [lineOf, List.mem_append, List.mem_cons, List.not_mem_nil, or_false] at h
  rcases h with (hn | rfl | hm) | rfl
  · exact hnumber _ _ hn
  · decide
  · exact hnumber _ _ hm
  · decide

theorem isAscii_linesOf {rows : List Row} {c : Char} (h : c ∈ (linesOf rows).flatten) :
    IsAscii c := by
  obtain ⟨line, hline, hc⟩ := List.mem_flatten.mp h
  obtain ⟨nanos, milliamps, rfl⟩ := mem_linesOf hline
  exact isAscii_lineOf hc

theorem isLine_linesOf {rows : List Row} {line : List Char} (h : line ∈ linesOf rows) :
    IsLine line := by
  obtain ⟨nanos, milliamps, rfl⟩ := mem_linesOf h
  exact isLine_lineOf nanos milliamps

theorem firstFault?_row {rows : List Row} {fault : Fault} (h : firstFault? rows = some fault) :
    ∃ line cause, fault = .row line cause := by
  induction rows with
  | nil => cases h
  | cons row rest ih =>
      rw [firstFault?] at h
      cases hrow : row.convert with
      | error e =>
          rw [hrow] at h
          obtain rfl := Option.some.inj h
          rcases row.convert_cases with ⟨_, _, hok⟩ | ⟨line, cause, hbad⟩
          · cases hrow.symm.trans hok
          · exact ⟨line, cause, Except.error.inj (hrow.symm.trans hbad)⟩
      | ok line =>
          rw [hrow] at h
          exact ih h

theorem linesOf_prefix {rows all : List Row} (h : rows <+: all) : linesOf rows <+: linesOf all := by
  induction rows generalizing all with
  | nil => exact List.nil_prefix
  | cons row rest ih =>
      obtain ⟨more, rfl⟩ := h
      rw [List.cons_append, linesOf, linesOf]
      cases row.convert with
      | error fault => exact List.nil_prefix
      | ok line => exact (List.prefix_cons_inj _).mpr (ih (List.prefix_append rest more))

theorem firstFault?_prefix {rows all : List Row} {fault : Fault} (h : rows <+: all)
    (hfault : firstFault? rows = some fault) : firstFault? all = some fault := by
  induction rows generalizing all with
  | nil => cases hfault
  | cons row rest ih =>
      obtain ⟨more, rfl⟩ := h
      rw [List.cons_append]
      rw [firstFault?] at hfault ⊢
      cases hrow : row.convert with
      | error e => rwa [hrow] at hfault
      | ok line =>
          rw [hrow] at hfault
          exact ih (List.prefix_append rest more) hfault

/-- Without a bad row there is a line for every row. -/
theorem converted_of_firstFault? {rows : List Row} (h : firstFault? rows = none) :
    Converted rows (linesOf rows) := by
  induction rows with
  | nil => exact .nil
  | cons row rest ih =>
      rw [firstFault?] at h
      rw [linesOf]
      cases hrow : row.convert with
      | error fault =>
          rw [hrow] at h
          cases h
      | ok line =>
          rw [hrow] at h
          exact .cons hrow (ih h)

/-! ## Sinks with room and without -/

/-- How a walk over rows, after `count` others, ends where every line finds room. -/
def ending (broken flushFails : Bool) (rows : List Row) (count : Nat) : Except Fault Nat :=
  match firstFault? rows with
  | some fault => .error fault
  | none =>
    if broken then .error (.io readFailed)
    else if flushFails then .error (.io Sink.notFlushed)
    else .ok (count + rows.length)

theorem conclude_eq (broken : Bool) (count : Nat) (sink : Sink) :
    conclude broken count sink = (ending broken sink.flushFails [] count, sink) := by
  cases hbroken : broken with
  | true => rfl
  | false =>
      cases hflush : sink.flushFails with
      | true => simp [conclude, ending, firstFault?, Sink.flush, hflush]
      | false => simp [conclude, ending, firstFault?, Sink.flush, hflush]

/-- With room for everything, the lines of the rows before the first bad one are written. -/
theorem writeRows_roomy (broken : Bool) (rows : List Row) (count : Nat) {sink : Sink}
    (roomy : sink.room? = none) :
    writeRows broken rows count sink
      = (ending broken sink.flushFails rows count, sink.adding (linesOf rows)) := by
  induction rows generalizing count sink with
  | nil => rw [writeRows, conclude_eq, linesOf, Sink.adding_nil]
  | cons row rest ih =>
      rw [writeRows]
      cases hrow : row.convert with
      | error fault => simp [ending, firstFault?, linesOf, hrow]
      | ok line =>
          have hwrite : sink.write line = (.ok (), sink.adding [line]) := by
            simp [Sink.write, roomy, Sink.adding]
          have hcount : count + 1 + rest.length = count + (row :: rest).length := by
            rw [List.length_cons]
            omega
          have hroomy : (sink.adding [line]).room? = none := roomy
          dsimp only
          rw [hwrite]
          dsimp only
          rw [ih (count + 1) hroomy]
          simp [ending, firstFault?, linesOf, hrow, Sink.adding, hcount]

/-- With room for `n` characters, the first `n` of the same text are written, and the walk ends in
the same way exactly when there are no more. -/
theorem writeRows_limited (broken : Bool) (rows : List Row) (count n : Nat) (sink : Sink) :
    (writeRows broken rows count { sink with room? := some n }).2.written
        = sink.written ++ (linesOf rows).flatten.take n
      ∧ (writeRows broken rows count { sink with room? := some n }).1
        = if (linesOf rows).flatten.length ≤ n then ending broken sink.flushFails rows count
          else .error (.io Sink.full) := by
  induction rows generalizing count n sink with
  | nil =>
      rw [writeRows, conclude_eq]
      simp only [linesOf, List.flatten_nil, List.take_nil, List.append_nil]
      exact ⟨rfl, (if_pos (Nat.zero_le n)).symm⟩
  | cons row rest ih =>
      rw [writeRows]
      cases hrow : row.convert with
      | error fault =>
          have hwritten : ({ sink with room? := some n } : Sink).written = sink.written := rfl
          simp [ending, firstFault?, linesOf, hrow, hwritten]
      | ok line =>
          have htext : (linesOf (row :: rest)).flatten = line ++ (linesOf rest).flatten := by
            simp [linesOf, hrow]
          have hending : ending broken sink.flushFails (row :: rest) count
              = ending broken sink.flushFails rest (count + 1) := by
            simp only [ending, firstFault?, hrow, List.length_cons]
            rw [Nat.add_assoc, Nat.add_comm 1]
          rw [htext, hending]
          dsimp only
          by_cases hfits : line.length ≤ n
          · -- The line fits, and the rest goes into what room is left.
            have hwrite : ({ sink with room? := some n } : Sink).write line
                = (.ok (), { sink.adding [line] with room? := some (n - line.length) }) := by
              simp [Sink.write, hfits, Sink.adding]
            rw [hwrite]
            dsimp only
            obtain ⟨hwritten, hresult⟩ := ih (count + 1) (n - line.length) (sink.adding [line])
            refine ⟨?_, ?_⟩
            · rw [hwritten, Sink.written_adding, List.take_append, List.take_of_length_le hfits]
              simp
            · have hroom : (linesOf rest).flatten.length ≤ n - line.length
                  ↔ (line ++ (linesOf rest).flatten).length ≤ n := by
                rw [List.length_append]
                omega
              rw [hresult]
              simp only [hroom]
              rfl
          · -- The line is cut off, and nothing of the rest is written.
            have hwrite : ({ sink with room? := some n } : Sink).write line
                = (.error (.io Sink.full),
                    { sink.adding [line.take n] with room? := some 0 }) := by
              simp [Sink.write, hfits, Sink.adding]
            have hmore : ¬ (line ++ (linesOf rest).flatten).length ≤ n := by
              rw [List.length_append]
              omega
            rw [hwrite, if_neg hmore]
            refine ⟨?_, rfl⟩
            show (sink.adding [line.take n]).written = _
            rw [Sink.written_adding, List.take_append_of_le_length (by omega)]
            simp

/-! ## Conversion under faults -/

def Sink.bytes (s : Sink) : Bytes := Utf8.encodeChars s.written

/-- A conversion without faults of stream and sink. -/
def faultless (bytes : Bytes) : Except Fault Nat × Sink := convert bytes false {}

/-- A conversion on a sink with room leaves the lines of the rows before the first bad one. -/
theorem convert_roomy (bytes : Bytes) (broken flushFails : Bool) :
    (convert bytes broken { flushFails := flushFails }).1
        = ending broken flushFails (rowsOf bytes broken) 0
      ∧ (convert bytes broken { flushFails := flushFails }).2.written
        = (linesOf (rowsOf bytes broken)).flatten := by
  rw [convert_eq, writeRows_roomy broken _ 0 rfl]
  exact ⟨rfl, Sink.written_adding _ _⟩

theorem ending_eq_ok {broken flushFails : Bool} {rows : List Row} {count n : Nat}
    (h : ending broken flushFails rows count = .ok n) :
    firstFault? rows = none ∧ n = count + rows.length := by
  unfold ending at h
  split at h
  · cases h
  · rename_i hnone
    split at h
    · cases h
    · split at h
      · cases h
      · exact ⟨hnone, (Except.ok.inj h).symm⟩

/-- A conversion that succeeds has written the line of every row. -/
theorem convert_eq_ok {bytes : Bytes} {broken : Bool} {sink : Sink} {n : Nat}
    (h : (convert bytes broken sink).1 = .ok n) :
    ∃ lines, Converted (rowsOf bytes broken) lines ∧ n = lines.length
      ∧ (convert bytes broken sink).2.written = sink.written ++ lines.flatten := by
  have hwhole : ending broken sink.flushFails (rowsOf bytes broken) 0 = .ok n
      ∧ (convert bytes broken sink).2.written
        = sink.written ++ (linesOf (rowsOf bytes broken)).flatten := by
    rw [convert_eq] at h ⊢
    cases hroom : sink.room? with
    | none =>
        rw [writeRows_roomy broken _ 0 hroom] at h ⊢
        exact ⟨h, Sink.written_adding _ _⟩
    | some room =>
        obtain ⟨hwritten, hresult⟩ := writeRows_limited broken (rowsOf bytes broken) 0 room sink
        have hsink : ({ sink with room? := some room } : Sink) = sink := by rw [← hroom]
        rw [hsink] at hwritten hresult
        rw [hresult] at h
        split at h
        · rename_i hfits
          rw [List.take_of_length_le hfits] at hwritten
          exact ⟨h, hwritten⟩
        · cases h
  obtain ⟨hnone, hcount⟩ := ending_eq_ok hwhole.1
  have hconverted := converted_of_firstFault? hnone
  refine ⟨_, hconverted, ?_, hwhole.2⟩
  rw [hcount, ← hconverted.length_eq, Nat.zero_add]

/-- **Conversion under faults.** On a sink that takes `n` bytes, the first `n` bytes of the faultless
text are written, and the result is the faultless one if they are all of it. Over a stream that
breaks off, whole lines from the front of the faultless text are written, and the result is the
fault of the stream or the very bad row of the faultless conversion. Where flushing fails, all of
the text is written, and only a success turns into a fault. -/
theorem convert_faults (bytes : Bytes) :
    (∀ n : Nat,
      (convert bytes false { room? := some n }).2.bytes = (faultless bytes).2.bytes.take n
        ∧ (convert bytes false { room? := some n }).1
          = if (faultless bytes).2.bytes.length ≤ n then (faultless bytes).1
            else .error (.io Sink.full))
      ∧ (∀ n : Nat, ∃ lines rest : List (List Char), (∀ line ∈ lines ++ rest, IsLine line)
        ∧ (faultless bytes).2.written = (lines ++ rest).flatten
        ∧ (convert (bytes.take n) true {}).2.written = lines.flatten
        ∧ ((convert (bytes.take n) true {}).1 = .error (.io readFailed)
          ∨ ∃ line cause, (faultless bytes).1 = .error (.row line cause)
            ∧ (convert (bytes.take n) true {}).1 = .error (.row line cause)))
      ∧ (convert bytes false { flushFails := true }).2.bytes = (faultless bytes).2.bytes
      ∧ (convert bytes false { flushFails := true }).1
        = match (faultless bytes).1 with
          | .ok _ => .error (.io Sink.notFlushed)
          | .error fault => .error fault := by
  obtain ⟨hresult, hwritten⟩ := convert_roomy bytes false false
  have hbytes : (faultless bytes).2.bytes
      = Utf8.encodeChars (linesOf (rowsOf bytes false)).flatten := congrArg Utf8.encodeChars hwritten
  have hascii : ∀ c ∈ (linesOf (rowsOf bytes false)).flatten, IsAscii c := fun _ => isAscii_linesOf
  refine ⟨fun n => ?_, fun n => ?_, ?_, ?_⟩
  · -- Every character of a line is one byte, so that room counts bytes and characters alike.
    obtain ⟨hcut, hend⟩ := writeRows_limited false (rowsOf bytes false) 0 n {}
    have hlength : (faultless bytes).2.bytes.length
        = (linesOf (rowsOf bytes false)).flatten.length := by
      rw [hbytes, Utf8.length_encodeChars_of_ascii hascii]
    rw [convert_eq, hlength]
    refine ⟨?_, hend.trans ?_⟩
    · rw [hbytes, ← Utf8.encodeChars_take_of_ascii hascii]
      exact congrArg Utf8.encodeChars hcut
    · rw [show (faultless bytes).1 = _ from hresult]
  · obtain ⟨hresult', hwritten'⟩ := convert_roomy (bytes.take n) true false
    have hrows := rowsOf_take bytes n
    obtain ⟨rest, hrest⟩ := linesOf_prefix hrows
    refine ⟨linesOf (rowsOf (bytes.take n) true), rest, ?_, ?_, hwritten', ?_⟩
    · intro line hline
      rw [hrest] at hline
      exact isLine_linesOf hline
    · rw [hrest]
      exact hwritten
    · rw [show (convert (bytes.take n) true {}).1 = _ from hresult', ending]
      cases hfault : firstFault? (rowsOf (bytes.take n) true) with
      | none => exact .inl rfl
      | some fault =>
          -- The bad row is met before the stream breaks off, and by the whole conversion too.
          obtain ⟨line, cause, rfl⟩ := firstFault?_row hfault
          refine .inr ⟨line, cause, ?_, rfl⟩
          rw [show (faultless bytes).1 = _ from hresult, ending, firstFault?_prefix hrows hfault]
  · obtain ⟨-, hwritten'⟩ := convert_roomy bytes false true
    rw [hbytes]
    exact congrArg Utf8.encodeChars hwritten'
  · obtain ⟨hresult', -⟩ := convert_roomy bytes false true
    rw [hresult', show (faultless bytes).1 = _ from hresult, ending, ending]
    cases firstFault? (rowsOf bytes false) with
    | none => rfl
    | some fault => rfl

end Trace

end PowerBench
