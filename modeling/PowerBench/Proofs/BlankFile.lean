import PowerBench.Proofs.Metrics
import PowerBench.Proofs.TraceText
import PowerBench.Script

set_option autoImplicit false

/-! # Files that are left blank

An instrument that fails before it writes leaves the scratch file of its call as it was made, and its
exit code does not tell. Fetching metrics refuses a blank dump. An export of a trace does not look: each
record of a blank text is one field, so the header is the only record or the row behind it is too short,
and by then the destination has been emptied (`LeftBlank`).
-/

namespace PowerBench

open FileTree Operation Session

variable {σ : Type}

/-- The call has left blanks only, or nothing, in the file that it names. -/
def Reply.LeavesBlank (reply : Reply) (text : String) : Prop :=
  reply.file.content? = some (Utf8.encode text) ∧ allBlank text = true

namespace Trace

/-! ## The records of a blank text -/

section

variable {text : String} (blank : allBlank text = true)

include blank

theorem single_of_blank {records : List Csv.Record}
    (sheet : Csv.Sheet (Csv.withoutMark text.toList) records) : ∀ r ∈ records, r.fields.length = 1 := by
  intro r hr
  obtain ⟨closed, written⟩ := sheet.written r hr
  obtain ⟨gap, -, htext⟩ := sheet.text_eq
  refine written.single fun hcomma => ?_
  have hwhole : ',' ∈ records.flatMap Csv.Record.whole :=
    List.mem_flatMap.mpr ⟨r, hr, by simp [Csv.Record.whole, hcomma]⟩
  have hmem : ',' ∈ text.toList :=
    Csv.withoutMark_subset _ (by rw [htext]; exact List.mem_append_left _ hwhole)
  exact absurd (List.all_eq_true.mp blank _ hmem) (by decide)

/-- The rows of a blank text: one less than there are records, and each too short. -/
theorem rowsOf_blank {records : List Csv.Record}
    (sheet : Csv.Sheet (Csv.withoutMark text.toList) records) :
    (rowsOf (Utf8.encode text) false).length = records.length - 1
      ∧ ∀ row ∈ rowsOf (Utf8.encode text) false,
        row.convert = .error (.row row.line (.tooShort 1)) := by
  have hrows : List.Forall₂ Csv.IsRow (Csv.numbered 1 records).tail (rowsOf (Utf8.encode text) false) :=
    Csv.rowsOf_sheet sheet
  constructor
  · rw [← hrows.length_eq, List.length_tail, ← List.length_map Prod.snd, Csv.map_numbered]
  · intro row hrow
    obtain ⟨⟨line, r⟩, hmem, his⟩ := Csv.exists_isRow hrows hrow
    have hr : r ∈ records := by
      rw [← Csv.map_numbered 1 records]
      exact List.mem_map_of_mem (List.mem_of_mem_tail hmem)
    have hone := single_of_blank blank sheet r hr
    have hshort : Unfit r.fields (.tooShort 1) := hone ▸ .tooShort (by omega)
    rw [(Row.convert_of_isRow his).2 _ hshort, his.1]

end

end Trace

namespace Client

/-! ## Metrics -/

theorem dumpOutcome_blank {dump : Path} {reply : Reply} {text : String}
    (blank : reply.LeavesBlank text) : ∃ e, dumpOutcome dump reply = .error e := by
  unfold dumpOutcome
  cases reply.result with
  | error e => exact ⟨e, rfl⟩
  | ok f =>
      rw [blank.1]
      dsimp only
      rw [Utf8.decode?_encode]
      exact ⟨.badReport dump .blank, by simp [Report.read, blank.2]⟩

/-! ## Traces -/

/-- How an export of a trace ends whose call has left a blank text for the rows. -/
inductive LeftBlank (files : FileTree) (dest : Path) (rows : Scratch) (text : String) (reply : Reply) :
    Except ClientError Nat → FileTree → Prop where
  /-- The call has failed. -/
  | failed {e : ClientError} {after : FileTree} (failure : reply.result = .error e)
      (untouched : SameBut [] files after) : LeftBlank files dest rows text reply (.error e) after
  /-- The destination cannot be created. -/
  | notCreated {f : Finished} {why cause : IoFault} {after : FileTree}
      (success : reply.result = .ok f) (closed : files.fileToWrite dest = .error why)
      (untouched : SameBut [] files after) :
      LeftBlank files dest rows text reply (.error (.io cause)) after
  /-- There is no second record: the export succeeds, and the destination is empty. -/
  | emptied {f : Finished} {a : Address} {after : FileTree} (success : reply.result = .ok f)
      (opened : files.fileToWrite dest = .ok a) (apart : a ≠ rows.address)
      (few : ∀ records, Csv.Sheet (Csv.withoutMark text.toList) records → records.length ≤ 1)
      (empty : Received files dest a [] after "") :
      LeftBlank files dest rows text reply (.ok 0) after
  /-- The second record is too short, and the destination is empty. -/
  | stopped {f : Finished} {a : Address} {line : Nat} {after : FileTree}
      (success : reply.result = .ok f) (opened : files.fileToWrite dest = .ok a)
      (apart : a ≠ rows.address)
      (many : ∀ records, Csv.Sheet (Csv.withoutMark text.toList) records → 1 < records.length)
      (empty : Received files dest a [] after "") :
      LeftBlank files dest rows text reply (.error (.badTrace line (.tooShort 1))) after
  /-- The destination is the file of the rows itself. -/
  | itself {f : Finished} {after : FileTree} (success : reply.result = .ok f)
      (opened : files.fileToWrite dest = .ok rows.address) (untouched : SameBut [] files after) :
      LeftBlank files dest rows text reply (.ok 0) after

/-- A text of no characters shows nothing. -/
theorem Received.shown_nil {files after : FileTree} {dest : Path} {a : Address} {shown : String}
    (h : Received files dest a [] after shown) : shown = "" := by
  cases h with
  | held => rfl
  | shown => rfl

theorem leftBlank_of_left {files after : FileTree} {dest : Path} {rows : Scratch} {text : String}
    {reply : Reply} {r : Except ClientError Nat} {shown : String} (blank : reply.LeavesBlank text)
    (left : Left files dest rows reply r after shown) :
    shown = "" ∧ LeftBlank files dest rows text reply r after := by
  obtain ⟨hfound, hblank⟩ := blank
  -- All rows are bad, so only an empty list of them is converted.
  have hnone : ∀ {good : List Trace.Row} {lines : List (List Char)},
      good ⊆ Trace.rowsOf (Utf8.encode text) false → Trace.Converted good lines →
      good = [] ∧ lines = [] := by
    intro good lines hsub hgood
    cases hgood with
    | nil => exact ⟨rfl, rfl⟩
    | @cons row line good lines hline _ =>
        obtain ⟨records, sheet⟩ := Csv.exists_sheet (Csv.withoutMark text.toList)
        have hbad := (Trace.rowsOf_blank hblank sheet).2 row (hsub List.mem_cons_self)
        rw [hbad] at hline
        cases hline
  cases left with
  | failed failure untouched => exact ⟨rfl, .failed failure untouched⟩
  | removed success gone untouched =>
      rw [hfound] at gone
      cases gone
  | notCreated success found closed untouched =>
      exact ⟨rfl, .notCreated success closed untouched⟩
  | @written _ _ a lines _ _ success found opened apart all _ received =>
      rw [hfound] at found
      cases found
      obtain ⟨hrows, rfl⟩ := hnone (List.Subset.refl _) all
      obtain rfl := received.shown_nil
      refine ⟨rfl, .emptied success opened apart (fun records sheet => ?_) received⟩
      have hlength := (Trace.rowsOf_blank hblank sheet).1
      rw [hrows, List.length_nil] at hlength
      omega
  | @stopped _ _ a good rest bad lines fault _ _ success found opened apart split before _ first
      received =>
      rw [hfound] at found
      cases found
      obtain ⟨rfl, rfl⟩ := hnone (by simp [split]) before
      obtain ⟨records, sheet⟩ := Csv.exists_sheet (Csv.withoutMark text.toList)
      have hbad := (Trace.rowsOf_blank hblank sheet).2 bad (by simp [split])
      rw [hbad] at first
      cases first
      obtain rfl := received.shown_nil
      refine ⟨rfl, .stopped success opened apart (fun records sheet => ?_) received⟩
      have hlength := (Trace.rowsOf_blank hblank sheet).1
      rw [split, List.nil_append, List.length_cons] at hlength
      omega
  | itself success found opened untouched => exact ⟨rfl, .itself success opened untouched⟩

/-- **Blank files.** Fetching metrics ends with an error if the call leaves its dump blank, or makes no
call. An export of a trace whose call succeeds and leaves its rows blank empties the destination that it
has created, and shows nothing; it ends with an error if and only if the blank text has a second
record. -/
theorem blank_files (c : Client σ) (name : String) (s : Session σ) :
    (∀ start? stop?,
      (∀ a b dump made, GoodBound start? a → GoodBound stop? b → s.makeScratch .dump = .ok (dump, made) →
        ∃ text, (made.answer c.instrument (c.metricsCall name a b dump.path)).LeavesBlank text) →
      ∃ e, (exec (c.metrics name start? stop?) s).1 = .error e)
    ∧ ∀ dest pattern rows made text, s.makeScratch .rows = .ok (rows, made) →
      (made.answer c.instrument (c.traceCall name pattern rows.path)).LeavesBlank text →
      (exec (c.trace dest name pattern) s).2.printed = s.printed
      ∧ LeftBlank s.files dest rows text
        (made.answer c.instrument (c.traceCall name pattern rows.path))
        (exec (c.trace dest name pattern) s).1 (exec (c.trace dest name pattern) s).2.files := by
  constructor
  · intro start? stop? blank
    have hend := c.fetched_metrics name start? stop? s
    generalize exec (c.metrics name start? stop?) s = ending at hend ⊢
    obtain ⟨result, after⟩ := ending
    cases hend with
    | badStart => exact ⟨_, rfl⟩
    | badStop => exact ⟨_, rfl⟩
    | notMade => exact ⟨_, rfl⟩
    | called start stop opened =>
        obtain ⟨text, hblank⟩ := blank _ _ _ _ start stop opened
        exact dumpOutcome_blank hblank
  · intro dest pattern rows made text hmade blank
    obtain ⟨-, -, shown, hprinted, hleft⟩ := c.trace_called dest name pattern hmade
    obtain ⟨rfl, hblank⟩ := leftBlank_of_left blank hleft
    exact ⟨hprinted.trans String.append_empty, hblank⟩

/-- A client of an instrument that fails without writing. -/
def silent : Client (List Answer) where
  binary := .ofText "bits"
  service := 8123
  config := .default
  limits := .default
  instrument := .scripted { exitCode? := some 1 }

/-- A session with a file that an earlier export has left. -/
def exportedBefore : Session (List Answer) :=
  .start [] ⟨[(scratchDirectory, .directory), ([Utf8.encode "out.txt"], .file (Utf8.encode "old"))], []⟩

theorem blank_files_silent :
    (∃ e, (exec (silent.metrics "c1" none none) exportedBefore).1 = .error e)
      ∧ ∃ rows made, exportedBefore.makeScratch .rows = .ok (rows, made)
        ∧ (exec (silent.trace (.ofText "out.txt") "c1" "p") exportedBefore).2.printed = ""
        ∧ LeftBlank exportedBefore.files (.ofText "out.txt") rows ""
          (made.answer silent.instrument (silent.traceCall "c1" "p" rows.path))
          (exec (silent.trace (.ofText "out.txt") "c1" "p") exportedBefore).1
          (exec (silent.trace (.ofText "out.txt") "c1" "p") exportedBefore).2.files := by
  obtain ⟨metrics, trace⟩ := blank_files silent "c1" exportedBefore
  refine ⟨metrics none none ?_, ⟨.rows, 0⟩, _, rfl, trace _ _ _ _ _ rfl ⟨rfl, rfl⟩⟩
  intro a b dump made _ _ hmade
  obtain ⟨-, -, -, hsession⟩ := makeScratch_eq_ok hmade
  rw [hsession]
  exact ⟨"", rfl, rfl⟩

/-- A silent failure replaces an earlier export by nothing and counts as a success. -/
theorem silent_failure_exported :
    ∃ rows made, exportedBefore.makeScratch .rows = .ok (rows, made)
      ∧ (made.answer silent.instrument (silent.traceCall "c1" "p" rows.path)).LeavesBlank ""
      ∧ exportedBefore.files.content (.ofText "out.txt") = .ok (Utf8.encode "old")
      ∧ (exec (silent.trace (.ofText "out.txt") "c1" "p") exportedBefore).1 = .ok 0
      ∧ (exec (silent.trace (.ofText "out.txt") "c1" "p") exportedBefore).2.files.content
          (.ofText "out.txt") = .ok [] := by
  have hcount : (exec (silent.trace (.ofText "out.txt") "c1" "p") exportedBefore).1.toOption
      = some 0 := by decide +kernel
  refine ⟨⟨.rows, 0⟩, _, rfl, ⟨rfl, rfl⟩, by decide +kernel, ?_, by decide +kernel⟩
  cases hend : (exec (silent.trace (.ofText "out.txt") "c1" "p") exportedBefore).1 with
  | error e => simp [hend, Except.toOption] at hcount
  | ok n => simpa [hend, Except.toOption] using hcount

end Client

end PowerBench
