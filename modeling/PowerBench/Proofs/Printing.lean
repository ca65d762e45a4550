import PowerBench.Proofs.Conduct
import PowerBench.Proofs.Outcome

set_option autoImplicit false

/-! # What the steps of a client print

A step leaves the standard output alone (`Mute`), with one exception: a trace can be exported to a
path that leads there. Then the lines of its rows are shown as far as they are good, one for each
sample if the export succeeds (`perform_writes`).
-/

namespace PowerBench

open FileTree Operation Session

variable {σ α : Type}

/-! ## Steps that print nothing -/

def Mute (op : Operation σ α) : Prop := Keeps Session.printed op

theorem mute_record (e : Log.Entry) : Mute (σ := σ) (record e) := fun _ => rfl

namespace Client

theorem mute_runWith (c : Client σ) (file? : Option Path) (tokens : List String) (limit : Duration) :
    Mute (c.runWith file? tokens limit) := by
  intro s
  rw [exec_runWith]
  rfl

theorem mute_request (c : Client σ) (r : Request) (kind : LimitClass) : Mute (c.request r kind) :=
  c.mute_runWith r.file? _ _

/-- A log entry, and then one call whose output is not wanted. -/
theorem mute_record_request (c : Client σ) (e : Log.Entry) (r : Request) (kind : LimitClass) :
    Mute (record e >>= fun _ => discard (c.request r kind)) :=
  (mute_record e).bind fun _ => (c.mute_request r kind).map _

theorem mute_archive (c : Client σ) (name : String) (dest : Path) : Mute (c.archive name dest) := by
  by_cases good : dest.shownEndsWith archiveSuffix
  · rw [c.archive_eq name good]
    exact c.mute_record_request _ _ _
  · rw [c.archive_bad_eq name good]
    exact keeps_give _

theorem mute_addEach (c : Client σ) (name : String) (markers : List Marker) :
    Mute (c.addEach name markers) := by
  induction markers with
  | nil => exact keeps_give (.ok ())
  | cons m rest ih => exact ((c.mute_request _ _).map _).bind fun _ => ih

theorem mute_addMarkers (c : Client σ) (name : String) (markers : List (Timestamp × String)) :
    Mute (c.addMarkers name markers) :=
  Keeps.bind (keeps_give _) fun _ => (mute_record _).bind fun _ => c.mute_addEach name _

theorem mute_metrics (c : Client σ) (name : String) (start? stop? : Option Timestamp) :
    Mute (c.metrics name start? stop?) := by
  refine Keeps.bind (keeps_give _) fun a => Keeps.bind (keeps_give _) fun b => ?_
  refine Keeps.withScratch (fun _ _ _ => rfl) fun dump => ?_
  exact ((c.mute_request _ _).map _).bind fun _ _ => rfl

/-! ## Traces -/

/-- The step exports a trace to a path that leads to the standard output. -/
def Step.ToOutput (files : FileTree) : Step → Prop
  | .trace dest _ _ => files.leadsToOutput dest = true
  | _ => False

/-- These lines of a trace can be what the step has written to the standard output: there are none
unless it exports a trace that way. -/
structure Step.Writes (files : FileTree) (step : Step) (lines : List (List Char)) : Prop where
  each : ∀ line ∈ lines, Trace.IsLine line
  toOutput : lines ≠ [] → step.ToOutput files

theorem Step.writes_nil (files : FileTree) (step : Step) : step.Writes files [] :=
  ⟨fun _ hline => absurd hline List.not_mem_nil, fun h => absurd rfl h⟩

theorem leadsToOutput_iff {files : FileTree} {dest : Path} {a : Address}
    (opened : files.fileToWrite dest = .ok a) :
    files.leadsToOutput dest = true ↔ files.node? a = some .output := by
  simp [leadsToOutput, opened]

/-- What is received at a destination is shown exactly if the destination leads to the standard
output. -/
theorem Received.shown_iff {files after : FileTree} {dest : Path} {a : Address} {text : List Char}
    {shown : String} (h : Received files dest a text after shown)
    (opened : files.fileToWrite dest = .ok a) :
    files.leadsToOutput dest = true ∧ shown = String.ofList text
      ∨ files.leadsToOutput dest ≠ true ∧ shown = "" := by
  cases h with
  | held file => exact .inr ⟨fun h => file ((leadsToOutput_iff opened).mp h), rfl⟩
  | shown output => exact .inl ⟨(leadsToOutput_iff opened).mpr output, rfl⟩

/-- What an export has shown is lines of a trace, and if it succeeds all of them. -/
theorem Left.writes {files after : FileTree} {dest : Path} {rows : Scratch} {reply : Reply}
    {r : Except ClientError Nat} {shown : String} (h : Left files dest rows reply r after shown)
    (absent : files.node? rows.address = none) (name pattern : String) :
    ∃ lines, shown = String.ofList lines.flatten ∧ (Step.trace dest name pattern).Writes files lines
      ∧ ∀ count, r = .ok count → files.leadsToOutput dest = true → lines.length = count := by
  have hnone := Step.writes_nil files (.trace dest name pattern)
  cases h with
  | failed => exact ⟨[], rfl, hnone, nofun⟩
  | removed => exact ⟨[], rfl, hnone, nofun⟩
  | notCreated => exact ⟨[], rfl, hnone, nofun⟩
  | @written _ _ a lines _ _ _ _ opened _ _ each received =>
      rcases received.shown_iff opened with ⟨output, rfl⟩ | ⟨file, rfl⟩
      · exact ⟨lines, rfl, ⟨each, fun _ => output⟩, fun _ hr _ => Except.ok.inj hr⟩
      · exact ⟨[], rfl, hnone, fun _ _ output => absurd output file⟩
  | @stopped _ _ a _ _ _ lines _ _ _ _ _ opened _ _ _ each _ received =>
      rcases received.shown_iff opened with ⟨output, rfl⟩ | ⟨file, rfl⟩
      · exact ⟨lines, rfl, ⟨each, fun _ => output⟩, nofun⟩
      · exact ⟨[], rfl, hnone, nofun⟩
  -- The destination is the file of the rows, which is new, so it is not the standard output.
  | itself _ _ opened =>
      refine ⟨[], rfl, hnone, fun _ _ output => ?_⟩
      rw [leadsToOutput_iff opened, absent] at output
      cases output

/-- **What an export of a trace prints.** -/
theorem trace_writes (c : Client σ) (dest : Path) (name pattern : String) (s : Session σ) :
    ∃ lines, (exec (c.trace dest name pattern) s).2.printed
        = s.printed ++ String.ofList lines.flatten
      ∧ (Step.trace dest name pattern).Writes s.files lines
      ∧ ∀ count, (exec (c.trace dest name pattern) s).1 = .ok count →
        s.files.leadsToOutput dest = true → lines.length = count := by
  have hend := c.trace_exported dest name pattern s
  generalize exec (c.trace dest name pattern) s = ending at hend ⊢
  obtain ⟨result, after⟩ := ending
  cases hend with
  | notMade => exact ⟨[], String.append_empty.symm, Step.writes_nil _ _, nofun⟩
  | called opened _ _ left printed =>
      obtain ⟨-, -, absent, -⟩ := makeScratch_eq_ok opened
      obtain ⟨lines, rfl, writes, all⟩ := left.writes absent name pattern
      exact ⟨lines, printed, writes, all⟩

/-- **What a step prints** is lines of a trace that goes to the standard output, and nothing else. -/
theorem perform_writes (c : Client σ) (step : Step) (s : Session σ) :
    ∃ lines, (exec (c.perform step) s).2.printed = s.printed ++ String.ofList lines.flatten
      ∧ step.Writes s.files lines
      ∧ ∀ count, (exec (c.perform step) s).1 = .ok (.samples count) → step.ToOutput s.files →
        lines.length = count := by
  -- Only an export of a trace is able to print; for it the lines are known from its end.
  have quiet : ¬ step.ToOutput s.files → Mute (c.perform step) →
      ∃ lines, (exec (c.perform step) s).2.printed = s.printed ++ String.ofList lines.flatten
        ∧ step.Writes s.files lines
        ∧ ∀ count, (exec (c.perform step) s).1 = .ok (.samples count) → step.ToOutput s.files →
          lines.length = count := fun elsewhere mute =>
    ⟨[], (mute s).trans String.append_empty.symm, step.writes_nil _,
      fun _ _ output => absurd output elsewhere⟩
  cases step with
  | start => exact quiet id ((c.mute_record_request _ _ _).map _)
  | stop => exact quiet id ((c.mute_record_request _ _ _).map _)
  | archive name dest => exact quiet id ((c.mute_archive name dest).map _)
  | csv => exact quiet id ((c.mute_record_request _ _ _).map _)
  | addMarkers name markers => exact quiet id ((c.mute_addMarkers name markers).map _)
  | metrics name start? stop? => exact quiet id ((c.mute_metrics name start? stop?).map _)
  | channels name =>
      exact quiet id (((c.mute_metrics name none none).bind fun _ => keeps_give (.ok _)).map _)
  | trace dest name pattern =>
      obtain ⟨lines, printed, writes, all⟩ := c.trace_writes dest name pattern s
      refine ⟨lines, ?_, writes, fun count hcount => ?_⟩
      · rw [perform, exec_map]
        exact printed
      · rw [perform, exec_map] at hcount
        obtain ⟨n, hn, hsamples⟩ := map_eq_ok.mp hcount
        obtain rfl := Given.samples.inj hsamples
        exact all n hn
  | listDevices => exact quiet id ((c.mute_request _ _).map _)
  | monitor => exact quiet id (((mute_record _).bind fun _ => c.mute_request _ _).map _)
  | run tokens limit => exact quiet id ((c.mute_runWith none tokens limit).map _)

end Client

end PowerBench
