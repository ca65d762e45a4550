import PowerBench.Proofs.Rows
import PowerBench.Proofs.Transcript

set_option autoImplicit false

/-! # What an export of a trace leaves behind

The rows of a trace come through a scratch file. The destination is opened after them, so it is as
it was unless the call has succeeded and has left rows; from then on it holds the converted lines
and nothing else (`Left`). If it is the standard output, the lines are shown there instead. The scratch
file is gone in every case (`Left.content`).
-/

namespace PowerBench

open FileTree Operation Session

variable {σ : Type}

namespace Client

/-- The call that exports one channel. -/
def traceCall (c : Client σ) (name pattern : String) (rows : Path) : Call where
  program := c.binary
  args := ["--port", toString c.service] ++ (Request.csv [pattern] name rows).tokens c.config
  limit := c.limits.transfer

/-! ## What is left -/

/-- What becomes of a text that is written to a destination opened at `a`: a file holds it and nothing
else, and the standard output shows it. -/
inductive Received (files : FileTree) (dest : Path) (a : Address) (text : List Char)
    (after : FileTree) : String → Prop where
  | held (file : files.node? a ≠ some .output)
      (replaced : after.content dest = .ok (Utf8.encodeChars text))
      (untouched : SameBut [a] files after) : Received files dest a text after ""
  | shown (output : files.node? a = some .output) (untouched : SameBut [] files after) :
      Received files dest a text after (String.ofList text)

/-- How an export of a trace ends once its call has been replied to, by what the call did to the
file of its rows and where the destination leads; the last index is what the standard output has been
given. -/
inductive Left (files : FileTree) (dest : Path) (rows : Scratch) (reply : Reply) :
    Except ClientError Nat → FileTree → String → Prop where
  /-- The call has failed. -/
  | failed {e : ClientError} {after : FileTree} (failure : reply.result = .error e)
      (untouched : SameBut [] files after) : Left files dest rows reply (.error e) after ""
  /-- The call has removed the rows. -/
  | removed {f : Finished} {after : FileTree} (success : reply.result = .ok f)
      (gone : reply.file.content? = none) (untouched : SameBut [] files after) :
      Left files dest rows reply (.error (.io .missing)) after ""
  /-- The destination cannot be created. -/
  | notCreated {f : Finished} {bytes : Bytes} {why cause : IoFault} {after : FileTree}
      (success : reply.result = .ok f) (found : reply.file.content? = some bytes)
      (closed : files.fileToWrite dest = .error why) (untouched : SameBut [] files after) :
      Left files dest rows reply (.error (.io cause)) after ""
  /-- All rows are good. -/
  | written {f : Finished} {bytes : Bytes} {a : Address} {lines : List (List Char)}
      {after : FileTree} {shown : String} (success : reply.result = .ok f)
      (found : reply.file.content? = some bytes) (opened : files.fileToWrite dest = .ok a)
      (apart : a ≠ rows.address) (all : Trace.Converted (Trace.rowsOf bytes false) lines)
      (each : ∀ line ∈ lines, Trace.IsLine line)
      (received : Received files dest a lines.flatten after shown) :
      Left files dest rows reply (.ok lines.length) after shown
  /-- A row is bad. -/
  | stopped {f : Finished} {bytes : Bytes} {a : Address} {good rest : List Trace.Row}
      {bad : Trace.Row} {lines : List (List Char)} {fault : Trace.Fault} {after : FileTree}
      {shown : String} (success : reply.result = .ok f) (found : reply.file.content? = some bytes)
      (opened : files.fileToWrite dest = .ok a) (apart : a ≠ rows.address)
      (split : Trace.rowsOf bytes false = good ++ bad :: rest)
      (before : Trace.Converted good lines) (each : ∀ line ∈ lines, Trace.IsLine line)
      (first : bad.convert = .error fault)
      (received : Received files dest a lines.flatten after shown) :
      Left files dest rows reply (.error (.ofTrace fault)) after shown
  /-- The destination is the file of the rows itself, which opening empties. -/
  | itself {f : Finished} {bytes : Bytes} {after : FileTree} (success : reply.result = .ok f)
      (found : reply.file.content? = some bytes)
      (opened : files.fileToWrite dest = .ok rows.address) (untouched : SameBut [] files after) :
      Left files dest rows reply (.ok 0) after ""

/-- How an export of a trace ends: without a call where no scratch file can be made, and after one
call otherwise. -/
inductive Exported (c : Client σ) (dest : Path) (name pattern : String) (s : Session σ) :
    Except ClientError Nat → Session σ → Prop where
  | notMade {cause : IoFault} (closed : s.makeScratch .rows = .error cause) :
      Exported c dest name pattern s (.error (.io cause)) s
  | called {rows : Scratch} {made after : Session σ} {result : Except ClientError Nat}
      {shown : String} (opened : s.makeScratch .rows = .ok (rows, made))
      (calls : after.calls = s.calls ++ [c.traceCall name pattern rows.path])
      (state : after.state
        = (c.instrument made.files (c.traceCall name pattern rows.path) s.state).2)
      (left : Left s.files dest rows (made.answer c.instrument (c.traceCall name pattern rows.path))
        result after.files shown)
      (printed : after.printed = s.printed ++ shown) :
      Exported c dest name pattern s result after

/-! ## Converting what the call has left -/

/-- Opening the destination while the file of the rows is there leads where it leads without. -/
theorem fileToWrite_affect {files : FileTree} {rows : Scratch}
    (there : files.node? scratchDirectory = some .directory)
    (absent : files.node? rows.address = none) (effect : FileEffect) (dest : Path) (a : Address) :
    (affect (files.put rows.address (.file [])) rows.path effect).fileToWrite dest = .ok a
      ↔ files.fileToWrite dest = .ok a := by
  have hdirs : SameDirectories files
      (affect (files.put rows.address (.file [])) rows.path effect) := by
    refine (sameBut_asked rows there effect).directories (by simp [absent]) ?_
    rw [node?_affect there]
    cases effect <;> simp [FileEffect.content?]
  exact ⟨hdirs.symm.fileToWrite, hdirs.fileToWrite⟩

/-- Writing a text to the destination, and erasing the file of the rows. -/
theorem received_write {files t : FileTree} {rows : Scratch} {dest : Path} {a : Address}
    (same : SameBut [rows.address] files t) (absent : files.node? rows.address = none)
    (opened : files.fileToWrite dest = .ok a) (apart : a ≠ rows.address) (text : List Char) :
    Received files dest a text
      (((t.write a []).write a (Utf8.encodeChars text)).erase rows.address)
      (if (t.write a []).node? a = some .output then String.ofList text else "") := by
  have ha : a ≠ [] := fileToWrite_ne_nil opened
  have hnode : t.node? a = files.node? a := same.node a (by simpa using apart)
  by_cases houtput : t.node? a = some .output
  · have hempty : t.write a [] = t := write_output houtput _
    rw [hempty, write_output houtput, if_pos houtput]
    exact .shown (hnode ▸ houtput) (sameBut_erased same absent)
  · have hstill : (t.write a []).node? a ≠ some .output := fun h =>
      houtput ((node?_write_output t ha _).mp h)
    rw [if_neg hstill, write_file hstill, write_file houtput]
    have hwritten : (((t.put a (.file [])).put a (.file (Utf8.encodeChars text))).erase
        rows.address).node? a = some (.file (Utf8.encodeChars text)) := by
      rw [node?_erase_other _ apart, node?_put_self _ _ _ ha]
    have hbut : SameBut [a] files
        (((t.put a (.file [])).put a (.file (Utf8.encodeChars text))).erase rows.address) := by
      refine SameBut.erase ?_ absent rows.address_ne_nil
      exact ((same.trans (sameBut_put _ _ _)).trans (sameBut_put _ _ _)).mono (by simp)
    obtain ⟨_, _, -, -, -, -, hnodir⟩ := (fileToWrite_eq_ok_iff files dest a).mp opened
    have hdirs := hbut.directories hnodir (by simp [hwritten])
    exact .held (hnode ▸ houtput) (content_of_fileToWrite (hdirs.fileToWrite opened) hwritten) hbut

/-- Converting what the call has left in the file of the rows, and erasing that file. -/
theorem left_convertTo {files : FileTree} {rows : Scratch} {reply : Reply} {f : Finished}
    {s : Session σ} (there : files.node? scratchDirectory = some .directory)
    (absent : files.node? rows.address = none) (success : reply.result = .ok f)
    (hfiles : s.files = affect (files.put rows.address (.file [])) rows.path reply.file)
    (dest : Path) :
    ∃ shown, (exec (convertTo rows.path dest) s).2.printed = s.printed ++ shown
      ∧ Left files dest rows reply (exec (convertTo rows.path dest) s).1
        ((exec (convertTo rows.path dest) s).2.files.erase rows.address) shown := by
  have hsame : SameBut [rows.address] files s.files := by
    rw [hfiles]
    exact sameBut_asked rows there reply.file
  have hwrite : ∀ a, s.files.fileToWrite dest = .ok a ↔ files.fileToWrite dest = .ok a := by
    intro a
    rw [hfiles]
    exact fileToWrite_affect there absent reply.file dest a
  have hread := fileToRead_affect rows there reply.file
  have hquiet : s.printed = s.printed ++ "" := String.append_empty.symm
  rw [← hfiles] at hread
  rw [exec_convertTo, hread]
  cases hfound : reply.file.content? with
  | none => exact ⟨"", hquiet, .removed success hfound (sameBut_erased hsame absent)⟩
  | some bytes =>
      have hnode : s.files.node? rows.address = some (.file bytes) := by
        rw [hfiles, node?_affect there, hfound]
        rfl
      simp only [openToReplace]
      cases hopen : s.files.fileToWrite dest with
      | error cause =>
          cases hbefore : files.fileToWrite dest with
          | error why =>
              exact ⟨"", hquiet, .notCreated success hfound hbefore (sameBut_erased hsame absent)⟩
          | ok a =>
              rw [(hwrite a).mpr hbefore] at hopen
              cases hopen
      | ok a =>
          have hbefore := (hwrite a).mp hopen
          have ha : a ≠ [] := fileToWrite_ne_nil hbefore
          dsimp only [Session.write]
          by_cases hself : a = rows.address
          · -- The destination is the file of the rows: they are gone before they are read.
            subst hself
            have hfile : s.files.node? rows.address ≠ some .output := by simp [hnode]
            have hempty : (s.files.write rows.address []).node? rows.address = some (.file []) := by
              rw [write_file hfile, node?_put_self _ _ _ ha]
            have hstill : (s.files.write rows.address []).node? rows.address ≠ some .output := by
              simp [hempty]
            have hconvert : Trace.convert [] false {} = (.ok 0, {}) := rfl
            have hcontent : (s.files.write rows.address []).contentAt? rows.address = some [] := by
              simp [contentAt?, hempty]
            rw [hcontent, Option.getD_some, hconvert, if_neg hstill]
            refine ⟨"", hquiet, .itself success hfound hbefore (sameBut_erased ?_ absent)⟩
            exact ((hsame.trans (sameBut_write _ _ _)).trans (sameBut_write _ _ _)).mono (by simp)
          · have hrows : (s.files.write a []).contentAt? rows.address = some bytes := by
              have hkept := (sameBut_write s.files a []).node rows.address
                (by simpa using Ne.symm hself)
              simp [contentAt?, hkept, hnode]
            rw [hrows, Option.getD_some, Trace.convert_eq]
            have hreceived := received_write hsame absent hbefore hself
            have hprinted : ∀ text : List Char,
                (if (s.files.write a []).node? a = some .output then s.printed ++ String.ofList text
                  else s.printed)
                = s.printed ++ if (s.files.write a []).node? a = some .output then String.ofList text
                  else "" := by
              intro text
              split
              · rfl
              · exact hquiet
            refine ⟨_, hprinted _, ?_⟩
            rcases Trace.writeRows_ample (Trace.rowsOf bytes false) 0 {} ⟨rfl, rfl⟩ with
              ⟨lines, hall, hrun⟩ | ⟨good, bad, rest, lines, fault, hsplit, hgood, hbad, hrun⟩
            · have hlines : (Trace.Sink.adding lines {}).written = lines.flatten :=
                Trace.Sink.written_adding lines {}
              rw [hrun, hlines, Nat.zero_add]
              exact .written success hfound hbefore hself hall hall.isLine (hreceived _)
            · have hlines : (Trace.Sink.adding lines {}).written = lines.flatten :=
                Trace.Sink.written_adding lines {}
              rw [hrun, hlines]
              exact .stopped success hfound hbefore hself hsplit hgood hgood.isLine hbad
                (hreceived _)

/-! ## The whole export -/

/-- The call of an export, on the session with its scratch file. -/
theorem exec_csv_rows (c : Client σ) (rows : Scratch) (name pattern : String) (s : Session σ) :
    ∃ after, exec (c.csv [pattern] name rows.path) s
        = ((s.answer c.instrument (c.traceCall name pattern rows.path)).result.map fun _ => (),
            after)
      ∧ after.files = affect s.files rows.path
          (s.answer c.instrument (c.traceCall name pattern rows.path)).file
      ∧ after.calls = s.calls ++ [c.traceCall name pattern rows.path]
      ∧ after.state = (c.instrument s.files (c.traceCall name pattern rows.path) s.state).2
      ∧ after.printed = s.printed := by
  have names : (Request.csv [pattern] name rows.path).file? = some rows.path :=
    congrArg some rows.told_path
  rw [csv, exec_bind, exec_record]
  exact c.exec_request_file names .transfer (s.noted _)

/-- An export that has made its scratch file makes one call, and ends by what that has left. -/
theorem trace_called (c : Client σ) (dest : Path) (name pattern : String) {s made : Session σ}
    {rows : Scratch} (hmade : s.makeScratch .rows = .ok (rows, made)) :
    (exec (c.trace dest name pattern) s).2.calls
        = s.calls ++ [c.traceCall name pattern rows.path]
      ∧ (exec (c.trace dest name pattern) s).2.state
        = (c.instrument made.files (c.traceCall name pattern rows.path) s.state).2
      ∧ ∃ shown, (exec (c.trace dest name pattern) s).2.printed = s.printed ++ shown
        ∧ Left s.files dest rows (made.answer c.instrument (c.traceCall name pattern rows.path))
          (exec (c.trace dest name pattern) s).1 (exec (c.trace dest name pattern) s).2.files
          shown := by
  obtain ⟨-, there, absent, hsession⟩ := makeScratch_eq_ok hmade
  have hfiles : made.files = s.files.put rows.address (.file []) := by rw [hsession]
  have hcalls : made.calls = s.calls := by rw [hsession]
  have hstate : made.state = s.state := by rw [hsession]
  have hprinted : made.printed = s.printed := by rw [hsession]
  obtain ⟨after, hcall, afterFiles, afterCalls, afterState, afterPrinted⟩ :=
    c.exec_csv_rows rows name pattern made
  rw [hfiles] at afterFiles
  rw [hcalls] at afterCalls
  rw [hstate] at afterState
  rw [hprinted] at afterPrinted
  unfold trace
  rw [exec_withScratch, hmade]
  dsimp only
  rw [exec_bind, hcall]
  cases hreply : (made.answer c.instrument (c.traceCall name pattern rows.path)).result with
  | error e =>
      have hsame := sameBut_asked rows there
        (made.answer c.instrument (c.traceCall name pattern rows.path)).file
      rw [← afterFiles] at hsame
      exact ⟨afterCalls, afterState, "", afterPrinted.trans String.append_empty.symm,
        .failed hreply (sameBut_erased hsame absent)⟩
  | ok f =>
      obtain ⟨shown, hshown, hleft⟩ := left_convertTo there absent hreply afterFiles dest
      have hsilent : Silent (σ := σ) (convertTo rows.path dest) := silent_convertTo rows.path dest
      have hcalls' := hsilent.calls after
      have hstate' := hsilent.state after
      rw [afterPrinted] at hshown
      dsimp only [Except.map]
      rw [exec_bind]
      -- The last log entry changes neither the result nor the files.
      rcases hconv : exec (convertTo rows.path dest) after with ⟨e | samples, last⟩
      · rw [hconv] at hleft hstate' hcalls' hshown
        exact ⟨hcalls'.trans afterCalls, hstate'.trans afterState, shown, hshown, hleft⟩
      · rw [hconv] at hleft hstate' hcalls' hshown
        exact ⟨hcalls'.trans afterCalls, hstate'.trans afterState, shown, hshown, hleft⟩

/-- **Exporting a trace.** There is exactly one call, unless no scratch file can be made, and the
destination is left alone, or holds the lines of the rows up to the first bad one and nothing of
what it held before; a destination that is the standard output shows those lines. -/
theorem trace_exported (c : Client σ) (dest : Path) (name pattern : String) (s : Session σ) :
    Exported c dest name pattern s (exec (c.trace dest name pattern) s).1
      (exec (c.trace dest name pattern) s).2 := by
  cases hmade : s.makeScratch .rows with
  | error cause =>
      have hexec : exec (c.trace dest name pattern) s = (.error (.io cause), s) := by
        rw [trace, exec_withScratch, hmade]
      rw [hexec]
      exact .notMade hmade
  | ok pair =>
      obtain ⟨hcalls, hstate, shown, hprinted, hleft⟩ := c.trace_called dest name pattern hmade
      exact .called hmade hcalls hstate hleft hprinted

/-! ## The file of the rows -/

/-- A text that is written changes at most the file that has been opened. -/
theorem Received.sameBut {files after : FileTree} {dest : Path} {a : Address} {text : List Char}
    {shown : String} (h : Received files dest a text after shown) : SameBut [a] files after := by
  cases h with
  | held _ _ same => exact same
  | shown _ same => exact same.mono (by simp)

/-- However an export ends, it has changed at most the destination that it has opened. -/
theorem Left.sameBut {files after : FileTree} {dest : Path} {rows : Scratch} {reply : Reply}
    {r : Except ClientError Nat} {shown : String} (h : Left files dest rows reply r after shown) :
    ∃ as, SameBut as files after
      ∧ ∀ a ∈ as, files.fileToWrite dest = .ok a ∧ a ≠ rows.address := by
  cases h with
  | failed _ same => exact ⟨[], same, by simp⟩
  | removed _ _ same => exact ⟨[], same, by simp⟩
  | notCreated _ _ _ same => exact ⟨[], same, by simp⟩
  | written _ _ opened apart _ _ received => exact ⟨[_], received.sameBut, by simp [opened, apart]⟩
  | stopped _ _ opened apart _ _ _ _ received =>
      exact ⟨[_], received.sameBut, by simp [opened, apart]⟩
  | itself _ _ _ same => exact ⟨[], same, by simp⟩

/-- However an export ends, the file of its rows is gone. -/
theorem Left.content {files after : FileTree} {dest : Path} {rows : Scratch} {reply : Reply}
    {r : Except ClientError Nat} {shown : String} (h : Left files dest rows reply r after shown)
    (there : files.node? scratchDirectory = some .directory)
    (absent : files.node? rows.address = none) : after.content rows.path = .error .missing := by
  obtain ⟨as, same, opened⟩ := h.sameBut
  -- The destination is neither the directory of the file nor the file itself.
  have hdirectory : scratchDirectory ∉ as := by
    intro hmem
    obtain ⟨_, _, -, -, -, -, hnodir⟩ :=
      (fileToWrite_eq_ok_iff files dest _).mp (opened _ hmem).1
    exact hnodir there
  have hrows : rows.address ∉ as := fun hmem => (opened _ hmem).2 rfl
  rw [FileTree.content, rows.fileToRead (by rw [same.node _ hdirectory, there]),
    same.node _ hrows, absent]
  rfl

end Client

end PowerBench
