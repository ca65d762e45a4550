import PowerBench.Proofs.Conduct
import PowerBench.Proofs.LossyText
import PowerBench.Proofs.RequestTokens

set_option autoImplicit false

/-! # Destinations of exports

An export is told where to write by one token of its call, the shown text of its destination. The
ending of archives is looked for in this text as well, which comes down to the last bytes of the
destination (`archive_call_iff`). As long as a destination is a text, the token names it and no other
file; of any other bytes it names another file, which several destinations may share
(`destination_told`).
-/

namespace PowerBench.Client

open Operation Session

variable {σ : Type}

/-! ## Exports -/

/-- An export to a destination: the archive of a collection, or channels as comma-separated text. -/
inductive Export where
  | archive (name : String) (dest : Path)
  | csv (channels : List String) (name : String) (dest : Path)
deriving Repr

namespace Export

def dest : Export → Path
  | .archive _ dest => dest
  | .csv _ _ dest => dest

def request : Export → Request
  | .archive name dest => .archive name dest
  | .csv channels name dest => .csv channels name dest

def perform (c : Client σ) : Export → Operation σ Unit
  | .archive name dest => c.archive name dest
  | .csv channels name dest => c.csv channels name dest

/-- Archives are accepted where the bytes of the destination end like those of archives. -/
def Accepted : Export → Prop
  | .archive _ dest => Utf8.encode archiveSuffix <:+ dest.bytes
  | .csv _ _ _ => True

/-- The call of the export with a token for its destination. -/
def call (c : Client σ) (token : String) : Export → Call
  | .archive name _ =>
    { program := c.binary
      args := ["--port", toString c.service, "--name", name, "--ignore_gaps", "--export",
        "--export_path", token]
      limit := c.limits.transfer }
  | .csv channels name _ =>
    { program := c.binary
      args := ["--port", toString c.service, "--name", name, "--ignore_gaps", "--csv_rawtimestamps",
        "--channels", String.intercalate "," channels, "--export", "--export_path", token]
        ++ Request.virtualMetricsTokens c.config
      limit := c.limits.transfer }

/-- The call for the request has the shown text of the destination. -/
theorem callFor_request (c : Client σ) (x : Export) :
    c.callFor (x.request.tokens c.config) c.limits.transfer = x.call c x.dest.shown := by
  cases x <;> rfl

end Export

/-! ## The ending of archives -/

theorem shownEndsWith_archiveSuffix (dest : Path) :
    dest.shownEndsWith archiveSuffix = true ↔ Utf8.encode archiveSuffix <:+ dest.bytes :=
  dest.shownEndsWith_iff (ascii_of_all (by decide))

theorem exec_record_request (c : Client σ) (e : Log.Entry) {r : Request} {p : Path}
    (names : r.file? = some p) (k : LimitClass) (s : Session σ) :
    (exec (record e >>= fun _ => discard (c.request r k)) s).2.calls = s.calls ++ [c.callOf r k]
      ∧ (exec (record e >>= fun _ => discard (c.request r k)) s).2.files
        = affect s.files p (s.answer c.instrument (c.callOf r k)).file := by
  obtain ⟨after, hcall, files, calls, -⟩ := c.exec_request_file names k (s.noted [e])
  rw [exec_bind, exec_record]
  dsimp only
  rw [hcall]
  exact ⟨calls, files⟩

/-- An accepted export makes one call, which has the shown text of the destination. What the call does to
a file it does to the one that this text names. -/
theorem exec_export (c : Client σ) (x : Export) (accepted : x.Accepted) (s : Session σ) :
    (exec (x.perform c) s).2.calls = s.calls ++ [x.call c x.dest.shown]
      ∧ (exec (x.perform c) s).2.files = affect s.files (.ofText x.dest.shown)
          (s.answer c.instrument (x.call c x.dest.shown)).file := by
  rw [← x.callFor_request c]
  cases x with
  | archive name dest =>
      rw [Export.perform, c.archive_eq name ((shownEndsWith_archiveSuffix dest).mpr accepted)]
      exact c.exec_record_request _ rfl .transfer s
  | csv channels name dest => exact c.exec_record_request _ rfl .transfer s

theorem calls_export (c : Client σ) (x : Export) (accepted : x.Accepted) (s : Session σ) :
    (exec (x.perform c) s).2.calls = s.calls ++ [x.call c x.dest.shown] :=
  (c.exec_export x accepted s).1

/-- **Archives are known by the bytes of their ending.** An archive is exported by one call, whose
token for the destination has the ending of archives as well, exactly if the bytes of the destination
end with this ending. Otherwise, and only then, the destination is refused and nothing else happens. -/
theorem archive_call_iff (c : Client σ) (name : String) (dest : Path) (s : Session σ) :
    (Utf8.encode archiveSuffix <:+ dest.bytes ↔
        ∃ token, (exec (c.archive name dest) s).2.calls
            = s.calls ++ [(Export.archive name dest).call c token]
          ∧ archiveSuffix.toList <:+ token.toList)
      ∧ (¬ Utf8.encode archiveSuffix <:+ dest.bytes ↔
        exec (c.archive name dest) s = (.error (.badDestination dest), s)) := by
  have hmore : ∀ x : Call, s.calls ≠ s.calls ++ [x] := by
    intro x h
    simpa using congrArg List.length h
  by_cases good : Utf8.encode archiveSuffix <:+ dest.bytes
  · have hshown := (shownEndsWith_archiveSuffix dest).mpr good
    have hcalls := c.calls_export (.archive name dest) good s
    have hending : archiveSuffix.toList <:+ dest.shown.toList := List.isSuffixOf_iff_suffix.mp hshown
    refine ⟨iff_of_true good ⟨dest.shown, hcalls, hending⟩, iff_of_false (not_not_intro good) ?_⟩
    intro hrefused
    rw [Export.perform, hrefused] at hcalls
    exact hmore _ hcalls
  · have hshown := mt (shownEndsWith_archiveSuffix dest).mp good
    have hrefused : exec (c.archive name dest) s = (.error (.badDestination dest), s) := by
      rw [c.archive_bad_eq name hshown, exec_give]
    refine ⟨iff_of_false good ?_, iff_of_true good hrefused⟩
    rintro ⟨token, hcalls, -⟩
    rw [hrefused] at hcalls
    exact hmore _ hcalls

/-- The first three bytes of a character of four, cut off by the ending of archives. -/
example :
    let dest : Path := ⟨[0xF0, 0x9F, 0x92] ++ Utf8.encode archiveSuffix⟩
    (exec (timingOut.archive "c1" dest) oneAnswer).2.calls
      = [(Export.archive "c1" dest).call timingOut "\uFFFD.7z.bits"] := by
  decide +kernel

/-- **An export leaves other files alone.** Only the file that the token of its call names can be another
afterwards. -/
theorem export_sameBut (c : Client σ) (x : Export) (accepted : x.Accepted) (s : Session σ) :
    ∃ as, FileTree.SameBut as s.files (exec (x.perform c) s).2.files
      ∧ ∀ a ∈ as, s.files.fileToWrite (.ofText x.dest.shown) = .ok a := by
  rw [(c.exec_export x accepted s).2]
  exact sameBut_affect s.files _ _

/-! ## What the token says -/

/-- Exports that make the same call are told the same destination. -/
theorem shown_of_call {c : Client σ} {x y : Export}
    (h : x.call c x.dest.shown = y.call c y.dest.shown) : x.dest.shown = y.dest.shown := by
  rw [← x.callFor_request c, ← y.callFor_request c] at h
  have htokens : x.request.tokens c.config = y.request.tokens c.config :=
    (List.cons.inj (List.cons.inj (congrArg Call.args h)).2).2
  have halike := Request.alike_of_tokens htokens
  cases x with
  | archive name dest =>
      cases y with
      | archive name' dest' => exact halike.2
      | csv channels' name' dest' => exact halike.elim
  | csv channels name dest =>
      cases y with
      | archive name' dest' => exact halike.elim
      | csv channels' name' dest' => exact halike.2.2

/-- **Destinations that are texts are told byte for byte.** Every accepted export makes one call, and
the token in it names the destination exactly if the bytes of the destination are a text. Accepted
exports to such destinations do not make the same call unless they have the same destination. -/
theorem destination_told (c : Client σ) (s : Session σ) :
    (∀ x : Export, x.Accepted →
        ∃ token, (exec (x.perform c) s).2.calls = s.calls ++ [x.call c token]
          ∧ (Path.ofText token = x.dest ↔ x.dest.IsText))
      ∧ ∀ x y : Export, x.Accepted → y.Accepted → x.dest.IsText → y.dest.IsText →
        (exec (x.perform c) s).2.calls = (exec (y.perform c) s).2.calls → x.dest = y.dest := by
  refine ⟨fun x accepted => ⟨x.dest.shown, c.calls_export x accepted s, x.dest.ofText_shown_iff⟩, ?_⟩
  intro x y hx hy textx texty h
  rw [c.calls_export x hx, c.calls_export y hy, List.append_cancel_left_eq, List.singleton_inj] at h
  calc x.dest = .ofText x.dest.shown := (x.dest.ofText_shown_iff.mpr textx).symm
    _ = .ofText y.dest.shown := by rw [shown_of_call h]
    _ = y.dest := y.dest.ofText_shown_iff.mpr texty

/-- An archive and channels at paths that are texts, one with a character outside ASCII. -/
theorem destination_told_texts :
    let x := Export.archive "c1" (.ofText "ü.7z.bits")
    let y := Export.csv ["a"] "c1" (.ofText "a.csv")
    x.Accepted ∧ y.Accepted ∧ x.dest.IsText ∧ y.dest.IsText
      ∧ (∃ token, (exec (x.perform timingOut) oneAnswer).2.calls = [x.call timingOut token]
        ∧ Path.ofText token = x.dest)
      ∧ (exec (x.perform timingOut) oneAnswer).2.calls
        ≠ (exec (y.perform timingOut) oneAnswer).2.calls := by
  intro x y
  have hx : x.Accepted := by unfold x Export.Accepted; decide
  have htextx : x.dest.IsText := by decide +kernel
  have htexty : y.dest.IsText := by decide +kernel
  obtain ⟨htold, hsame⟩ := destination_told timingOut oneAnswer
  obtain ⟨token, hcalls, hnames⟩ := htold x hx
  refine ⟨hx, trivial, htextx, htexty, ⟨token, hcalls, hnames.mpr htextx⟩, fun h => ?_⟩
  exact absurd (hsame x y hx trivial htextx htexty h) (by decide)

/-- An archive at a path of one byte and the ending of archives. -/
def brokenAt (b : UInt8) : Export := .archive "c1" ⟨b :: Utf8.encode archiveSuffix⟩

/-- Two destinations, each with a byte that is part of no text, are told by one call, which names
neither of them. -/
theorem two_destinations_one_call :
    (brokenAt 0xFF).Accepted ∧ (brokenAt 0xFE).Accepted
      ∧ (brokenAt 0xFF).dest ≠ (brokenAt 0xFE).dest
      ∧ (exec ((brokenAt 0xFF).perform timingOut) oneAnswer).2.calls
        = [(brokenAt 0xFF).call timingOut "\uFFFD.7z.bits"]
      ∧ (exec ((brokenAt 0xFE).perform timingOut) oneAnswer).2.calls
        = [(brokenAt 0xFF).call timingOut "\uFFFD.7z.bits"]
      ∧ Path.ofText "\uFFFD.7z.bits" ≠ (brokenAt 0xFF).dest
      ∧ Path.ofText "\uFFFD.7z.bits" ≠ (brokenAt 0xFE).dest := by
  refine ⟨?_, ?_, ?_⟩
  · unfold brokenAt Export.Accepted; decide
  · unfold brokenAt Export.Accepted; decide
  · decide +kernel

end PowerBench.Client
