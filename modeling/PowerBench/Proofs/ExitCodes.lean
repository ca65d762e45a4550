import PowerBench.Log.Directive
import PowerBench.Proofs.Tasks

set_option autoImplicit false

/-! # Exit codes

An exit code is logged and nothing else is made of it. Two instruments that differ in exit codes keep
step, as two scripts do whose answers agree in all but these (`keepsStep_scripted`), and so do the
instruments when they keep their calls (`keepsStep_recording`). Then whole sessions and whole runs of
the program cannot be told apart (`exit_codes_unseen`): neither by the calls and their limits, nor by
a result, a file or what is printed.
-/

namespace PowerBench

open Operation

variable {σ τ υ : Type} {R : σ → τ → Prop}

/-! ## Instruments that differ in exit codes -/

/-- The answers agree in all but the exit code. -/
structure Answer.SameButExit (a a' : Answer) : Prop where
  failure : a'.failure? = a.failure?
  file : a'.file = a.file
  output : a'.output = a.output

theorem Answer.SameButExit.reply {a a' : Answer} (h : a.SameButExit a') (c : Call) :
    (a.reply c).SameButExit (a'.reply c) := by
  obtain ⟨failure, file, output⟩ := h
  unfold Answer.reply
  rw [failure]
  cases a.failure? with
  | some f => exact ⟨rfl, rfl⟩
  | none =>
      refine ⟨?_, file⟩
      show Except.ok a'.output = Except.ok a.output
      rw [output]

/-- Scripts whose answers agree in all but exit codes keep step, however they end. -/
theorem keepsStep_scripted {fallback fallback' : Answer} (h : fallback.SameButExit fallback') :
    Instrument.KeepsStep (List.Forall₂ Answer.SameButExit) id (.scripted fallback)
      (.scripted fallback') := by
  constructor
  · rintro files c answers answers' (_ | ⟨ha, hrest⟩)
    · exact h.reply c
    · exact ha.reply c
  · rintro files c answers answers' (_ | ⟨ha, hrest⟩)
    · exact .nil
    · exact hrest

theorem keepsStep_recording {i : Instrument σ} {j : Instrument τ}
    (keeps : Instrument.KeepsStep R id i j) :
    Instrument.KeepsStep (fun kept kept' => kept'.1 = kept.1 ∧ R kept.2 kept'.2) id i.recording
      j.recording := by
  constructor
  · rintro files c kept kept' ⟨-, related⟩
    exact keeps.reply files c _ _ related
  · rintro files c kept kept' ⟨calls, related⟩
    refine ⟨?_, keeps.state files c _ _ related⟩
    show kept'.1 ++ [id c] = kept.1 ++ [c]
    rw [calls]
    rfl

namespace Client

def on (c : Client υ) (i : Instrument σ) : Client σ :=
  { binary := c.binary, service := c.service, config := c.config, limits := c.limits
    instrument := i }

/-- Two sessions with instruments that keep step consist of the same rounds. -/
theorem rounds_on {i : Instrument σ} {j : Instrument τ} (keeps : Instrument.KeepsStep R id i j)
    (c : Client υ) (steps : List Step) {s : Session σ} {s' : Session τ} (alike : s.Alike R s') :
    (c.on j).rounds steps s' = (c.on i).rounds steps s
      ∧ ((c.on i).performAll steps s).2.Alike R ((c.on j).performAll steps s').2 := by
  have each : ∀ step ∈ steps, InStep R id ((c.on i).perform step) ((c.on j).perform step) :=
    fun step _ => perform_inStep keeps ⟨fun _ _ _ => rfl, fun _ _ _ => rfl⟩
  obtain ⟨hrounds, halike⟩ := performAll_inStep (fun _ => id) steps each alike
  exact ⟨hrounds.trans (zipWith_under_id steps _ (length_rounds _ steps s)), halike⟩

/-- A listing of devices and a dump of metrics, with exit codes. -/
def listingAndDump (listing? dump? : Option Int) : List Answer :=
  [{ output := "one", exitCode? := listing? },
    { file := .write (Utf8.encode "data: []"), exitCode? := dump? }]

end Client

end PowerBench
