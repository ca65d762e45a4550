import PowerBench.Child.Run
import PowerBench.Proofs.Session
import PowerBench.Script

set_option autoImplicit false

/-! # Refusals

A step can refuse what it was given, for a bad destination or a bad time. Those are its own
errors: a call fails in other ways (`IsCallFailure`), and so do files, dumps and traces. Hence a
step that is past its checks never refuses, whatever the instrument does (`NeverRefuses`).
-/

namespace PowerBench

open Operation

variable {σ α β : Type}

/-- The caller is at fault: the error is about what a step was given. -/
def ClientError.IsRefusal (e : ClientError) : Prop :=
  e.category = .validation ∨ e.category = .timestamp

/-- A call has failed: it has run out of time, was not started or could not be watched. -/
def ClientError.IsCallFailure : ClientError → Prop
  | .timedOut _ _ _ => True
  | .notStarted _ _ => True
  | .io _ => True
  | _ => False

theorem ClientError.IsCallFailure.not_refusal {e : ClientError} (h : e.IsCallFailure) :
    ¬ e.IsRefusal := by
  cases e <;> simp_all [IsCallFailure, IsRefusal, category]

theorem ClientError.not_refusal_ofTrace (fault : Trace.Fault) :
    ¬ (ClientError.ofTrace fault).IsRefusal := by
  cases fault <;> simp [ofTrace, IsRefusal, category]

/-- The instrument's own errors are failures of calls. -/
def Instrument.FailsAsCall (i : Instrument σ) : Prop :=
  ∀ files c st e, (i files c st).1.result = .error e → e.IsCallFailure

theorem CallFailure.isCallFailure (failure : CallFailure) (c : Call) :
    (failure.toError c).IsCallFailure := by
  cases failure <;> trivial

theorem Answer.isCallFailure {a : Answer} {c : Call} {e : ClientError}
    (h : (a.reply c).result = .error e) : e.IsCallFailure := by
  unfold Answer.reply at h
  split at h
  · obtain rfl := Except.error.inj h
    exact CallFailure.isCallFailure _ c
  · cases h

theorem failsAsCall_scripted (fallback : Answer) :
    (Instrument.scripted fallback).FailsAsCall := by
  intro files c answers e h
  cases answers with
  | nil => exact Answer.isCallFailure h
  | cons a rest => exact Answer.isCallFailure h

theorem failsAsCall_answering (f : Call → Answer) : (Instrument.answering f).FailsAsCall :=
  fun _ _ _ _ h => Answer.isCallFailure h

theorem Child.System.isCallFailure {sys : Child.System σ} {poll : Duration} {pid : Child.ProcessId}
    {c : Call} {before after : σ} {e : ClientError} {log : List Log.Entry}
    (h : sys.run poll pid c before = some ((.error e, log), after)) : e.IsCallFailure := by
  rw [run, Child.Course.bind_apply] at h
  obtain ⟨⟨seen, s⟩, -, h⟩ := Option.bind_eq_some_iff.mp h
  rcases seen with (_ | cause) | status
  · cases h
    trivial
  · cases h
    trivial
  · rw [conclude_exited] at h
    split at h
    · cases h
      trivial
    · cases h

theorem failsAsCall_child (poll : Duration) (launch : FileTree → Call → σ → Child.Launch × σ) :
    (Child.instrument poll launch).FailsAsCall := by
  intro files c st e h
  have hrun : (Child.run poll 0 (launch files c st).1.started c).1 = .error e := h
  unfold Child.run at hrun
  split at hrun
  · obtain rfl := Except.error.inj hrun
    trivial
  · rename_i b _
    obtain ⟨⟨⟨result, log⟩, last⟩, hends⟩ :=
      Option.isSome_iff_exists.mp (b.isSome_run poll 0 c)
    simp only [hends, Option.get_some] at hrun
    obtain rfl : result = .error e := hrun
    exact Child.System.isCallFailure hends

/-! ## Steps past their checks -/

/-- The step never ends with a refusal. -/
def NeverRefuses (op : Operation σ α) : Prop :=
  ∀ s e, (exec op s).1 = .error e → ¬ e.IsRefusal

theorem neverRefuses_record (e : Log.Entry) : NeverRefuses (σ := σ) (record e) := by
  intro s e' h
  cases h

theorem NeverRefuses.bind {op : Operation σ α} {f : α → Operation σ β} (h : NeverRefuses op)
    (h' : ∀ a, NeverRefuses (f a)) : NeverRefuses (op >>= f) := by
  intro s e he
  rw [exec_bind] at he
  rcases hop : exec op s with ⟨e' | a, s'⟩
  · rw [hop] at he
    obtain rfl : e' = e := Except.error.inj he
    exact h s e' (by rw [hop])
  · rw [hop] at he
    exact h' a s' e he

theorem NeverRefuses.map {op : Operation σ α} (h : NeverRefuses op) (f : α → β) :
    NeverRefuses (f <$> op) := by
  intro s e he
  rw [exec_map, map_eq_error] at he
  exact h s e he

theorem NeverRefuses.withScratch {kind : Session.ScratchKind}
    {body : Session.Scratch → Operation σ α} (h : ∀ scratch, NeverRefuses (body scratch)) :
    NeverRefuses (Operation.withScratch kind body) := by
  intro s e he
  rw [exec_withScratch] at he
  cases hmade : s.makeScratch kind with
  | error cause =>
      rw [hmade] at he
      obtain rfl := Except.error.inj he
      exact ClientError.IsCallFailure.not_refusal trivial
  | ok made =>
      rw [hmade] at he
      exact h made.1 made.2 e he

namespace Client

theorem neverRefuses_runWith {c : Client σ} (runner : c.instrument.FailsAsCall)
    (file? : Option Path) (tokens : List String) (limit : Duration) :
    NeverRefuses (c.runWith file? tokens limit) := by
  intro s e he
  rw [exec_runWith] at he
  cases hr : (s.answer c.instrument (c.callFor tokens limit)).result with
  | error e' =>
      rw [hr] at he
      obtain rfl : e' = e := Except.error.inj he
      exact (runner _ _ _ _ hr).not_refusal
  | ok f => rw [hr] at he; cases he

theorem neverRefuses_convertTo (source dest : Path) :
    NeverRefuses (σ := σ) (convertTo source dest) := by
  intro s e he
  rw [exec_convertTo] at he
  have hio : ∀ cause, ¬ (ClientError.io cause).IsRefusal := fun _ =>
    ClientError.IsCallFailure.not_refusal trivial
  cases hrows : s.files.fileToRead source with
  | error cause =>
      rw [hrows] at he
      obtain rfl := Except.error.inj he
      exact hio cause
  | ok rows =>
      rw [hrows] at he
      dsimp only at he
      rcases hopen : s.files.openToReplace dest with ⟨cause | address, files⟩
      · rw [hopen] at he
        obtain rfl := Except.error.inj he
        exact hio cause
      · rw [hopen] at he
        dsimp only at he
        cases hconv : (Trace.convert ((files.contentAt? rows).getD []) false {}).1 with
        | error fault =>
            rw [hconv] at he
            obtain rfl := Except.error.inj he
            exact ClientError.not_refusal_ofTrace fault
        | ok n => rw [hconv] at he; cases he

theorem not_refusal_reportOf {files : FileTree} {dump : Path} {e : ClientError}
    (h : reportOf files dump = .error e) : ¬ e.IsRefusal := by
  unfold reportOf textOf at h
  cases hread : files.content dump with
  | error cause =>
      rw [hread] at h
      obtain rfl := Except.error.inj h
      exact ClientError.IsCallFailure.not_refusal trivial
  | ok bytes =>
      rw [hread] at h
      dsimp only at h
      cases htext : Utf8.decode? bytes with
      | none =>
          rw [htext] at h
          obtain rfl := Except.error.inj h
          exact ClientError.IsCallFailure.not_refusal trivial
      | some text =>
          rw [htext] at h
          change (Report.read text).mapError (ClientError.badReport dump) = .error e at h
          cases hreport : Report.read text with
          | error cause =>
              rw [hreport] at h
              obtain rfl := Except.error.inj h
              simp [ClientError.IsRefusal, ClientError.category]
          | ok r =>
              rw [hreport] at h
              cases h

end Client

end PowerBench
