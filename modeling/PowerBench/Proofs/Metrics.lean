import PowerBench.Proofs.TraceExport

set_option autoImplicit false

/-! # What fetching metrics comes to

The bounds are read first, the start before the end, and a bad one ends the step without a call.
Then a dump is made and the instrument is asked once; what comes of it is decided by its reply
alone (`dumpOutcome`). The dump is gone in every case.
-/

namespace PowerBench.Client

open FileTree Operation Session

variable {σ : Type}

/-! ## Bounds -/

/-- The bound is there and has no time in nanoseconds. -/
def BadBound (t? : Option Timestamp) (bad : BadTimestamp) : Prop :=
  ∃ t, t? = some t ∧ t.normalize = .error bad

/-- The bound is not there, or has the time `n?` in nanoseconds. -/
def GoodBound (t? : Option Timestamp) (n? : Option Int) : Prop :=
  t?.map Timestamp.normalize = n?.map Except.ok

theorem bad_or_good (t? : Option Timestamp) :
    (∃ bad, BadBound t? bad ∧ bound t? = .error (.badTimestamp bad))
      ∨ ∃ n?, GoodBound t? n? ∧ bound t? = .ok n? := by
  cases t? with
  | none => exact .inr ⟨none, rfl, rfl⟩
  | some t =>
      cases ht : t.normalize with
      | error bad => exact .inl ⟨bad, ⟨t, rfl, ht⟩, by simp [bound, ht]⟩
      | ok n => exact .inr ⟨some n, by simp [GoodBound, ht], by simp [bound, ht]⟩

/-! ## Dumps -/

def metricsCall (c : Client σ) (name : String) (start? stop? : Option Int) (dump : Path) :
    Call where
  program := c.binary
  args := ["--port", toString c.service] ++ (Request.metrics name start? stop? dump).tokens c.config
  limit := c.limits.command

/-- What comes of a reply that concerns a dump, empty at first. -/
def dumpOutcome (dump : Path) (reply : Reply) : Except ClientError Report :=
  match reply.result with
  | .error e => .error e
  | .ok _ =>
    match reply.file.content? with
    | none => .error (.io .missing)
    | some bytes =>
      match Utf8.decode? bytes with
      | none => .error (.io .notText)
      | some text =>
        match Report.read text with
        | .error cause => .error (.badReport dump cause)
        | .ok report => .ok report

/-- Reading the dump that a successful call has left. -/
theorem reportOf_affect {files : FileTree} {dump : Scratch} {reply : Reply} {f : Finished}
    (there : files.node? scratchDirectory = some .directory) (success : reply.result = .ok f) :
    reportOf (affect (files.put dump.address (.file [])) dump.path reply.file) dump.path
      = dumpOutcome dump.path reply := by
  have hcontent := content_affect dump there reply.file
  unfold reportOf textOf dumpOutcome
  rw [hcontent, success]
  cases reply.file.content? with
  | none => rfl
  | some bytes =>
      dsimp only
      cases Utf8.decode? bytes with
      | none => rfl
      | some text =>
          dsimp only [bind, Except.bind]
          cases Report.read text with
          | error cause => rfl
          | ok report => rfl

/-! ## Running it -/

section

variable (c : Client σ) (name : String) {start? stop? : Option Timestamp} (s : Session σ)

theorem exec_metrics_badStart {e : ClientError} (hstart : bound start? = .error e) :
    exec (c.metrics name start? stop?) s = (.error e, s) := by
  rw [metrics, exec_bind, exec_give, hstart]

theorem exec_metrics_badStop {a : Option Int} {e : ClientError} (hstart : bound start? = .ok a)
    (hstop : bound stop? = .error e) : exec (c.metrics name start? stop?) s = (.error e, s) := by
  rw [metrics, exec_bind, exec_give, hstart]
  dsimp only
  rw [exec_bind, exec_give, hstop]

/-- Between good bounds, a dump is made and the instrument is asked. -/
theorem exec_metrics {a b : Option Int} (hstart : bound start? = .ok a)
    (hstop : bound stop? = .ok b) :
    exec (c.metrics name start? stop?) s
      = exec (withScratch .dump fun dump => do
          discard <| c.request (.metrics name a b dump.path) .command
          give (reportOf (← get).files dump.path)) s := by
  rw [metrics, exec_bind, exec_give, hstart]
  dsimp only
  rw [exec_bind, exec_give, hstop]

/-- Fetching that has made its dump makes one call, and ends by the reply to it. -/
theorem metrics_called {a b : Option Int} (hstart : bound start? = .ok a)
    (hstop : bound stop? = .ok b) {dump : Scratch} {s made : Session σ}
    (hmade : s.makeScratch .dump = .ok (dump, made)) :
    (exec (c.metrics name start? stop?) s).2.calls
        = s.calls ++ [c.metricsCall name a b dump.path]
      ∧ (exec (c.metrics name start? stop?) s).2.state
        = (c.instrument made.files (c.metricsCall name a b dump.path) s.state).2
      ∧ SameBut [] s.files (exec (c.metrics name start? stop?) s).2.files
      ∧ (exec (c.metrics name start? stop?) s).2.files.content dump.path = .error .missing
      ∧ (exec (c.metrics name start? stop?) s).1
        = dumpOutcome dump.path
            (made.answer c.instrument (c.metricsCall name a b dump.path)) := by
  obtain ⟨-, there, absent, hsession⟩ := makeScratch_eq_ok hmade
  have hfiles : made.files = s.files.put dump.address (.file []) := by rw [hsession]
  have hcalls : made.calls = s.calls := by rw [hsession]
  have hstate : made.state = s.state := by rw [hsession]
  have names : (Request.metrics name a b dump.path).file? = some dump.path :=
    congrArg some dump.told_path
  obtain ⟨after, hcall, afterFiles, afterCalls, afterState, -⟩ :=
    c.exec_request_file names .command made
  change exec _ made
    = ((made.answer c.instrument (c.metricsCall name a b dump.path)).result.map _, _) at hcall
  rw [hfiles] at afterFiles
  rw [hcalls] at afterCalls
  rw [hstate] at afterState
  -- Only the dump can have changed, and it is erased in the end.
  have hasked : SameBut [dump.address] s.files after.files := by
    rw [afterFiles]
    exact sameBut_asked dump there _
  have hsame : SameBut [] s.files (after.files.erase dump.address) :=
    sameBut_erased hasked absent
  have hgone : (after.files.erase dump.address).content dump.path = .error .missing := by
    refine content_erased ?_
    rw [hasked.node _ (by simpa using dump.address_ne_directory), there]
  rw [c.exec_metrics name s hstart hstop, exec_withScratch, hmade]
  dsimp only
  rw [exec_bind, hcall]
  cases hreply : (made.answer c.instrument (c.metricsCall name a b dump.path)).result with
  | error e => exact ⟨afterCalls, afterState, hsame, hgone, by rw [dumpOutcome, hreply]; rfl⟩
  | ok f =>
      refine ⟨afterCalls, afterState, hsame, hgone, ?_⟩
      show reportOf after.files dump.path = _
      rw [afterFiles]
      exact reportOf_affect there hreply

/-- Listing channels is fetching metrics without bounds. -/
theorem exec_channels :
    exec (c.channels name) s = ((exec (c.metrics name none none) s).1.map Report.channelNames,
      (exec (c.metrics name none none) s).2) := by
  rw [channels, exec_bind]
  rcases exec (c.metrics name none none) s with ⟨e | report, after⟩
  · rfl
  · rfl

end

/-! ## Every way it ends -/

/-- How fetching a report ends: without a call where a bound is bad or no dump can be made, and
after one call otherwise. -/
inductive Fetched (c : Client σ) (name : String) (start? stop? : Option Timestamp) (s : Session σ) :
    Except ClientError Report → Session σ → Prop where
  | badStart {bad : BadTimestamp} (start : BadBound start? bad) :
      Fetched c name start? stop? s (.error (.badTimestamp bad)) s
  | badStop {a : Option Int} {bad : BadTimestamp} (start : GoodBound start? a)
      (stop : BadBound stop? bad) : Fetched c name start? stop? s (.error (.badTimestamp bad)) s
  | notMade {a b : Option Int} {cause : IoFault} (start : GoodBound start? a)
      (stop : GoodBound stop? b) (closed : s.makeScratch .dump = .error cause) :
      Fetched c name start? stop? s (.error (.io cause)) s
  | called {a b : Option Int} {dump : Scratch} {made after : Session σ} (start : GoodBound start? a)
      (stop : GoodBound stop? b) (opened : s.makeScratch .dump = .ok (dump, made))
      (calls : after.calls = s.calls ++ [c.metricsCall name a b dump.path])
      (state : after.state
        = (c.instrument made.files (c.metricsCall name a b dump.path) s.state).2)
      (untouched : SameBut [] s.files after.files)
      (gone : after.files.content dump.path = .error .missing) :
      Fetched c name start? stop? s
        (dumpOutcome dump.path (made.answer c.instrument (c.metricsCall name a b dump.path))) after

/-- Fetching a report ends in one of these ways. -/
theorem fetched_metrics (c : Client σ) (name : String) (start? stop? : Option Timestamp)
    (s : Session σ) :
    Fetched c name start? stop? s (exec (c.metrics name start? stop?) s).1
      (exec (c.metrics name start? stop?) s).2 := by
  rcases bad_or_good start? with ⟨bad, hbad, hstart⟩ | ⟨a, hgood, hstart⟩
  · rw [c.exec_metrics_badStart name s hstart]
    exact .badStart hbad
  rcases bad_or_good stop? with ⟨bad, hbad, hstop⟩ | ⟨b, hgood', hstop⟩
  · rw [c.exec_metrics_badStop name s hstart hstop]
    exact .badStop hgood hbad
  cases hmade : s.makeScratch .dump with
  | error cause =>
      rw [c.exec_metrics name s hstart hstop, exec_withScratch, hmade]
      exact .notMade hgood hgood' hmade
  | ok pair =>
      obtain ⟨dump, made⟩ := pair
      obtain ⟨hcalls, hstate, hsame, hgone, hresult⟩ :=
        c.metrics_called name hstart hstop hmade
      rw [hresult]
      exact .called hgood hgood' hmade hcalls hstate hsame hgone

/-- **Fetching metrics.** A bad bound, the start before the end, or a dump that cannot be made
ends the step without a call; otherwise there is exactly one, and the reply decides. Listing the
channels ends in the same ways. Neither leaves its dump behind, and no export of a trace leaves
its rows. -/
theorem metrics_fetched (c : Client σ) (name : String) (start? stop? : Option Timestamp)
    (s : Session σ) :
    Fetched c name start? stop? s (exec (c.metrics name start? stop?) s).1
        (exec (c.metrics name start? stop?) s).2
      ∧ (∃ r, Fetched c name none none s r (exec (c.channels name) s).2
        ∧ (exec (c.channels name) s).1 = r.map Report.channelNames)
      ∧ ∀ dest pattern rows made, s.makeScratch .rows = .ok (rows, made) →
          (exec (c.trace dest name pattern) s).2.files.content rows.path = .error .missing := by
  refine ⟨c.fetched_metrics name start? stop? s, ?_, ?_⟩
  · rw [exec_channels]
    exact ⟨_, c.fetched_metrics name none none s, rfl⟩
  · intro dest pattern rows made hmade
    obtain ⟨-, there, absent, -⟩ := makeScratch_eq_ok hmade
    obtain ⟨-, -, _, -, hleft⟩ := c.trace_called dest name pattern hmade
    exact hleft.content there absent

end PowerBench.Client
