import PowerBench.Client.Step
import PowerBench.Proofs.Markers
import PowerBench.Proofs.Metrics
import PowerBench.Proofs.Refusal

set_option autoImplicit false

/-! # How a client conducts itself

Whatever a caller does with a client, every step stands to its calls in the same way. Each step
has a plan, the calls that it makes if none fails, and follows it (`perform_follows`). A step that
refuses what it was given has an empty plan (`plan_of_refusal`), since the checks stand in front
of the calls and no call fails with a refusal. So a whole session falls into rounds of calls, one
for each step (`performAll_conducted`).
-/

namespace PowerBench

open Operation Session

variable {σ : Type}

namespace Client

/-! ## Plans -/

/-- The time limit of the calls of a step. -/
def Step.limit (limits : Timeouts) : Step → Duration
  | .start _ _ => limits.command
  | .stop _ => limits.command
  | .archive _ _ => limits.transfer
  | .csv _ _ _ => limits.transfer
  | .addMarkers _ _ => limits.command
  | .metrics _ _ _ => limits.command
  | .channels _ => limits.command
  | .trace _ _ _ => limits.transfer
  | .listDevices => limits.command
  | .monitor _ => limits.hardware
  | .run _ limit => limit

def Step.mostCalls : Step → Nat
  | .addMarkers _ markers => markers.length
  | _ => 1

/-- The requests for metrics between bounds: none where a bound is bad or no dump can be made. -/
def metricsRequests (s : Session σ) (name : String) (start? stop? : Option Timestamp) :
    List Request :=
  match bound start?, bound stop?, s.makeScratch .dump with
  | .ok start?, .ok stop?, .ok (dump, _) => [.metrics name start? stop? dump.path]
  | _, _, _ => []

/-- The tokens of the calls of a step, when it meets the session `s`. -/
def Step.tokens (config : ServiceConfig) (s : Session σ) : Step → List (List String)
  | .start name rate => [(Request.start name rate).tokens config]
  | .stop name => [(Request.stop name).tokens config]
  | .archive name dest =>
    if dest.shownEndsWith archiveSuffix then [(Request.archive name dest).tokens config] else []
  | .csv picked name dest => [(Request.csv picked name dest).tokens config]
  | .addMarkers name markers =>
    match markers.mapM Marker.ofTimestamp with
    | .ok dated =>
      (sortMarkers dated).map fun m => (Request.marker name m.time m.text).tokens config
    | .error _ => []
  | .metrics name start? stop? =>
    (metricsRequests s name start? stop?).map fun r => r.tokens config
  | .channels name => (metricsRequests s name none none).map fun r => r.tokens config
  | .trace _ name pattern =>
    match s.makeScratch .rows with
    | .ok (rows, _) => [(Request.csv [pattern] name rows.path).tokens config]
    | .error _ => []
  | .listDevices => [Request.listDevices.tokens config]
  | .monitor action => [(Request.monitor action).tokens config]
  | .run tokens _ => [tokens]

/-- The calls of a step when none fails. -/
def plan (c : Client σ) (s : Session σ) (step : Step) : List Call :=
  (step.tokens c.config s).map fun tokens =>
    { program := c.binary
      args := ["--port", toString c.service] ++ tokens
      limit := step.limit c.limits }

theorem plan_length_le (c : Client σ) (s : Session σ) (step : Step) :
    (c.plan s step).length ≤ step.mostCalls := by
  have hmetrics : ∀ name start? stop?, (metricsRequests s name start? stop?).length ≤ 1 := by
    intro name start? stop?
    unfold metricsRequests
    split <;> simp
  rw [plan, List.length_map]
  cases step with
  | addMarkers name markers =>
      rw [Step.tokens, Step.mostCalls]
      rcases firstBad_or_dated markers with ⟨_, _, -, hmap⟩ | ⟨dated, hdated, hmap⟩
      · rw [hmap]
        exact Nat.zero_le _
      · have hlen : (sortMarkers dated).length = dated.length :=
          (stablyOrdered_sortMarkers dated).perm.length_eq
        rw [hmap]
        dsimp only
        rw [List.length_map, hlen]
        exact Nat.le_of_eq hdated.length_eq.symm
  | archive name dest =>
      rw [Step.tokens]
      split <;> simp [Step.mostCalls]
  | trace dest name pattern =>
      rw [Step.tokens]
      split <;> simp [Step.mostCalls]
  | metrics name start? stop? =>
      simpa [Step.tokens, Step.mostCalls] using hmetrics name start? stop?
  | channels name => simpa [Step.tokens, Step.mostCalls] using hmetrics name none none
  | _ => exact Nat.le_refl 1

/-! ## Steps follow their plans -/

/-- One call whose output is not wanted. -/
theorem follows_discard_runWith (c : Client σ) (file? : Option Path)
    (tokens : List String) (limit : Duration) (s : Session σ) :
    ∃ xs, Follows c.instrument (discard (c.runWith file? tokens limit)) s
      [c.callFor tokens limit] xs :=
  ⟨_, (follows_runWith c file? tokens limit s).map fun _ => ()⟩

theorem follows_record_runWith (c : Client σ) (e : Log.Entry) (file? : Option Path)
    (tokens : List String) (limit : Duration) (s : Session σ) :
    ∃ xs, Follows c.instrument (record e >>= fun _ => discard (c.runWith file? tokens limit)) s
      [c.callFor tokens limit] xs := by
  obtain ⟨xs, h⟩ := c.follows_discard_runWith file? tokens limit (s.noted [e])
  exact ⟨xs, (silent_record e).before (exec_record e s) h⟩

theorem metrics_follows (c : Client σ) (name : String) (start? stop? : Option Timestamp)
    (s : Session σ) :
    ∃ xs, Follows c.instrument (c.metrics name start? stop?) s
      (c.plan s (.metrics name start? stop?)) xs := by
  cases hstart : bound start? with
  | error e =>
      have hplan : c.plan s (.metrics name start? stop?) = [] := by
        simp [plan, Step.tokens, metricsRequests, hstart]
      rw [hplan]
      exact ⟨[], follows_unchanged (c.exec_metrics_badStart name s hstart)⟩
  | ok a =>
      cases hstop : bound stop? with
      | error e =>
          have hplan : c.plan s (.metrics name start? stop?) = [] := by
            simp [plan, Step.tokens, metricsRequests, hstart, hstop]
          rw [hplan]
          exact ⟨[], follows_unchanged (c.exec_metrics_badStop name s hstart hstop)⟩
      | ok b =>
          have hexec := c.exec_metrics name s hstart hstop
          cases hmade : s.makeScratch .dump with
          | error cause =>
              have hplan : c.plan s (.metrics name start? stop?) = [] := by
                simp [plan, Step.tokens, metricsRequests, hstart, hstop, hmade]
              rw [hplan]
              exact ⟨[], follows_unchanged (by rw [hexec, exec_withScratch, hmade])⟩
          | ok pair =>
              obtain ⟨dump, made⟩ := pair
              have hplan : c.plan s (.metrics name start? stop?)
                  = [c.callFor ((Request.metrics name a b dump.path).tokens c.config)
                      c.limits.command] := by
                simp [plan, Step.tokens, metricsRequests, hstart, hstop, hmade, callFor, Step.limit]
              obtain ⟨xs, hcall⟩ := c.follows_discard_runWith
                (Request.metrics name a b dump.path).file?
                ((Request.metrics name a b dump.path).tokens c.config) c.limits.command made
              rw [hplan]
              refine ⟨xs, Follows.of_exec_eq hexec ?_⟩
              exact Follows.withScratch hmade (hcall.before_silent fun _ _ => rfl)

theorem trace_follows (c : Client σ) (dest : Path) (name pattern : String) (s : Session σ) :
    ∃ xs, Follows c.instrument (c.trace dest name pattern) s
      (c.plan s (.trace dest name pattern)) xs := by
  cases hmade : s.makeScratch .rows with
  | error cause =>
      have hexec : exec (c.trace dest name pattern) s = (.error (.io cause), s) := by
        simp [trace, exec_withScratch, hmade]
      have hplan : c.plan s (.trace dest name pattern) = [] := by
        simp [plan, Step.tokens, hmade]
      rw [hplan]
      exact ⟨[], follows_unchanged hexec⟩
  | ok pair =>
      obtain ⟨rows, made⟩ := pair
      have hplan : c.plan s (.trace dest name pattern)
          = [c.callFor ((Request.csv [pattern] name rows.path).tokens c.config)
              c.limits.transfer] := by
        simp [plan, Step.tokens, hmade, callFor, Step.limit]
      obtain ⟨xs, hcall⟩ := c.follows_record_runWith
        (entry .info "exporting collection as csv"
          [("collection", .text name), ("channels", .number [pattern].length),
            ("destination", .shown rows.path.shown)])
        (Request.csv [pattern] name rows.path).file?
        ((Request.csv [pattern] name rows.path).tokens c.config) c.limits.transfer made
      have hlast : ∀ samples : Nat, Silent (α := Nat) (σ := σ) (do
          Operation.record <| entry .info "wrote monsoon file"
            [("collection", .text name), ("destination", .shown dest.shown),
              ("samples", .number samples)]
          pure samples) := fun samples => (silent_record _).bind fun _ => keeps_give (.ok samples)
      rw [hplan]
      refine ⟨xs, Follows.withScratch hmade (hcall.before_silent fun _ => ?_)⟩
      exact (silent_convertTo rows.path dest).bind hlast

/-- Exporting to a good destination is a log entry and one call. -/
theorem archive_eq (c : Client σ) (name : String) {dest : Path}
    (good : dest.shownEndsWith archiveSuffix) :
    c.archive name dest = record (entry .info "exporting collection"
        [("collection", .text name), ("destination", .shown dest.shown)]) >>= fun _ =>
      discard (c.request (.archive name dest) .transfer) := by
  simp [archive, good]

/-- Exporting to a bad destination is nothing but its error. -/
theorem archive_bad_eq (c : Client σ) (name : String) {dest : Path}
    (bad : ¬ dest.shownEndsWith archiveSuffix) :
    c.archive name dest = give (.error (.badDestination dest)) := by
  rw [Bool.not_eq_true] at bad
  rw [archive, bad]
  rfl

theorem archive_follows (c : Client σ) (name : String) (dest : Path) (s : Session σ) :
    ∃ xs, Follows c.instrument (c.archive name dest) s (c.plan s (.archive name dest)) xs := by
  by_cases h : dest.shownEndsWith archiveSuffix
  · have hplan : c.plan s (.archive name dest)
        = [c.callFor ((Request.archive name dest).tokens c.config) c.limits.transfer] := by
      simp [plan, Step.tokens, h, callFor, Step.limit]
    rw [hplan, c.archive_eq name h]
    exact c.follows_record_runWith _ _ _ _ s
  · have hplan : c.plan s (.archive name dest) = [] := by simp [plan, Step.tokens, h]
    rw [hplan, c.archive_bad_eq name h]
    exact ⟨[], follows_unchanged (exec_give _ s)⟩

theorem addMarkers_follows (c : Client σ) (name : String) (markers : List (Timestamp × String))
    (s : Session σ) :
    ∃ xs, Follows c.instrument (c.addMarkers name markers) s
      (c.plan s (.addMarkers name markers)) xs := by
  unfold addMarkers
  rcases firstBad_or_dated markers with ⟨_, bad, -, hmap⟩ | ⟨dated, -, hmap⟩
  · have hplan : c.plan s (.addMarkers name markers) = [] := by simp [plan, Step.tokens, hmap]
    rw [hplan, hmap]
    exact ⟨[], follows_nil rfl rfl⟩
  · -- Once all times are read, a log entry stands between the plan and its calls.
    have hplan : c.plan s (.addMarkers name markers)
        = (sortMarkers dated).map (c.markerCall name) := by
      rw [plan, Step.tokens, hmap]
      simp only [List.map_map]
      rfl
    let noted := s.noted [entry .debug "adding markers"
      [("collection", .text name), ("count", .number dated.length)]]
    obtain ⟨xs, h, -, -⟩ := c.addEach_follows name (sortMarkers dated) noted
    rw [hplan, hmap]
    refine ⟨xs, Silent.before (keeps_give _) (exec_give _ s) ?_⟩
    exact (silent_record _).before (exec_record _ s) h

theorem perform_follows (c : Client σ) (step : Step) (s : Session σ) :
    ∃ xs, Follows c.instrument (c.perform step) s (c.plan s step) xs := by
  cases step with
  | start name rate =>
      obtain ⟨xs, h⟩ := c.follows_record_runWith _ _ _ _ s
      exact ⟨xs, h.map _⟩
  | stop name =>
      obtain ⟨xs, h⟩ := c.follows_record_runWith _ _ _ _ s
      exact ⟨xs, h.map _⟩
  | archive name dest =>
      obtain ⟨xs, h⟩ := c.archive_follows name dest s
      exact ⟨xs, h.map _⟩
  | csv picked name dest =>
      obtain ⟨xs, h⟩ := c.follows_record_runWith _ _ _ _ s
      exact ⟨xs, h.map _⟩
  | addMarkers name markers =>
      obtain ⟨xs, h⟩ := c.addMarkers_follows name markers s
      exact ⟨xs, h.map _⟩
  | metrics name start? stop? =>
      obtain ⟨xs, h⟩ := c.metrics_follows name start? stop? s
      exact ⟨xs, h.map _⟩
  | channels name =>
      obtain ⟨xs, h⟩ := c.metrics_follows name none none s
      have hchannels : Follows c.instrument (c.channels name) s (c.plan s (.channels name)) xs :=
        h.before_silent fun report => keeps_give (.ok report.channelNames)
      exact ⟨xs, hchannels.map _⟩
  | trace dest name pattern =>
      obtain ⟨xs, h⟩ := c.trace_follows dest name pattern s
      exact ⟨xs, h.map _⟩
  | listDevices => exact ⟨_, (follows_runWith c none _ _ s).map _⟩
  | monitor action =>
      have h : Follows c.instrument (c.monitor action) s _ _ :=
        (silent_record _).before (exec_record _ s)
          (follows_runWith c none ((Request.monitor action).tokens c.config) c.limits.hardware _)
      exact ⟨_, h.map _⟩
  | run tokens limit => exact ⟨_, (follows_runWith c none tokens limit s).map _⟩

/-! ## Refusals come before calls -/

/-- A log entry, and then one call, is no refusal. -/
theorem neverRefuses_record_runWith {c : Client σ} (runner : c.instrument.FailsAsCall)
    (e : Log.Entry) (file? : Option Path) (tokens : List String) (limit : Duration) :
    NeverRefuses (record e >>= fun _ => discard (c.runWith file? tokens limit)) :=
  (neverRefuses_record e).bind fun _ => (neverRefuses_runWith runner file? tokens limit).map _

theorem neverRefuses_addEach {c : Client σ} (runner : c.instrument.FailsAsCall) (name : String)
    (markers : List Marker) : NeverRefuses (c.addEach name markers) := by
  induction markers with
  | nil =>
      intro s e he
      cases he
  | cons m rest ih => exact ((neverRefuses_runWith runner _ _ _).map _).bind fun _ => ih

theorem neverRefuses_trace {c : Client σ} (runner : c.instrument.FailsAsCall) (dest : Path)
    (name pattern : String) : NeverRefuses (c.trace dest name pattern) := by
  refine NeverRefuses.withScratch fun rows => ?_
  refine (neverRefuses_record_runWith runner _ _ _ _).bind fun _ => ?_
  refine (neverRefuses_convertTo rows.path dest).bind fun samples => ?_
  refine (neverRefuses_record _).bind fun _ s e he => ?_
  cases he

/-- Fetching that refuses a bound has nothing to request. -/
theorem metricsRequests_of_refusal {c : Client σ} (runner : c.instrument.FailsAsCall)
    {name : String} {start? stop? : Option Timestamp} {s : Session σ} {e : ClientError}
    (he : (exec (c.metrics name start? stop?) s).1 = .error e) (refusal : e.IsRefusal) :
    metricsRequests s name start? stop? = [] := by
  cases hstart : bound start? with
  | error _ => simp [metricsRequests, hstart]
  | ok a =>
      cases hstop : bound stop? with
      | error _ => simp [metricsRequests, hstart, hstop]
      | ok b =>
          -- Past the bounds nothing is refused any more.
          have hnever : NeverRefuses (σ := σ) (withScratch .dump fun dump => do
              discard <| c.request (.metrics name a b dump.path) .command
              give (reportOf (← get).files dump.path)) := by
            refine NeverRefuses.withScratch fun dump => ?_
            refine ((neverRefuses_runWith runner _ _ _).map _).bind fun _ => ?_
            intro s' e' he'
            exact not_refusal_reportOf he'
          rw [c.exec_metrics name s hstart hstop] at he
          exact absurd refusal (hnever s e he)

/-- A step that refuses what it was given has nothing to call. -/
theorem plan_of_refusal {c : Client σ} (runner : c.instrument.FailsAsCall) {step : Step}
    {s : Session σ} {e : ClientError} (he : (exec (c.perform step) s).1 = .error e)
    (refusal : e.IsRefusal) : c.plan s step = [] := by
  have never : NeverRefuses (c.perform step) → c.plan s step = [] := fun h =>
    absurd refusal (h s e he)
  -- Only a destination and times are checked; every other step never refuses.
  cases step with
  | start name rate => exact never ((neverRefuses_record_runWith runner _ _ _ _).map _)
  | stop name => exact never ((neverRefuses_record_runWith runner _ _ _ _).map _)
  | archive name dest =>
      by_cases h : dest.shownEndsWith archiveSuffix
      · refine never (NeverRefuses.map ?_ _)
        rw [c.archive_eq name h]
        exact neverRefuses_record_runWith runner _ _ _ _
      · simp [plan, Step.tokens, h]
  | csv picked name dest => exact never ((neverRefuses_record_runWith runner _ _ _ _).map _)
  | addMarkers name markers =>
      rcases firstBad_or_dated markers with ⟨_, _, -, hmap⟩ | ⟨dated, -, hmap⟩
      · simp [plan, Step.tokens, hmap]
      · refine never (NeverRefuses.map ?_ _)
        intro s' e' he'
        rw [addMarkers, hmap, exec_bind, exec_give] at he'
        exact ((neverRefuses_record _).bind fun _ => neverRefuses_addEach runner name _) s' e' he'
  | metrics name start? stop? =>
      have he' : (exec (c.metrics name start? stop?) s).1 = .error e := by
        rwa [perform, exec_map, map_eq_error] at he
      simp [plan, Step.tokens, metricsRequests_of_refusal runner he' refusal]
  | channels name =>
      have he' : (exec (c.metrics name none none) s).1 = .error e := by
        rwa [perform, exec_map, map_eq_error, exec_channels, map_eq_error] at he
      simp [plan, Step.tokens, metricsRequests_of_refusal runner he' refusal]
  | trace dest name pattern => exact never ((neverRefuses_trace runner dest name pattern).map _)
  | listDevices => exact never ((neverRefuses_runWith runner _ _ _).map _)
  | monitor action =>
      refine never (NeverRefuses.map ?_ _)
      exact (neverRefuses_record _).bind fun _ => neverRefuses_runWith runner _ _ _
  | run tokens limit => exact never ((neverRefuses_runWith runner none tokens limit).map _)

/-! ## Whole sessions -/

/-- How a step stands to its exchanges: it follows its plan, which is no longer than it may be, and
makes no call if it refuses what it was given. -/
structure Lawful (c : Client σ) (step : Step) (s : Session σ) (xs : List Exchange) : Prop where
  follows : Follows c.instrument (c.perform step) s (c.plan s step) xs
  few : xs.length ≤ step.mostCalls
  refused : ∀ e, (exec (c.perform step) s).1 = .error e → e.IsRefusal → xs = []

theorem perform_lawful {c : Client σ} (runner : c.instrument.FailsAsCall) (step : Step)
    (s : Session σ) : ∃ xs, Lawful c step s xs := by
  obtain ⟨xs, h⟩ := c.perform_follows step s
  refine ⟨xs, h, ?_, fun e he refusal => ?_⟩
  · calc xs.length
        = (xs.map Exchange.call).length := by rw [List.length_map]
      _ ≤ (c.plan s step).length := h.planned.length_le
      _ ≤ step.mostCalls := c.plan_length_le s step
  · have hplanned := h.planned
    rw [plan_of_refusal runner he refusal, List.prefix_nil, List.map_eq_nil_iff] at hplanned
    exact hplanned

/-- The steps are taken one after the other, whatever each comes to, and every step is lawful with
the exchanges of its round. -/
inductive Conducted (c : Client σ) : List Step → Session σ → List (List Exchange) →
    List (Except ClientError Given) → Session σ → Prop where
  | nil (s : Session σ) : Conducted c [] s [] [] s
  | cons {step : Step} {rest : List Step} {s last : Session σ} {xs : List Exchange}
      {rounds : List (List Exchange)} {results : List (Except ClientError Given)}
      (lawful : Lawful c step s xs)
      (later : Conducted c rest (exec (c.perform step) s).2 rounds results last) :
      Conducted c (step :: rest) s (xs :: rounds) ((exec (c.perform step) s).1 :: results) last

/-- **The conduct of a client.** Whatever steps a caller takes, if the instrument's own errors are
failures of calls, the calls made are those of the rounds of the steps, one after the other, each
reply being the instrument's. -/
theorem performAll_conducted (c : Client σ) (runner : c.instrument.FailsAsCall)
    (steps : List Step) (s : Session σ) :
    ∃ rounds, Conducted c steps s rounds (c.performAll steps s).1 (c.performAll steps s).2
      ∧ (c.performAll steps s).2.calls = s.calls ++ rounds.flatten.map Exchange.call
      ∧ Transcript c.instrument s.state rounds.flatten (c.performAll steps s).2.state := by
  induction steps generalizing s with
  | nil => exact ⟨[], .nil s, by simp [performAll], .nil _⟩
  | cons step rest ih =>
      obtain ⟨xs, lawful⟩ := perform_lawful runner step s
      obtain ⟨rounds, later, calls, replies⟩ := ih (exec (c.perform step) s).2
      refine ⟨xs :: rounds, .cons lawful later, ?_, ?_⟩
      · rw [List.flatten_cons, List.map_append, ← List.append_assoc, ← lawful.follows.recorded]
        exact calls
      · rw [List.flatten_cons]
        exact lawful.follows.replies.append replies

/-- A client of an instrument that answers once and then runs out of time. -/
def timingOut : Client (List Answer) where
  binary := .ofText "bits"
  service := 8123
  config := ⟨true, false, true, none, []⟩
  limits := .default
  instrument := .scripted { failure? := some .timedOut }

/-- A start, a listing that fails and a bad destination. -/
def threeSteps : List Step := [.start "a" 1000, .listDevices, .archive "a" (.ofText "a.zip")]

def oneAnswer : Session (List Answer) := .start [{ output := "ok" }] ⟨[], []⟩

theorem performAll_conducted_threeSteps :
    timingOut.instrument.FailsAsCall
      ∧ (timingOut.performAll threeSteps oneAnswer).2.calls.length = 2
      ∧ ∃ rounds, Conducted timingOut threeSteps oneAnswer rounds
          (timingOut.performAll threeSteps oneAnswer).1
          (timingOut.performAll threeSteps oneAnswer).2
        ∧ (timingOut.performAll threeSteps oneAnswer).2.calls
          = oneAnswer.calls ++ rounds.flatten.map Exchange.call
        ∧ Transcript timingOut.instrument oneAnswer.state rounds.flatten
          (timingOut.performAll threeSteps oneAnswer).2.state :=
  ⟨failsAsCall_scripted _, by decide +kernel,
    performAll_conducted timingOut (failsAsCall_scripted _) threeSteps oneAnswer⟩

end Client

end PowerBench
