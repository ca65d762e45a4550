import PowerBench.Proofs.Conduct

set_option autoImplicit false

/-! # Two clients side by side

Two clients are led through the same steps and compared. Their instruments keep step if calls that
`f` takes to each other get replies that come to the same (`Instrument.KeepsStep`); of an exit code
only a log entry is made, so it may differ. `InStep` says the same of two steps of a session: on
sessions that are alike they give the same result, leave sessions that are alike, and the calls of
one are those of the other under `f`. It is kept by every way of building a step, so it is enough
to compare the calls of each request (`perform_inStep`), and whole sessions run in step round by
round (`performAll_inStep`).
-/

namespace PowerBench

open Operation

variable {σ τ α β : Type} {R : σ → τ → Prop} {f : Call → Call}

/-! ## Replies and instruments -/

/-- The replies come to the same, but for the exit code and for what was logged. -/
structure Reply.SameButExit (r r' : Reply) : Prop where
  result : r'.result.map Finished.output = r.result.map Finished.output
  file : r'.file = r.file

/-- Asked calls that `f` takes to each other in states that `R` relates, the instruments reply the
same but for the exit code, and are in related states again. -/
structure Instrument.KeepsStep (R : σ → τ → Prop) (f : Call → Call) (i : Instrument σ)
    (j : Instrument τ) : Prop where
  reply : ∀ files c st st', R st st' → (i files c st).1.SameButExit (j files (f c) st').1
  state : ∀ files c st st', R st st' → R (i files c st).2 (j files (f c) st').2

theorem keepsStep_self (i : Instrument σ) : Instrument.KeepsStep Eq id i i := by
  constructor
  · rintro files c st _ rfl
    exact ⟨rfl, rfl⟩
  · rintro files c st _ rfl
    rfl

/-- The sessions have the same files, have printed the same, and have instruments in related states. What
has been called and logged before does not matter. -/
structure Session.Alike (R : σ → τ → Prop) (s : Session σ) (s' : Session τ) : Prop where
  state : R s.state s'.state
  files : s'.files = s.files
  scratch : s'.scratch = s.scratch
  printed : s'.printed = s.printed

/-! ## Steps -/

/-- Two steps have ended side by side: with the same result, in sessions that are alike, and after
calls that `f` takes to each other. -/
structure Beside (R : σ → τ → Prop) (f : Call → Call) (s : Session σ) (s' : Session τ)
    (done : Except ClientError α × Session σ) (done' : Except ClientError α × Session τ) : Prop where
  result : done'.1 = done.1
  alike : done.2.Alike R done'.2
  calls : ∃ calls, done.2.calls = s.calls ++ calls ∧ done'.2.calls = s'.calls ++ calls.map f

/-- On sessions that are alike the steps end side by side. -/
def InStep (R : σ → τ → Prop) (f : Call → Call) (op : Operation σ α) (op' : Operation τ α) : Prop :=
  ∀ s s', Session.Alike R s s' → Beside R f s s' (exec op s) (exec op' s')

theorem Beside.of_silent {s : Session σ} {s' : Session τ} {r : Except ClientError α}
    {after : Session σ} {after' : Session τ} (alike : after.Alike R after')
    (calls : after.calls = s.calls) (calls' : after'.calls = s'.calls) :
    Beside R f s s' (r, after) (r, after') :=
  ⟨rfl, alike, [], by rw [calls, List.append_nil], by rw [calls', List.map_nil, List.append_nil]⟩

/-- What ends side by side after steps that did so has done so from the start. -/
theorem Beside.trans {s mid : Session σ} {s' mid' : Session τ} {first first' : Except ClientError α}
    {done : Except ClientError β × Session σ} {done' : Except ClientError β × Session τ}
    (h : Beside R f s s' (first, mid) (first', mid')) (h' : Beside R f mid mid' done done') :
    Beside R f s s' done done' := by
  obtain ⟨-, -, earlier, hcalls, hcalls'⟩ := h
  obtain ⟨result, alike, later, hlater, hlater'⟩ := h'
  refine ⟨result, alike, earlier ++ later, ?_, ?_⟩
  · rw [hlater, hcalls, List.append_assoc]
  · rw [hlater', hcalls', List.map_append, List.append_assoc]

theorem inStep_give (r : Except ClientError α) : InStep R f (Client.give r) (Client.give r) := by
  intro s s' alike
  exact .of_silent alike rfl rfl

/-- Log entries may differ. -/
theorem inStep_record (e e' : Log.Entry) : InStep R f (record e) (record e') := by
  intro s s' alike
  exact .of_silent ⟨alike.state, alike.files, alike.scratch, alike.printed⟩ rfl rfl

theorem InStep.bind {op : Operation σ α} {op' : Operation τ α} {g : α → Operation σ β}
    {g' : α → Operation τ β} (h : InStep R f op op') (h' : ∀ a, InStep R f (g a) (g' a)) :
    InStep R f (op >>= g) (op' >>= g') := by
  intro s s' alike
  have hop := h s s' alike
  rw [exec_bind, exec_bind]
  rcases hdone : exec op s with ⟨r, mid⟩
  rcases hdone' : exec op' s' with ⟨r', mid'⟩
  rw [hdone, hdone'] at hop
  obtain rfl : r' = r := hop.result
  cases r' with
  | error e => exact ⟨rfl, hop.alike, hop.calls⟩
  | ok a => exact hop.trans (h' a mid mid' hop.alike)

theorem InStep.map {op : Operation σ α} {op' : Operation τ α} (h : InStep R f op op') (g : α → β) :
    InStep R f (g <$> op) (g <$> op') := by
  intro s s' alike
  have hop := h s s' alike
  rw [exec_map, exec_map]
  exact ⟨by rw [hop.result], hop.alike, hop.calls⟩

/-- Both scratch files have one name, since it depends on the files and the number of scratch files
made so far. -/
theorem InStep.withScratch {kind : Session.ScratchKind} {body : Session.Scratch → Operation σ α}
    {body' : Session.Scratch → Operation τ α}
    (h : ∀ scratch, InStep R f (body scratch) (body' scratch)) :
    InStep R f (Operation.withScratch kind body) (Operation.withScratch kind body') := by
  intro s s' alike
  have hmade : s'.makeScratch kind = (s.makeScratch kind).map fun made =>
      (made.1, { s' with files := made.2.files, scratch := made.2.scratch }) := by
    unfold Session.makeScratch
    rw [alike.files, alike.scratch]
    split
    · split <;> rfl
    · rfl
    · rfl
  rw [exec_withScratch, exec_withScratch, hmade]
  cases hopen : s.makeScratch kind with
  | error cause => exact .of_silent alike rfl rfl
  | ok made =>
      obtain ⟨scratch, made⟩ := made
      obtain ⟨-, -, -, hsession⟩ := Session.makeScratch_eq_ok hopen
      have hstart : made.Alike R { s' with files := made.files, scratch := made.scratch } :=
        ⟨by rw [hsession]; exact alike.state, rfl, rfl, by rw [hsession]; exact alike.printed⟩
      have hcalls : made.calls = s.calls := by rw [hsession]
      obtain ⟨result, alike', hbody⟩ := h scratch made _ hstart
      rw [hcalls] at hbody
      refine ⟨result, ⟨alike'.state, ?_, alike'.scratch, alike'.printed⟩, hbody⟩
      show FileTree.erase _ _ = FileTree.erase _ _
      rw [alike'.files]

/-- What is read of the files is the same on both sides. -/
theorem inStep_giveOf (g : FileTree → Except ClientError α) :
    InStep R f (do Client.give (g (← get).files)) (do Client.give (g (← get).files)) := by
  intro s s' alike
  have hgive : exec (do Client.give (g (← get).files)) s' = (g s.files, s') := by
    rw [exec_bind, exec_get]
    show (g s'.files, s') = _
    rw [alike.files]
  rw [hgive]
  exact .of_silent alike rfl rfl

namespace Client

theorem inStep_convertTo (source dest : Path) :
    InStep R f (convertTo source dest) (convertTo source dest) := by
  intro s s' alike
  rw [exec_convertTo, exec_convertTo, alike.files]
  cases s.files.fileToRead source with
  | error cause => exact .of_silent alike rfl rfl
  | ok rows =>
      dsimp only
      rcases s.files.openToReplace dest with ⟨cause | address, files⟩
      · exact .of_silent alike rfl rfl
      · refine .of_silent ⟨alike.state, rfl, alike.scratch, ?_⟩ rfl rfl
        show (if _ then s'.printed ++ _ else s'.printed) = if _ then s.printed ++ _ else s.printed
        rw [alike.printed]

/-- A call, and its like on the other side. -/
theorem inStep_runWith {c : Client σ} {c' : Client τ}
    (keeps : Instrument.KeepsStep R f c.instrument c'.instrument)
    (file? : Option Path) {tokens tokens' : List String} {limit limit' : Duration}
    (call : c'.callFor tokens' limit' = f (c.callFor tokens limit)) :
    InStep R f (c.runWith file? tokens limit) (c'.runWith file? tokens' limit') := by
  intro s s' alike
  have hreply : Reply.SameButExit (s.answer c.instrument (c.callFor tokens limit))
      (s'.answer c'.instrument (c'.callFor tokens' limit')) := by
    unfold Session.answer
    rw [call, alike.files]
    exact keeps.reply _ _ _ _ alike.state
  have hstate : R (c.instrument s.files (c.callFor tokens limit) s.state).2
      (c'.instrument s'.files (c'.callFor tokens' limit') s'.state).2 := by
    rw [call, alike.files]
    exact keeps.state _ _ _ _ alike.state
  rw [exec_runWith, exec_runWith]
  refine ⟨hreply.result, ⟨hstate, ?_, alike.scratch, alike.printed⟩, [c.callFor tokens limit], rfl, ?_⟩
  · cases file? with
    | none => exact alike.files
    | some p =>
        show Session.affect s'.files p _ = Session.affect s.files p _
        rw [alike.files, hreply.file]
  · rw [List.map_singleton, ← call]
    rfl

/-! ## Operations -/

/-- The requests that a step can make. -/
inductive Step.Asks : Step → Request → Prop where
  | start (name : String) (rate : Nat) : Asks (.start name rate) (.start name rate)
  | stop (name : String) : Asks (.stop name) (.stop name)
  | archive (name : String) (dest : Path) : Asks (.archive name dest) (.archive name dest)
  | csv (channels : List String) (name : String) (dest : Path) :
      Asks (.csv channels name dest) (.csv channels name dest)
  | addMarkers (name : String) (markers : List (Timestamp × String)) (time : Int) (text : String) :
      Asks (.addMarkers name markers) (.marker name time text)
  | metrics (name : String) (start? stop? : Option Timestamp) (a b : Option Int) (dump : Path) :
      Asks (.metrics name start? stop?) (.metrics name a b dump)
  | channels (name : String) (dump : Path) : Asks (.channels name) (.metrics name none none dump)
  | trace (dest : Path) (name pattern : String) (rows : Path) :
      Asks (.trace dest name pattern) (.csv [pattern] name rows)
  | listDevices : Asks .listDevices .listDevices
  | monitor (action : MonitorAction) : Asks (.monitor action) (.monitor action)

/-- The calls of a step by one client are under `f` its calls by the other. -/
structure Translates (f : Call → Call) (c : Client σ) (c' : Client τ) (step : Step) : Prop where
  request : ∀ r kind, step.Asks r → c'.callOf r kind = f (c.callOf r kind)
  run : ∀ tokens limit, step = .run tokens limit →
    c'.callFor tokens limit = f (c.callFor tokens limit)

section

variable {c : Client σ} {c' : Client τ}

theorem inStep_request (keeps : Instrument.KeepsStep R f c.instrument c'.instrument) {r : Request}
    {kind : LimitClass} (call : c'.callOf r kind = f (c.callOf r kind)) :
    InStep R f (c.request r kind) (c'.request r kind) :=
  inStep_runWith keeps r.file? call

/-- A log entry, and then one call whose output is not wanted. -/
theorem inStep_record_request (keeps : Instrument.KeepsStep R f c.instrument c'.instrument)
    (e : Log.Entry) {r : Request} {kind : LimitClass} (call : c'.callOf r kind = f (c.callOf r kind)) :
    InStep R f (record e >>= fun _ => discard (c.request r kind))
      (record e >>= fun _ => discard (c'.request r kind)) :=
  (inStep_record e e).bind fun _ => (inStep_request keeps call).map _

theorem addEach_inStep (keeps : Instrument.KeepsStep R f c.instrument c'.instrument) (name : String)
    (call : ∀ time text, c'.callOf (.marker name time text) .command
      = f (c.callOf (.marker name time text) .command))
    (markers : List Marker) : InStep R f (c.addEach name markers) (c'.addEach name markers) := by
  induction markers with
  | nil => exact inStep_give (.ok ())
  | cons m rest ih => exact ((inStep_request keeps (call m.time m.text)).map _).bind fun _ => ih

theorem metrics_inStep (keeps : Instrument.KeepsStep R f c.instrument c'.instrument) (name : String)
    (start? stop? : Option Timestamp)
    (call : ∀ a b dump, bound start? = .ok a → bound stop? = .ok b →
      c'.callOf (.metrics name a b dump) .command = f (c.callOf (.metrics name a b dump) .command)) :
    InStep R f (c.metrics name start? stop?) (c'.metrics name start? stop?) := by
  cases hstart : bound start? with
  | error e =>
      intro s s' alike
      rw [c.exec_metrics_badStart name s hstart, c'.exec_metrics_badStart name s' hstart]
      exact .of_silent alike rfl rfl
  | ok a =>
      cases hstop : bound stop? with
      | error e =>
          intro s s' alike
          rw [c.exec_metrics_badStop name s hstart hstop, c'.exec_metrics_badStop name s' hstart hstop]
          exact .of_silent alike rfl rfl
      | ok b =>
          -- Past the bounds the dump has one name on both sides, so that the calls compare.
          intro s s' alike
          rw [c.exec_metrics name s hstart hstop, c'.exec_metrics name s' hstart hstop]
          refine InStep.withScratch (fun dump => ?_) s s' alike
          refine ((inStep_request keeps (call a b dump.path hstart hstop)).map _).bind fun _ => ?_
          exact inStep_giveOf fun files => reportOf files dump.path

theorem trace_inStep (keeps : Instrument.KeepsStep R f c.instrument c'.instrument) (dest : Path)
    (name pattern : String)
    (call : ∀ rows, c'.callOf (.csv [pattern] name rows) .transfer
      = f (c.callOf (.csv [pattern] name rows) .transfer)) :
    InStep R f (c.trace dest name pattern) (c'.trace dest name pattern) := by
  refine InStep.withScratch fun rows => ?_
  refine (inStep_record_request keeps _ (call rows.path)).bind fun _ => ?_
  refine (inStep_convertTo rows.path dest).bind fun samples => ?_
  exact (inStep_record _ _).bind fun _ => inStep_give (.ok samples)

/-- **Steps keep side by side.** If the instruments keep step, and `f` takes the calls of the
requests of a step to each other, the step ends side by side with both clients. -/
theorem perform_inStep (keeps : Instrument.KeepsStep R f c.instrument c'.instrument) {step : Step}
    (same : Translates f c c' step) : InStep R f (c.perform step) (c'.perform step) := by
  cases step with
  | start name rate =>
      exact (inStep_record_request keeps _ (same.request _ .command (.start name rate))).map _
  | stop name =>
      exact (inStep_record_request keeps _ (same.request _ .command (.stop name))).map _
  | archive name dest =>
      refine InStep.map ?_ _
      by_cases good : dest.shownEndsWith archiveSuffix
      · rw [c.archive_eq name good, c'.archive_eq name good]
        exact inStep_record_request keeps _ (same.request _ .transfer (.archive name dest))
      · rw [c.archive_bad_eq name good, c'.archive_bad_eq name good]
        exact inStep_give (.error (.badDestination dest))
  | csv picked name dest =>
      exact (inStep_record_request keeps _ (same.request _ .transfer (.csv picked name dest))).map _
  | addMarkers name markers =>
      refine InStep.map ?_ _
      refine (inStep_give _).bind fun dated => ?_
      refine (inStep_record _ _).bind fun _ => ?_
      exact addEach_inStep keeps name
        (fun time text => same.request _ .command (.addMarkers name markers time text)) _
  | metrics name start? stop? =>
      refine InStep.map (metrics_inStep keeps name start? stop? fun a b dump _ _ => ?_) _
      exact same.request _ .command (.metrics name start? stop? a b dump)
  | channels name =>
      refine InStep.map ?_ _
      refine (metrics_inStep keeps name none none fun a b dump ha hb => ?_).bind fun report =>
        inStep_give (.ok report.channelNames)
      obtain rfl := Except.ok.inj ha
      obtain rfl := Except.ok.inj hb
      exact same.request _ .command (.channels name dump)
  | trace dest name pattern =>
      refine InStep.map (trace_inStep keeps dest name pattern fun rows => ?_) _
      exact same.request _ .transfer (.trace dest name pattern rows)
  | listDevices => exact (inStep_request keeps (same.request _ .command .listDevices)).map _
  | monitor action =>
      refine InStep.map ?_ _
      exact (inStep_record _ _).bind fun _ =>
        inStep_request keeps (same.request _ .hardware (.monitor action))
  | run tokens limit => exact (inStep_runWith keeps none (same.run tokens limit rfl)).map _

end

/-! ## Whole sessions -/

/-- What a step came to, and the calls it made. -/
structure Round where
  result : Except ClientError Given
  calls : List Call

/-- The round with every call under `f`. -/
def Round.under (f : Call → Call) (round : Round) : Round :=
  { round with calls := round.calls.map f }

/-- The rounds of steps that are taken one after the other. -/
def rounds (c : Client σ) : List Step → Session σ → List Round
  | [], _ => []
  | step :: rest, s =>
    { result := (exec (c.perform step) s).1
      calls := (exec (c.perform step) s).2.calls.drop s.calls.length }
      :: c.rounds rest (exec (c.perform step) s).2

theorem length_rounds (c : Client σ) (steps : List Step) (s : Session σ) :
    (c.rounds steps s).length = steps.length := by
  induction steps generalizing s with
  | nil => rfl
  | cons step rest ih => rw [rounds, List.length_cons, ih, List.length_cons]

/-- A whole session gives what its rounds came to, and its calls are theirs, one round after the
other. -/
theorem performAll_rounds (c : Client σ) (steps : List Step) (s : Session σ) :
    (c.performAll steps s).1 = (c.rounds steps s).map Round.result
      ∧ (c.performAll steps s).2.calls = s.calls ++ (c.rounds steps s).flatMap Round.calls := by
  induction steps generalizing s with
  | nil => exact ⟨rfl, (List.append_nil _).symm⟩
  | cons step rest ih =>
      obtain ⟨xs, h⟩ := c.perform_follows step s
      obtain ⟨results, calls⟩ := ih (exec (c.perform step) s).2
      refine ⟨congrArg _ results, calls.trans ?_⟩
      rw [rounds, List.flatMap_cons, h.recorded, List.drop_left, List.append_assoc]

/-- **Sessions keep side by side.** Where each step does, the rounds of one client are those of the
other with the calls translated step by step, and the sessions that are left are alike. -/
theorem performAll_inStep {c : Client σ} {c' : Client τ} (f : Step → Call → Call) (steps : List Step)
    (each : ∀ step ∈ steps, InStep R (f step) (c.perform step) (c'.perform step)) {s : Session σ}
    {s' : Session τ} (alike : s.Alike R s') :
    c'.rounds steps s' = List.zipWith (fun step round => round.under (f step)) steps (c.rounds steps s)
      ∧ (c.performAll steps s).2.Alike R (c'.performAll steps s').2 := by
  induction steps generalizing s s' with
  | nil => exact ⟨rfl, alike⟩
  | cons step rest ih =>
      have hstep := each step List.mem_cons_self s s' alike
      obtain ⟨hrounds, halike⟩ := ih (fun t ht => each t (List.mem_cons_of_mem _ ht)) hstep.alike
      refine ⟨?_, halike⟩
      obtain ⟨calls, hcalls, hcalls'⟩ := hstep.calls
      rw [rounds, rounds, List.zipWith_cons_cons, hrounds, hcalls, hcalls', List.drop_left,
        List.drop_left, hstep.result]
      rfl

/-- Where the calls are the same, so are the rounds. -/
theorem zipWith_under_id (steps : List Step) (rounds : List Round)
    (h : rounds.length = steps.length) :
    List.zipWith (fun _ round => round.under id) steps rounds = rounds := by
  have hself : ∀ round : Round, round.under id = round := by
    intro round
    rw [Round.under, List.map_id]
  simp only [hself]
  rw [← List.map_uncurry_zip_eq_zipWith]
  exact List.map_snd_zip (Nat.le_of_eq h)

end Client

end PowerBench
