import PowerBench.Proofs.SideBySide

set_option autoImplicit false

/-! # What a configuration changes

Of a configuration the client reads two switches, and each of them adds tokens to the end of some
requests: the virtual metrics file to those for channels and metrics (`tokens_metricsFile`), and the
saving of space to the start of a collection (`tokens_saveSpace`). So an instrument that overlooks
these tokens, as one that plays a script does, tells two configurations apart by nothing else: the
clients keep side by side, and their calls differ by these tokens (`configuration_influence`). Both
runs make their scratch files under the same names, since a name depends on the files alone.
-/

namespace PowerBench

open Operation

variable {σ : Type}

/-! ## Instruments that overlook tokens -/

/-- The call with more arguments at its end. -/
def Call.extended (tokens : List String) (c : Call) : Call := { c with args := c.args ++ tokens }

theorem Call.extended_nil (c : Call) : c.extended [] = c := by
  rw [Call.extended, List.append_nil]

/-- What the instrument does is the same with and without the tokens at the end of a call. -/
def Instrument.Overlooks (i : Instrument σ) (tokens : List String) : Prop :=
  ∀ files c st, i files (c.extended tokens) st = i files c st

theorem overlooks_nil (i : Instrument σ) : i.Overlooks [] := by
  intro files c st
  rw [Call.extended_nil]

/-- A script is played whatever the arguments are. -/
theorem overlooks_scripted (fallback : Answer) (tokens : List String) :
    (Instrument.scripted fallback).Overlooks tokens := by
  have hreply : ∀ (a : Answer) (c : Call), a.reply (c.extended tokens) = a.reply c := by
    intro a c
    unfold Answer.reply
    split
    · rename_i failure _
      cases failure <;> rfl
    · rfl
  intro files c answers
  cases answers with
  | nil => exact congrArg (·, []) (hreply fallback c)
  | cons a rest => exact congrArg (·, rest) (hreply a c)

theorem Instrument.Overlooks.keepsStep {i : Instrument σ} {tokens : List String}
    (h : i.Overlooks tokens) : Instrument.KeepsStep Eq (Call.extended tokens) i i := by
  constructor
  · rintro files c st _ rfl
    rw [h]
    exact ⟨rfl, rfl⟩
  · rintro files c st _ rfl
    rw [h]

namespace Client

def configured (c : Client σ) (config : ServiceConfig) : Client σ := { c with config := config }

/-! ## Tokens of the switches -/

/-- What the virtual metrics file adds to the calls of a step. -/
def Step.metricsFileTokens : Step → List String
  | .csv _ _ _ => ["--vm_file", "default"]
  | .metrics _ _ _ => ["--vm_file", "default"]
  | .channels _ => ["--vm_file", "default"]
  | .trace _ _ _ => ["--vm_file", "default"]
  | _ => []

/-- What the saving of space adds to the calls of a step. -/
def Step.saveSpaceTokens : Step → List String
  | .start _ _ => ["--disk_space_saver"]
  | _ => []

section

variable {config config' : ServiceConfig} {step : Step} {r : Request}

theorem tokens_metricsFile (asks : step.Asks r) (off : config.virtualMetrics = false)
    (on : config'.virtualMetrics = true) (kibbles : config'.kibbles = config.kibbles) :
    r.tokens config' = r.tokens config ++ step.metricsFileTokens := by
  cases asks <;>
    simp [Request.tokens, Request.virtualMetricsTokens, Request.virtualMetricsFile,
      Step.metricsFileTokens, off, on, kibbles]

theorem tokens_saveSpace (asks : step.Asks r) (off : config.kibbles = false)
    (on : config'.kibbles = true) (metrics : config'.virtualMetrics = config.virtualMetrics) :
    r.tokens config' = r.tokens config ++ step.saveSpaceTokens := by
  cases asks <;>
    simp [Request.tokens, Request.virtualMetricsTokens, Step.saveSpaceTokens, off, on, metrics]

/-- Nothing else of a configuration is read. -/
theorem tokens_agreeing (metrics : config'.virtualMetrics = config.virtualMetrics)
    (kibbles : config'.kibbles = config.kibbles) : r.tokens config' = r.tokens config := by
  cases r <;> simp [Request.tokens, Request.virtualMetricsTokens, metrics, kibbles]

end

/-! ## Two configurations -/

/-- Under the second configuration the steps come to the same as under the first, each in a round
with the calls of the other and the tokens of `extra` behind them. -/
structure DiffersBy (extra : Step → List String) (c : Client σ) (config config' : ServiceConfig)
    (steps : List Step) (s : Session σ) : Prop where
  rounds : (c.configured config').rounds steps s
    = List.zipWith (fun step round => round.under (Call.extended (extra step))) steps
        ((c.configured config).rounds steps s)
  results : ((c.configured config').performAll steps s).1
    = ((c.configured config).performAll steps s).1
  files : ((c.configured config').performAll steps s).2.files
    = ((c.configured config).performAll steps s).2.files
  state : ((c.configured config').performAll steps s).2.state
    = ((c.configured config).performAll steps s).2.state
  printed : ((c.configured config').performAll steps s).2.printed
    = ((c.configured config).performAll steps s).2.printed

/-- A translation of the calls leaves what the rounds came to. -/
theorem map_result_zipWith (f : Step → Call → Call) {steps : List Step} {rounds : List Round}
    (h : rounds.length = steps.length) :
    (List.zipWith (fun step round => round.under (f step)) steps rounds).map Round.result
      = rounds.map Round.result := by
  induction steps generalizing rounds with
  | nil => rw [List.length_eq_zero_iff.mp h, List.zipWith_nil_left]
  | cons step steps ih =>
      cases rounds with
      | nil => rfl
      | cons round rounds =>
          rw [List.zipWith_cons_cons, List.map_cons, ih (Nat.succ.inj h)]
          rfl

/-- Tokens that the requests of each step have at their end under the second configuration, and that
the instrument overlooks, are all that it changes. -/
theorem differsBy_of_tokens {c : Client σ} {config config' : ServiceConfig}
    {extra : Step → List String}
    (tokens : ∀ (step : Step) (r : Request), step.Asks r →
      r.tokens config' = r.tokens config ++ extra step)
    (run : ∀ words limit, extra (.run words limit) = [])
    (overlooks : ∀ step, c.instrument.Overlooks (extra step)) (steps : List Step) (s : Session σ) :
    DiffersBy extra c config config' steps s := by
  have each : ∀ step ∈ steps, InStep Eq (Call.extended (extra step))
      ((c.configured config).perform step) ((c.configured config').perform step) := by
    intro step _
    have keeps : Instrument.KeepsStep Eq (Call.extended (extra step)) (c.configured config).instrument
        (c.configured config').instrument := (overlooks step).keepsStep
    refine perform_inStep keeps ⟨?_, ?_⟩
    · intro r kind asks
      show (c.configured config').callFor (r.tokens config') _ = _
      rw [tokens step r asks]
      rfl
    · rintro words limit rfl
      rw [run, Call.extended_nil]
      rfl
  have alike : s.Alike Eq s := ⟨rfl, rfl, rfl, rfl⟩
  obtain ⟨hrounds, halike⟩ :=
    performAll_inStep (fun step => Call.extended (extra step)) steps each alike
  refine ⟨hrounds, ?_, halike.files, halike.state.symm, halike.printed⟩
  rw [((c.configured config').performAll_rounds steps s).1, hrounds,
    map_result_zipWith _ (length_rounds _ steps s),
    ← ((c.configured config).performAll_rounds steps s).1]

/-- **What a configuration changes.** Whatever steps are taken: configurations with the same two
switches make the same calls and come to the same. If they differ in the virtual metrics file, the
calls of the exports of channels, of the metrics, of the list of channels and of traces end with
`--vm_file default` where it is on; if they differ in saving space, the start of a collection ends
with `--disk_space_saver`; no other call, no result, no file and nothing printed is another. -/
theorem configuration_influence (c : Client σ) (config config' : ServiceConfig) (steps : List Step)
    (s : Session σ) :
    (config'.virtualMetrics = config.virtualMetrics → config'.kibbles = config.kibbles →
        (c.configured config').rounds steps s = (c.configured config).rounds steps s
          ∧ ((c.configured config').performAll steps s).2.calls
            = ((c.configured config).performAll steps s).2.calls
          ∧ DiffersBy (fun _ => []) c config config' steps s)
      ∧ (c.instrument.Overlooks ["--vm_file", "default"] → config.virtualMetrics = false →
        config'.virtualMetrics = true → config'.kibbles = config.kibbles →
        DiffersBy Step.metricsFileTokens c config config' steps s)
      ∧ (c.instrument.Overlooks ["--disk_space_saver"] → config.kibbles = false →
        config'.kibbles = true → config'.virtualMetrics = config.virtualMetrics →
        DiffersBy Step.saveSpaceTokens c config config' steps s) := by
  refine ⟨fun metrics kibbles => ?_, fun overlooks off on kibbles => ?_,
    fun overlooks off on metrics => ?_⟩
  · have hdiffers : DiffersBy (fun _ => []) c config config' steps s :=
      differsBy_of_tokens (fun _ _ _ => by rw [tokens_agreeing metrics kibbles, List.append_nil])
        (fun _ _ => rfl) (fun _ => overlooks_nil _) steps s
    have hnil : Call.extended [] = id := funext Call.extended_nil
    have hrounds : (c.configured config').rounds steps s = (c.configured config).rounds steps s := by
      rw [hdiffers.rounds, hnil]
      exact zipWith_under_id steps _ (length_rounds _ steps s)
    refine ⟨hrounds, ?_, hdiffers⟩
    rw [((c.configured config').performAll_rounds steps s).2, hrounds,
      ← ((c.configured config).performAll_rounds steps s).2]
  · refine differsBy_of_tokens (fun _ _ asks => tokens_metricsFile asks off on kibbles)
      (fun _ _ => rfl) (fun step => ?_) steps s
    cases step with
    | csv | metrics | channels | trace => exact overlooks
    | _ => exact overlooks_nil _
  · refine differsBy_of_tokens (fun _ _ asks => tokens_saveSpace asks off on metrics)
      (fun _ _ => rfl) (fun step => ?_) steps s
    cases step with
    | start => exact overlooks
    | _ => exact overlooks_nil _

/-- A client of an instrument that writes an empty report at every call. -/
def reporting : Client (List Answer) where
  binary := .ofText "bits"
  service := 8123
  config := .default
  limits := .default
  instrument := .scripted { file := .write (Utf8.encode "data: []") }

def threeRequests : List Step := [.start "a" 1000, .channels "a", .listDevices]

def withScratchPlace : Session (List Answer) := .start [] ⟨[(Session.scratchDirectory, .directory)], []⟩

theorem configuration_influence_threeRequests :
    let monitored : ServiceConfig := { ServiceConfig.default with monitor? := some ⟨.hv, "HV-1"⟩ }
    let metered : ServiceConfig := { ServiceConfig.default with virtualMetrics := true }
    let saving : ServiceConfig := { ServiceConfig.default with kibbles := true }
    ((reporting.configured .default).rounds threeRequests withScratchPlace).map
        (fun round => round.calls.length) = [1, 1, 1]
      ∧ (reporting.configured monitored).rounds threeRequests withScratchPlace
        = (reporting.configured .default).rounds threeRequests withScratchPlace
      ∧ DiffersBy Step.metricsFileTokens reporting .default metered threeRequests withScratchPlace
      ∧ DiffersBy Step.saveSpaceTokens reporting .default saving threeRequests withScratchPlace := by
  intro monitored metered saving
  have hmonitored := configuration_influence reporting .default monitored threeRequests withScratchPlace
  have hmetered := configuration_influence reporting .default metered threeRequests withScratchPlace
  have hsaving := configuration_influence reporting .default saving threeRequests withScratchPlace
  refine ⟨by decide +kernel, (hmonitored.1 rfl rfl).1, ?_, ?_⟩
  · exact hmetered.2.1 (overlooks_scripted _ _) rfl rfl rfl
  · exact hsaving.2.2 (overlooks_scripted _ _) rfl rfl rfl

end Client

end PowerBench
