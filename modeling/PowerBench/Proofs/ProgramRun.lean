import PowerBench.Control.Run
import PowerBench.Proofs.CommandLine
import PowerBench.Proofs.SideBySide

set_option autoImplicit false

/-! # What a run of the program comes to

A run ends with its command line, before its task, or with its task. In the first two cases it leaves
the instrument alone and prints nothing (`run_fault`, `ready_or_fruitless`); in the last its task
decides, and what has been printed is what its session has printed (`runArguments_ready`). An instrument
can keep the calls that it is asked, which tells them apart where a run only shows the state of the
instrument (`Transcript.of_recording`).
-/

namespace PowerBench

variable {σ : Type}

/-! ## Keeping the calls -/

/-- The instrument, keeping the calls that it is asked. -/
def Instrument.recording (i : Instrument σ) : Instrument (List Call × σ) := fun files call kept =>
  ((i files call kept.2).1, (kept.1 ++ [call], (i files call kept.2).2))

theorem Transcript.of_recording {i : Instrument σ} {kept after : List Call × σ} {xs : List Exchange}
    (h : Transcript i.recording kept xs after) :
    after.1 = kept.1 ++ xs.map Exchange.call ∧ Transcript i kept.2 xs after.2 := by
  induction h with
  | nil kept => exact ⟨by simp, .nil _⟩
  | cons reply rest ih =>
      obtain ⟨calls, rest⟩ := ih
      refine ⟨?_, .cons reply rest⟩
      rw [calls]
      simp [Instrument.recording]

namespace Control

open CommandLine Operation

/-! ## Ends before the task -/

/-- A run that fails, prints nothing and leaves the instrument alone. -/
structure Fruitless (state : σ) (o : Outcome σ) : Prop where
  exit : o.exitCode ≠ 0
  stdout : o.stdout = ""
  state : o.state = state

variable {filters : Log.FilterLanguage} {env : Environment} {files : FileTree}

/-- A fault of the command line is told with exit code 2. -/
theorem run_fault (filters : Log.FilterLanguage) (i : Instrument σ) (state : σ) (files : FileTree)
    {args : List Bytes} {f : UsageFault} (h : parse env grammar args = .error (.fault f)) :
    (run filters env args i state files).exitCode = 2
      ∧ (run filters env args i state files).complaint? = some (.usage (usageText f))
      ∧ Fruitless state (run filters env args i state files) := by
  unfold run
  rw [h]
  exact ⟨rfl, rfl, ⟨Nat.succ_ne_zero _, rfl, rfl⟩⟩

theorem run_parsed (filters : Log.FilterLanguage) (i : Instrument σ) (state : σ) (files : FileTree)
    {args : List Bytes} {p : Parsed} {a : Arguments} (h : parse env grammar args = .ok p)
    (ha : arguments? p = some a) :
    run filters env args i state files = runArguments filters env i state files a := by
  unfold run
  rw [h]
  dsimp only
  rw [ha]

/-- The log can be set up, which leaves the files `files'`, and `config` is the configuration of the
service. -/
structure Ready (filters : Log.FilterLanguage) (env : Environment) (files : FileTree) (a : Arguments)
    (config : ServiceConfig) (files' : FileTree) : Prop where
  log : ∃ guards logging,
    Log.setUp filters env (logConfig env a).1 { subscriber? := none, files := files }
        = (.ok guards, logging)
      ∧ logging.files = files'
  config : serviceConfig files' a = .ok config

theorem ready_or_fruitless (i : Instrument σ) (state : σ) (a : Arguments) :
    (∃ config files', Ready filters env files a config files')
      ∨ Fruitless state (runArguments filters env i state files a) := by
  rcases hlog : Log.setUp filters env (logConfig env a).1 { subscriber? := none, files := files }
    with ⟨fault | guards, logging⟩
  · refine .inr ?_
    unfold runArguments
    dsimp only
    rw [hlog]
    exact ⟨Nat.succ_ne_zero _, rfl, rfl⟩
  · cases hconfig : serviceConfig logging.files a with
    | error fault =>
        refine .inr ?_
        unfold runArguments runTask
        dsimp only
        rw [hlog]
        dsimp only
        rw [hconfig]
        exact ⟨Nat.succ_ne_zero _, rfl, rfl⟩
    | ok config => exact .inl ⟨config, _, ⟨guards, logging, hlog, rfl⟩, hconfig⟩

/-! ## Ends by the task -/

def client (env : Environment) (i : Instrument σ) (a : Arguments) (config : ServiceConfig) :
    Client σ :=
  { binary := a.binary, service := a.service, config := config
    limits := (Timeouts.ofEnvironment env).1, instrument := i }

/-- A task on a session: why it fails, if it does, and the session it leaves. -/
def execTask (c : Client σ) (t : Task) (s : Session σ) : Except Failure Unit × Session σ :=
  (perform c t).run.run s

/-- A run that is ready does its task on a session without calls, and has printed what is printed
there. -/
theorem runArguments_ready {a : Arguments} {config : ServiceConfig} {files' : FileTree}
    (ready : Ready filters env files a config files') (i : Instrument σ) (state : σ) :
    ∃ fresh : Session σ, fresh.Alike Eq (.start state files') ∧ fresh.calls = []
      ∧ ∀ result s, execTask (client env i a config) a.task fresh = (result, s) →
        (runArguments filters env i state files a).state = s.state
          ∧ (runArguments filters env i state files a).stdout = s.printed
          ∧ (result = .ok () → (runArguments filters env i state files a).exitCode = 0)
          ∧ ∀ fault, result = .error fault →
            (runArguments filters env i state files a).exitCode = 1 := by
  obtain ⟨⟨guards, logging, hlog, rfl⟩, hconfig⟩ := ready
  refine ⟨{ Session.start state logging.files with
    log := openingEntries a (Timeouts.ofEnvironment env).1 (Timeouts.ofEnvironment env).2 },
    ⟨rfl, rfl, rfl, rfl⟩, rfl, ?_⟩
  intro result s hexec
  have htask : runTask env i state logging.files a = (result, s) := by
    unfold runTask
    dsimp only
    rw [hconfig]
    exact hexec
  unfold runArguments
  dsimp only
  rw [hlog]
  dsimp only
  rw [htask]
  cases result with
  | ok => exact ⟨rfl, rfl, fun _ => rfl, nofun⟩
  | error fault => exact ⟨rfl, rfl, nofun, fun _ _ => rfl⟩

/-! ## Tasks -/

/-- What is done after a step of the client, which keeps its context in its errors. -/
theorem run_during_bind {α β : Type} (context : String) (op : Operation σ α)
    (f : α → ExceptT Failure (StateM (Session σ)) β) (s : Session σ) :
    (during context op >>= f).run.run s = match exec op s with
      | (.ok a, s') => (f a).run.run s'
      | (.error e, s') => (.error (.client context e), s') := by
  have hduring : (during context op).run.run s
      = ((exec op s).1.mapError (.client context), (exec op s).2) := rfl
  rw [ExceptT.run_bind, StateT.run_bind, hduring]
  rcases exec op s with ⟨e | a, s'⟩
  · rfl
  · rfl

/-! ## Reaching the instrument -/

/-- How the program's own arguments say to reach the instrument, and a task. -/
def reaching (program : Given) (service : Nat) (verbose : Bool) (task : Task) : Arguments :=
  { binary := ((program.value? "binary").bind path?).getD (.ofText "bits_client")
    service := service
    config? := (program.value? "config").bind path?
    vmFile := program.has "vm-file"
    kibbles := program.has "kibbles"
    verbose := program.has "verbose" || verbose
    task := task }

theorem arguments?_eq {program given : Given} {c : Command} {service : Nat} {task : Task}
    (hservice : program.value? "port" = some (.number service))
    (htask : task? c.name given = some task) :
    arguments? ⟨program, c, given⟩ = some (reaching program service (given.has "verbose") task) := by
  unfold arguments?
  rw [hservice, htask]
  rfl

theorem read_path {bytes : Bytes} (nonempty : bytes ≠ []) :
    ValueKind.path.read bytes = .ok (.path (match Utf8.decode? bytes with
      | some s => .ofText s
      | none => ⟨bytes⟩)) := by
  unfold ValueKind.read
  cases h : Utf8.decode? bytes with
  | none => rfl
  | some s =>
      have hs : s.isEmpty = false := Utf8.isEmpty_of_decode? h nonempty
      dsimp only [ValueKind.readText]
      rw [hs]
      rfl

/-- What the variable of the program gives where the program is not named. -/
def binaryGiven (env : Environment) : List (String × Value) :=
  match env.lookup "BITS_CLIENT_BINARY" with
  | none => []
  | some bytes =>
    [("binary", .path (match Utf8.decode? bytes with
      | some s => .ofText s
      | none => ⟨bytes⟩))]

/-- What `--port` and a number give. -/
def portGiven (env : Environment) (service : Nat) : Given :=
  { flags := [], settings := ("port", .number service) :: binaryGiven env, operands := [] }

theorem addVariables_port {env : Environment} (service : Nat)
    (sound : env.lookup "BITS_CLIENT_BINARY" ≠ some []) :
    addVariables env grammar.root.settings ⟨[], [("port", .number service)], []⟩
      = .ok (portGiven env service) := by
  have hsettings : grammar.root.settings = [binary, Control.service, config] := rfl
  have hservice : ∀ given : Given, (given.value? Control.service.long).isSome →
      addVariables env [Control.service, config] given = .ok given := by
    intro given there
    unfold addVariables
    cases h : Control.service.environmentKey?.bind fun key => env.lookup key with
    | none => rfl
    | some bytes =>
        dsimp only
        rw [if_pos there]
        rfl
  have hkey : (binary.environmentKey?.bind fun key => env.lookup key)
      = env.lookup "BITS_CLIENT_BINARY" := rfl
  rw [hsettings, addVariables, hkey]
  unfold portGiven binaryGiven
  cases hbinary : env.lookup "BITS_CLIENT_BINARY" with
  | none => exact hservice _ rfl
  | some bytes =>
      have hne : bytes ≠ [] := by
        rintro rfl
        exact sound hbinary
      have hadd : Level.addSetting binary (some bytes) ⟨[], [("port", .number service)], []⟩
          = (Level.readValue binary.label .path bytes) >>= fun v =>
            .ok ⟨[], [("port", .number service), ("binary", v)], []⟩ := rfl
      dsimp only
      rw [if_neg (by exact Bool.false_ne_true), hadd, Level.readValue, read_path hne]
      exact hservice _ rfl

theorem offers_service : Offers grammar.root Control.service :=
  ⟨rfl, by decide, by decide⟩

theorem readValue_service {port : String} {service : Nat}
    (hport : readNumber 65535 port = .ok service) :
    Level.readValue Control.service.label Control.service.kind (Utf8.encode port)
      = .ok (.number service) := by
  rw [Level.readValue, ValueKind.read_encode]
  show Except.mapError _ (Except.mapError _ (Value.number <$> readNumber 65535 port)) = _
  rw [hport]
  rfl

/-- The port alone is enough, where the variable of the program is not empty. -/
theorem opens_port {env : Environment} {port : String} {service : Nat} (undashed : ¬ Dashed port)
    (hport : readNumber 65535 port = .ok service)
    (sound : env.lookup "BITS_CLIENT_BINARY" ≠ some []) :
    Opens env grammar (["--port", port].map Utf8.encode) (portGiven env service) := by
  let waiting : Level :=
    { Level.start with pending? := some (.setting Control.service none), awaiting := true }
  let pending : Level :=
    { Level.start with pending? := some (.setting Control.service (some (Utf8.encode port))) }
  have hcommand : grammar.command? (bare Control.service.long) = none := by decide
  have hfirst : Level.start.readArgument grammar grammar.root true (bare Control.service.long)
      = .ok waiting := Level.readArgument_bare offers_service rfl rfl
  have hsecond : waiting.readArgument grammar grammar.root true (Utf8.encode port)
      = .ok pending := Level.readArgument_value (undashed_encode undashed) rfl rfl rfl
  have hread : Level.start.readRoot grammar [bare Control.service.long, Utf8.encode port]
      = .ok (pending, none) := by
    rw [Level.readRoot_cons (.inr hcommand) hfirst, Level.readRoot_cons (.inl rfl) hsecond]
    rfl
  have hbare : Utf8.encode "--port" = bare Control.service.long := by decide
  have hresolve : pending.resolve
      = .ok { pending with pending? := none, given := ⟨[], [("port", .number service)], []⟩ } := by
    have hadd : Level.addSetting Control.service (some (Utf8.encode port)) Level.start.given
        = Level.readValue Control.service.label Control.service.kind (Utf8.encode port) >>= fun v =>
          .ok ⟨[], [("port", v)], []⟩ := rfl
    show (Level.addSetting Control.service (some (Utf8.encode port)) Level.start.given >>= _) = _
    rw [hadd, readValue_service hport]
    rfl
  have hcomplete : missingLabels grammar.root (portGiven env service) = [] := rfl
  refine ⟨⟨pending, _, ?_, rfl, rfl, hresolve, addVariables_port service sound⟩, ?_⟩
  · rw [List.map_cons, List.map_cons, List.map_nil, hbare]
    exact hread
  · rw [wantComplete, hcomplete]

/-- With the program's own arguments no more than the port, only the log can keep a run from its
task. -/
theorem ready_port {guards : Log.Guards} {logging : Log.Logging}
    (hlog : Log.setUp filters env { (Log.Config.ofEnvironment env "info").1 with stderr := true }
      { subscriber? := none, files := files } = (.ok guards, logging)) (service : Nat) (task : Task) :
    Ready filters env files (reaching (portGiven env service) service false task) .default
      logging.files := by
  have hconfig : (portGiven env service).value? "config" = none := by
    unfold portGiven binaryGiven
    cases env.lookup "BITS_CLIENT_BINARY" with
    | none => rfl
    | some bytes => rfl
  refine ⟨⟨guards, logging, hlog, rfl⟩, ?_⟩
  have hpath : (reaching (portGiven env service) service false task).config? = none := by
    show ((portGiven env service).value? "config").bind path? = none
    rw [hconfig]
    rfl
  unfold serviceConfig
  rw [hpath]
  rfl

/-- Without variables the log is set up and no file is opened: the level is the name of one. -/
theorem setUp_bare (filters : Log.FilterLanguage) (files : FileTree) : ∃ guards logging,
    Log.setUp filters [] { (Log.Config.ofEnvironment [] "info").1 with stderr := true }
      { subscriber? := none, files := files } = (.ok guards, logging) ∧ logging.files = files := by
  have hlevel : (Log.Config.ofEnvironment [] "info").1.level = "info" := by decide
  have hreads : filters.reads "info" = true := filters.reads_level "info" (by decide)
  have hfilter : Log.filter? filters [] { (Log.Config.ofEnvironment [] "info").1 with
      stderr := true } = some "info" := by
    have hvariable : Environment.text? [] Log.filterVariable = none := rfl
    rw [Log.filter?, hvariable]
    dsimp only
    rw [hlevel]
    simp [hreads]
  have hfile : (Log.Config.ofEnvironment [] "info").1.file? = none := rfl
  unfold Log.setUp
  rw [hfilter]
  dsimp only
  rw [hfile]
  exact ⟨_, _, rfl, rfl⟩

end Control

end PowerBench
