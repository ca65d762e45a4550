import PowerBench.Log.Directive
import PowerBench.Proofs.ChannelNames
import PowerBench.Proofs.ParsedArguments
import PowerBench.Proofs.Printing
import PowerBench.Proofs.Tasks
import PowerBench.Script

set_option autoImplicit false

/-! # What the program prints

A run whose line has been read succeeds exactly when the log is set up, the configuration accepted, the
step of its task gives a result (`Gives`) and the result can be rendered; then it prints what the task
shows of the result. Two things can stand on the standard output besides, each where a path that the
user has given leads there: the lines of a trace, which are written before it is known how the export
ends, and the lines of the log. Nothing else is printed by a run that fails (`program_output`).
-/

namespace PowerBench

open Operation

namespace Control

open CommandLine (parse Command Opens parse_command)

variable {σ : Type}

/-! ## What is shown -/

/-- A task shows a text of what its step gives: the output of the instrument as it is, the report as
it is rendered, the ascending names with a line each, or a line about what has been done. -/
inductive Task.Shows : Task → Client.Given → String → Prop where
  | listDevices (output : String) : Shows .listDevices (.text output) output
  | monitor (action : MonitorAction) (output : String) : Shows (.monitor action) (.text output) output
  | start (name : String) (rate : Nat) : Shows (.start name rate) .nothing ""
  | stop (name : String) : Shows (.stop name) .nothing ""
  | archive (name : String) (dest : Path) : Shows (.archive name dest) .nothing ""
  | csv (name : String) (dest : Path) (picked : List String) : Shows (.csv name dest picked) .nothing ""
  | markers (name : String) (ms : List (Timestamp × String)) :
      Shows (.markers name ms) .nothing
        ("added " ++ toString ms.length ++ " marker(s) to " ++ name ++ "\n")
  | metrics (name : String) (start? stop? : Option Timestamp) {format : ReportFormat} {r : Report}
      {text : String} (rendered : render r format = .ok text) :
      Shows (.metrics name start? stop? format) (.report r) text
  | channels (name : String) {names : List String} (ascending : names.Pairwise (· < ·)) :
      Shows (.channels name) (.names names) (String.join (names.map (· ++ "\n")))
  | trace (name pattern : String) (dest : Path) (count : Nat) :
      Shows (.trace name pattern dest) (.samples count)
        ("wrote " ++ toString count ++ " sample(s) to " ++ dest.shown ++ "\n")

/-- For metrics: the report has a text in the form that is asked for. -/
def Task.Renders : Task → Client.Given → Prop
  | .metrics _ _ _ format, .report r => ∃ text, render r format = .ok text
  | _, _ => True

theorem renders_iff {t : Task} {given : Client.Given} :
    t.Renders given ↔ ∃ text, t.printed given = .ok text := by
  unfold Task.Renders
  split
  · exact Iff.rfl
  · rename_i hnot
    refine ⟨fun _ => ?_, fun _ => trivial⟩
    cases t <;> cases given <;> first | exact ⟨_, rfl⟩ | exact absurd rfl (hnot _ _ _ _ _ rfl)

theorem given_of_map {α : Type} {op : Operation σ α} {wrap : α → Client.Given} {s : Session σ}
    {given : Client.Given} (h : (exec (wrap <$> op) s).1 = .ok given) :
    ∃ a, (exec op s).1 = .ok a ∧ wrap a = given := by
  rw [exec_map] at h
  exact map_eq_ok.mp h

/-- What a step gives is of the form that its task shows. -/
theorem shows_of_printed {c : Client σ} {t : Task} {s : Session σ} {given : Client.Given}
    (h : (exec (c.perform t.step) s).1 = .ok given) {text : String}
    (printed : t.printed given = .ok text) : t.Shows given text := by
  cases t with
  | listDevices =>
      obtain ⟨output, -, rfl⟩ := given_of_map h
      obtain rfl := Except.ok.inj printed
      exact .listDevices output
  | monitor action =>
      obtain ⟨output, -, rfl⟩ := given_of_map h
      obtain rfl := Except.ok.inj printed
      exact .monitor action output
  | start name rate =>
      obtain ⟨-, -, rfl⟩ := given_of_map h
      obtain rfl := Except.ok.inj printed
      exact .start name rate
  | stop name =>
      obtain ⟨-, -, rfl⟩ := given_of_map h
      obtain rfl := Except.ok.inj printed
      exact .stop name
  | archive name dest =>
      obtain ⟨-, -, rfl⟩ := given_of_map h
      obtain rfl := Except.ok.inj printed
      exact .archive name dest
  | csv name dest picked =>
      obtain ⟨-, -, rfl⟩ := given_of_map h
      obtain rfl := Except.ok.inj printed
      exact .csv name dest picked
  | markers name ms =>
      obtain ⟨-, -, rfl⟩ := given_of_map h
      obtain rfl := Except.ok.inj printed
      exact .markers name ms
  | metrics name start? stop? format =>
      obtain ⟨r, -, rfl⟩ := given_of_map h
      exact .metrics name start? stop? printed
  | channels name =>
      obtain ⟨names, hnames, rfl⟩ := given_of_map h
      obtain rfl := Except.ok.inj printed
      rw [c.exec_channels] at hnames
      obtain ⟨r, -, rfl⟩ := map_eq_ok.mp hnames
      exact .channels name r.pairwise_channelNames
  | trace name pattern dest =>
      obtain ⟨count, -, rfl⟩ := given_of_map h
      obtain rfl := Except.ok.inj printed
      exact .trace name pattern dest count

/-! ## Ends -/

variable {filters : Log.FilterLanguage} {env : Environment} {i : Instrument σ} {st : σ}
  {files : FileTree}

/-- With the log set up and the configuration accepted, the step of the task gives a result on a
session of its own. -/
def Gives (filters : Log.FilterLanguage) (env : Environment) (i : Instrument σ) (st : σ)
    (files : FileTree) (a : Arguments) (given : Client.Given) : Prop :=
  ∃ config files', Ready filters env files a config files'
    ∧ (exec ((client env i a config).perform a.task.step) (.start st files')).1 = .ok given

theorem Ready.unique {a : Arguments} {config config' : ServiceConfig} {files₁ files₂ : FileTree}
    (h : Ready filters env files a config files₁) (h' : Ready filters env files a config' files₂) :
    config' = config ∧ files₂ = files₁ := by
  obtain ⟨⟨guards, logging, hlog, rfl⟩, hconfig⟩ := h
  obtain ⟨⟨guards', logging', hlog', rfl⟩, hconfig'⟩ := h'
  obtain ⟨-, rfl⟩ := Prod.mk.inj (hlog.symm.trans hlog')
  exact ⟨Except.ok.inj (hconfig'.symm.trans hconfig), rfl⟩

/-- What came before a session does not matter to what its step gives. -/
theorem Ready.gives_iff {a : Arguments} {config : ServiceConfig} {files' : FileTree}
    (ready : Ready filters env files a config files') {fresh : Session σ}
    (alike : fresh.Alike Eq (.start st files')) {given : Client.Given} :
    Gives filters env i st files a given
      ↔ (exec ((client env i a config).perform a.task.step) fresh).1 = .ok given := by
  have same : Client.Translates id (client env i a config) (client env i a config) a.task.step :=
    ⟨fun _ _ _ => rfl, fun _ _ _ => rfl⟩
  have hstep := (Client.perform_inStep (keepsStep_self i) same _ _ alike).result
  constructor
  · rintro ⟨config', files₂, ready', hgiven⟩
    obtain ⟨rfl, rfl⟩ := ready.unique ready'
    rw [← hstep]
    exact hgiven
  · intro hgiven
    exact ⟨config, files', ready, hstep.trans hgiven⟩

/-- The files that a task meets: those that setting up the log has left. -/
def filesAtTask (filters : Log.FilterLanguage) (env : Environment) (files : FileTree)
    (a : Arguments) : FileTree :=
  (Log.setUp filters env (logConfig env a).1 { subscriber? := none, files := files }).2.files

theorem Ready.filesAtTask {a : Arguments} {config : ServiceConfig} {files' : FileTree}
    (ready : Ready filters env files a config files') : filesAtTask filters env files a = files' := by
  obtain ⟨guards, logging, hlog, hfiles⟩ := ready.log
  rw [Control.filesAtTask, hlog]
  exact hfiles

/-- How the run of a task ends and what it prints, given the lines of a trace that its step has written
to the standard output. -/
structure EndsWith (filters : Log.FilterLanguage) (env : Environment) (i : Instrument σ) (st : σ)
    (files : FileTree) (a : Arguments) (lines : List (List Char)) (o : Outcome σ) : Prop where
  exit : o.exitCode = 0
    ↔ ∃ given text, Gives filters env i st files a given ∧ a.task.printed given = .ok text
  failed : o.exitCode ≠ 0 → o.stdout = String.ofList lines.flatten
  done : ∀ given text, Gives filters env i st files a given → a.task.printed given = .ok text →
    o.stdout = String.ofList lines.flatten ++ text
  all : ∀ count, Gives filters env i st files a (.samples count) →
    a.task.step.ToOutput (filesAtTask filters env files a) → lines.length = count

section

variable {a : Arguments} {lines : List (List Char)} {o : Outcome σ}
  (all : ∀ count, Gives filters env i st files a (.samples count) →
    a.task.step.ToOutput (filesAtTask filters env files a) → lines.length = count)

include all

/-- A run that fails, where nothing that is given has a text. -/
theorem EndsWith.of_failed (failed : o.exitCode ≠ 0) (stdout : o.stdout = String.ofList lines.flatten)
    (textless : ∀ given text, Gives filters env i st files a given →
      a.task.printed given ≠ .ok text) : EndsWith filters env i st files a lines o := by
  refine ⟨⟨fun h => absurd h failed, ?_⟩, fun _ => stdout, ?_, all⟩
  · rintro ⟨given, text, hgiven, hprinted⟩
    exact absurd hprinted (textless given text hgiven)
  · intro given text hgiven hprinted
    exact absurd hprinted (textless given text hgiven)

/-- A run that succeeds, and has printed the text of the one thing that is given. -/
theorem EndsWith.of_done {given : Client.Given} {text : String} (done : o.exitCode = 0)
    (stdout : o.stdout = String.ofList lines.flatten ++ text)
    (gives : ∀ given', Gives filters env i st files a given' ↔ given = given')
    (printed : a.task.printed given = .ok text) : EndsWith filters env i st files a lines o := by
  refine ⟨⟨fun _ => ⟨given, text, (gives given).mpr rfl, printed⟩, fun _ => done⟩,
    fun failed => absurd done failed, ?_, all⟩
  intro given' text' hgiven hprinted
  obtain rfl := (gives given').mp hgiven
  obtain rfl := Except.ok.inj (printed.symm.trans hprinted)
  exact stdout

end

theorem Ready.endsWith {a : Arguments} {config : ServiceConfig} {files' : FileTree}
    (ready : Ready filters env files a config files') (i : Instrument σ) (st : σ) :
    ∃ lines, a.task.step.Writes files' lines
      ∧ EndsWith filters env i st files a lines (runArguments filters env i st files a) := by
  obtain ⟨fresh, alike, -, hends⟩ := runArguments_ready ready i st
  have hmeets : fresh.files = files' := alike.files.symm
  have hfresh : fresh.printed = "" := alike.printed.symm
  have hgives : ∀ given, Gives filters env i st files a given
      ↔ (exec ((client env i a config).perform a.task.step) fresh).1 = .ok given :=
    fun _ => ready.gives_iff alike
  have htask := execTask_eq (client env i a config) a.task fresh
  obtain ⟨lines, hprinted, hwrites, hcount⟩ :=
    (client env i a config).perform_writes a.task.step fresh
  rw [hfresh, String.empty_append] at hprinted
  rw [hmeets] at hwrites hcount
  have hall : ∀ count, Gives filters env i st files a (.samples count) →
      a.task.step.ToOutput (Control.filesAtTask filters env files a) → lines.length = count := by
    intro count hsamples
    rw [ready.filesAtTask]
    exact hcount count ((hgives _).mp hsamples)
  refine ⟨lines, hwrites, ?_⟩
  rcases hstep : exec ((client env i a config).perform a.task.step) fresh with ⟨e | given, s⟩
  · -- The step fails, and nothing is given.
    rw [hstep] at hgives hprinted htask
    obtain ⟨-, hstdout, -, hfail⟩ := hends _ _ htask
    refine .of_failed hall (by rw [hfail _ rfl]; exact Nat.one_ne_zero) (hstdout.trans hprinted) ?_
    intro given text hgiven
    cases (hgives given).mp hgiven
  · rw [hstep] at hgives hprinted htask
    have honly : ∀ given', Gives filters env i st files a given' ↔ given = given' := by
      intro given'
      rw [hgives, Except.ok.injEq]
    dsimp only [Task.finish] at htask
    cases htext : a.task.printed given with
    | error e =>
        -- What is given has no text.
        rw [htext] at htask
        obtain ⟨-, hstdout, -, hfail⟩ := hends _ _ htask
        refine .of_failed hall (by rw [hfail _ rfl]; exact Nat.one_ne_zero)
          (hstdout.trans hprinted) ?_
        intro given' text hgiven hprints
        obtain rfl := (honly given').mp hgiven
        rw [htext] at hprints
        cases hprints
    | ok text =>
        rw [htext] at htask
        obtain ⟨-, hstdout, hgood, -⟩ := hends _ _ htask
        refine .of_done hall (hgood rfl) ?_ honly htext
        rw [hstdout, ← hprinted]
        rfl

/-- A run whose line has been read: how it ends, and what it prints. -/
theorem runArguments_endsWith (filters : Log.FilterLanguage) (env : Environment) (i : Instrument σ)
    (st : σ) (files : FileTree) (a : Arguments) :
    ∃ lines, a.task.step.Writes (filesAtTask filters env files a) lines
      ∧ EndsWith filters env i st files a lines (runArguments filters env i st files a) := by
  by_cases hready : ∃ config files', Ready filters env files a config files'
  · obtain ⟨config, files', ready⟩ := hready
    rw [ready.filesAtTask]
    exact ready.endsWith i st
  -- A run that is not ready fails, and nothing is given without it.
  · have fruitless : Fruitless st (runArguments filters env i st files a) :=
      (ready_or_fruitless i st a).resolve_left hready
    have hnone : ∀ given, ¬ Gives filters env i st files a given := by
      rintro given ⟨config, files', ready, -⟩
      exact hready ⟨config, files', ready⟩
    refine ⟨[], a.task.step.writes_nil _, .of_failed ?_ fruitless.exit fruitless.stdout ?_⟩
    · exact fun count hgiven => absurd hgiven (hnone _)
    · exact fun given text hgiven => absurd hgiven (hnone given)

/-! ## Other ends, and the log -/

/-- A run that ends with its command line prints nothing if it fails, and logs nothing. -/
theorem halted_stdout (env : Environment) (st : σ) (files : FileTree) (h : CommandLine.Halt) :
    (halted env st files h).stdoutLog = []
      ∧ ((halted env st files h).exitCode ≠ 0 → (halted env st files h).stdout = "") := by
  cases h with
  | help command? =>
      cases command? with
      | none => exact ⟨rfl, fun failed => absurd rfl failed⟩
      | some c => exact ⟨rfl, fun failed => absurd rfl failed⟩
  | version => exact ⟨rfl, fun failed => absurd rfl failed⟩
  | nothingGiven => exact ⟨rfl, fun _ => rfl⟩
  | fault f => exact ⟨rfl, fun _ => rfl⟩

/-- Where nothing was set up before, the log file is the configured one. -/
theorem file?_of_setUp {c : Log.Config} {guards : Log.Guards} {logging : Log.Logging}
    (h : Log.setUp filters env c { subscriber? := none, files := files } = (.ok guards, logging)) :
    logging.subscriber?.bind (·.file?) = c.file? := by
  unfold Log.setUp at h
  cases hfilter : Log.filter? filters env c with
  | none =>
      rw [hfilter] at h
      cases h
  | some f =>
      rw [hfilter] at h
      dsimp only at h
      cases hfile : c.file? with
      | none =>
          rw [hfile] at h
          cases h
          rfl
      | some path =>
          rw [hfile] at h
          dsimp only at h
          rcases hopen : Log.openFile files path with ⟨cause | opened, files'⟩
          · rw [hopen] at h
            cases h
          · rw [hopen] at h
            cases h
            rfl

/-- Log lines stand on the standard output only if the log file is there. -/
theorem runArguments_stdoutLog (i : Instrument σ) (st : σ) {a : Arguments}
    (logged : (runArguments filters env i st files a).stdoutLog ≠ []) :
    ∃ path, (logConfig env a).1.file? = some path
      ∧ (filesAtTask filters env files a).leadsToOutput path = true := by
  unfold filesAtTask
  unfold runArguments at logged
  dsimp only at logged
  rcases hlog : Log.setUp filters env (logConfig env a).1 { subscriber? := none, files := files }
    with ⟨fault | guards, logging⟩
  · rw [hlog] at logged
    exact absurd rfl logged
  · rw [hlog] at logged
    dsimp only at logged ⊢
    have hfile := file?_of_setUp hlog
    by_cases houtput : logging.toOutput = true
    · rw [Log.Logging.toOutput, hfile] at houtput
      cases hpath : (logConfig env a).1.file? with
      | none =>
          rw [hpath] at houtput
          cases houtput
      | some path =>
          rw [hpath] at houtput
          exact ⟨path, rfl, houtput⟩
    · rw [if_neg houtput] at logged
      exact absurd rfl logged

def listDevicesCommand : Command :=
  command "list-devices" "Print the instrument's device listing" [] []

/-- Files of a program whose standard output is a terminal with the name `/dev/stdout`. -/
def terminal : FileTree :=
  { nodes := [(Session.scratchDirectory, .directory), ([Utf8.encode "dev"], .directory),
      ([Utf8.encode "dev", Utf8.encode "stdout"], .output)]
    here := [] }

end Control

end PowerBench
