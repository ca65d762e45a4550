import PowerBench.Log.Directive
import PowerBench.Log.Setup

set_option autoImplicit false

/-! # The first set-up of the log stays

A process may set its log up any number of times, each time in an environment and among files of its
own, and whatever the language of its filters is. `Makes` says what one call comes to: it fails over
its filter or over its log file and installs nothing, or it installs what it describes where nothing
is installed yet. So after any calls the log is set up as the first call described that succeeded
(`subscriber_makeAll`). The guards that a call returns do not depend on this: they are those of its
own log file, also if the call installs nothing (`guards_makeAll`).
-/

namespace PowerBench.Log

/-- A call that sets the log up: the configuration it is given, and the environment and the files it
meets. -/
structure SetupCall where
  env : Environment
  config : Config
  files : FileTree
deriving Repr

namespace SetupCall

/-- Neither the variable for filters nor the configured level holds a filter that can be read. -/
def NoFilter (filters : FilterLanguage) (c : SetupCall) : Prop :=
  (∀ text, c.env.text? filterVariable = some text → filters.reads text = false)
    ∧ filters.reads c.config.level = false

/-- There is to be a log file, and the directories above it cannot be made or it cannot be written
at its path. -/
def NoFile (c : SetupCall) : Prop :=
  ∃ path, c.config.file? = some path ∧
    ((∃ e, (c.files.makeDirectoriesAbove path).1 = .error e)
      ∨ ∃ e, (c.files.makeDirectoriesAbove path).2.fileToWrite path = .error e)

/-- How entries are to be logged by what the call is given. -/
def described? (filters : FilterLanguage) (c : SetupCall) : Option Subscriber :=
  (filter? filters c.env c.config).map fun f =>
    { filter := f, format := c.config.format, stderr := c.config.stderr, file? := c.config.file? }

/-- The call, made where the log is as `l` says. -/
def make (filters : FilterLanguage) (c : SetupCall) (l : Logging) :
    Except SetupFault Guards × Logging :=
  setUp filters c.env c.config { l with files := c.files }

end SetupCall

/-- Calls one after the other: each with what it returned, and the log after all of them. -/
def makeAll (filters : FilterLanguage) : List SetupCall → Logging →
    List (SetupCall × Except SetupFault Guards) × Logging
  | [], l => ([], l)
  | c :: rest, l =>
    let (result, l) := c.make filters l
    let (results, l) := makeAll filters rest l
    ((c, result) :: results, l)

variable {filters : FilterLanguage}

/-! ## One call -/

theorem filter?_eq_none (env : Environment) (c : Config) :
    filter? filters env c = none ↔
      (∀ text, env.text? filterVariable = some text → filters.reads text = false)
        ∧ filters.reads c.level = false := by
  unfold filter?
  cases env.text? filterVariable with
  | none => simp
  | some text => simp

theorem openFile_fails (files : FileTree) (path : Path) :
    (∃ e, (openFile files path).1 = .error e) ↔
      (∃ e, (files.makeDirectoriesAbove path).1 = .error e)
        ∨ ∃ e, (files.makeDirectoriesAbove path).2.fileToWrite path = .error e := by
  unfold openFile FileTree.openToAppend
  rcases files.makeDirectoriesAbove path with ⟨cause | -, made⟩
  · simp
  · dsimp only
    rcases made.fileToWrite path with cause | address
    · simp
    · dsimp only
      cases made.node? address <;> simp

/-- What a call comes to: what it returns, and what is installed before and after it. -/
inductive Makes (filters : FilterLanguage) (c : SetupCall) (before : Option Subscriber) :
    Except SetupFault Guards → Option Subscriber → Prop where
  | badFilter (bad : c.NoFilter filters) :
      Makes filters c before (.error (.badFilter c.config.level)) before
  | badFile {path : Path} {cause : IoFault} (good : ¬ c.NoFilter filters) (bad : c.NoFile) :
      Makes filters c before (.error (.badFile path cause)) before
  | ok {s : Subscriber} (good : ¬ c.NoFilter filters) (ready : ¬ c.NoFile)
      (described : c.described? filters = some s) :
      Makes filters c before (.ok ⟨c.config.file?⟩) (some (before.getD s))

/-- **One call.** -/
theorem makes_make (filters : FilterLanguage) (c : SetupCall) (l : Logging) :
    Makes filters c l.subscriber? (c.make filters l).1 (c.make filters l).2.subscriber? := by
  unfold SetupCall.make setUp
  cases hfilter : filter? filters c.env c.config with
  | none => exact .badFilter ((filter?_eq_none _ _).mp hfilter)
  | some f =>
      have hgood : ¬ c.NoFilter filters := by
        intro hbad
        rw [(filter?_eq_none _ _).mpr hbad] at hfilter
        cases hfilter
      have hdescribed :
          c.described? filters = some ⟨f, c.config.format, c.config.stderr, c.config.file?⟩ := by
        rw [SetupCall.described?, hfilter]
        rfl
      cases hfile : c.config.file? with
      | none =>
          have hready : ¬ c.NoFile := by
            rintro ⟨path, hpath, -⟩
            rw [hfile] at hpath
            cases hpath
          have hmakes : Makes filters c l.subscriber? _ _ := .ok hgood hready hdescribed
          rw [hfile] at hmakes
          exact hmakes
      | some path =>
          dsimp only
          rcases hopen : openFile c.files path with ⟨cause | opened, files⟩
          · refine .badFile hgood ⟨path, hfile, (openFile_fails _ _).mp ⟨cause, ?_⟩⟩
            rw [hopen]
          · have hready : ¬ c.NoFile := by
              rintro ⟨path', hpath, hfails⟩
              obtain rfl : path = path' := Option.some.inj (hfile.symm.trans hpath)
              obtain ⟨e, he⟩ := (openFile_fails _ _).mpr hfails
              rw [hopen] at he
              cases he
            have hmakes : Makes filters c l.subscriber? _ _ := .ok hgood hready hdescribed
            rw [hfile] at hmakes
            exact hmakes

/-- A call fails for one of the two reasons. -/
theorem Makes.fails_iff {c : SetupCall} {before after : Option Subscriber}
    {result : Except SetupFault Guards} (h : Makes filters c before result after) :
    (∃ fault, result = .error fault) ↔ c.NoFilter filters ∨ c.NoFile := by
  cases h with
  | badFilter bad => simp [bad]
  | badFile good bad => simp [bad]
  | ok good ready => simp [good, ready]

/-- A call that fails installs nothing. -/
theorem Makes.unchanged {c : SetupCall} {before after : Option Subscriber} {fault : SetupFault}
    (h : Makes filters c before (.error fault) after) : after = before := by
  cases h <;> rfl

/-- A call that succeeds returns the guards of its own log file. -/
theorem Makes.guards_eq {c : SetupCall} {before after : Option Subscriber} {guards : Guards}
    (h : Makes filters c before (.ok guards) after) : guards = ⟨c.config.file?⟩ := by
  cases h
  rfl

/-! ## Many calls -/

/-- **After any calls** what was installed before them is still there, and if nothing was, the first
call that succeeded has installed what it described. -/
theorem subscriber_makeAll (calls : List SetupCall) (l : Logging) :
    (makeAll filters calls l).2.subscriber? =
      l.subscriber?.or
        (((makeAll filters calls l).1.find? fun made => made.2.isOk).bind fun made =>
          made.1.described? filters) := by
  induction calls generalizing l with
  | nil => exact (Option.or_none).symm
  | cons c rest ih =>
      have hmakes := makes_make filters c l
      unfold makeAll
      rcases hmade : c.make filters l with ⟨result, next⟩
      rw [hmade] at hmakes
      dsimp only at hmakes ⊢
      rw [ih next, List.find?_cons]
      generalize next.subscriber? = after at hmakes ⊢
      cases hmakes with
      | badFilter bad => rfl
      | badFile good bad => rfl
      | ok good ready described =>
          show _ = l.subscriber?.or (c.described? filters)
          rw [described]
          cases l.subscriber? <;> rfl

/-- **Guards.** Every call that succeeds returns the guards of its own log file, whatever is installed by
then; so they are empty exactly if the call has no log file. -/
theorem guards_makeAll (calls : List SetupCall) (l : Logging) :
    ∀ made ∈ (makeAll filters calls l).1, ∀ guards, made.2 = .ok guards →
      guards = ⟨made.1.config.file?⟩ := by
  induction calls generalizing l with
  | nil =>
      intro made hmade
      exact absurd hmade List.not_mem_nil
  | cons c rest ih =>
      have hmakes := makes_make filters c l
      intro made hmade guards hguards
      unfold makeAll at hmade
      rcases List.mem_cons.mp hmade with rfl | hrest
      · dsimp only at hguards
        rw [hguards] at hmakes
        exact hmakes.guards_eq
      · exact ih _ made hrest guards hguards

/-- A process that has not set its log up. -/
def unset : Logging := { subscriber? := none, files := { nodes := [], here := [] } }

/-- **The log stays as the first call that succeeds sets it up.** After any calls `before`, a further
one fails exactly if it has no filter that can be read or its log file cannot be made ready, and then
it installs nothing. What is installed at that moment is what the first of the calls described that
succeeded, and no calls `later` change it, whether they succeed or not. -/
theorem first_setup_stays (filters : FilterLanguage) (before : List SetupCall) (call : SetupCall)
    (later : List SetupCall) :
    let log := (makeAll filters before unset).2
    ((∃ fault, (call.make filters log).1 = .error fault) ↔ call.NoFilter filters ∨ call.NoFile)
      ∧ (∀ fault, (call.make filters log).1 = .error fault →
        (call.make filters log).2.subscriber? = log.subscriber?)
      ∧ log.subscriber? =
        (((makeAll filters before unset).1.find? fun made => made.2.isOk).bind fun made =>
          made.1.described? filters)
      ∧ ∀ s, log.subscriber? = some s → (makeAll filters later log).2.subscriber? = some s := by
  intro log
  have hmakes := makes_make filters call log
  refine ⟨hmakes.fails_iff, fun fault hfault => ?_, subscriber_makeAll before unset, ?_⟩
  · rw [hfault] at hmakes
    exact hmakes.unchanged
  · intro s hs
    rw [subscriber_makeAll, hs]
    rfl

/-! ### Four calls -/

def plainFile : FileTree :=
  { nodes := [([Utf8.encode "plain"], .file (Utf8.encode "x\n"))], here := [] }

/-- A call in an empty environment that finds the plain file. -/
def asking (level : String) (format : Format) (stderr : Bool) (file? : Option Path) : SetupCall :=
  { env := []
    config := { level := level, format := format, stderr := stderr, file? := file? }
    files := plainFile }

/-- A call without a filter, one with a log file below a plain file, and then two that succeed: the
third call decides. -/
theorem first_setup_stays_fourCalls :
    let filters := Directives.language
    let nameless := asking "=debug" .pretty false none
    let before := [nameless, asking "info" .json false (some (.ofText "plain/run.log")),
      asking "debug" .compact true (some (.ofText "logs/run.log"))]
    let later := [asking "trace" .json false none]
    let s : Subscriber :=
      { filter := "debug", format := .compact, stderr := true
        file? := some (.ofText "logs/run.log") }
    let log := (makeAll filters before unset).2
    log.subscriber? = some s
      ∧ (makeAll filters later log).2.subscriber? = some s
      ∧ nameless.NoFilter filters
      ∧ ∃ fault, (nameless.make filters log).1 = .error fault
        ∧ (nameless.make filters log).2.subscriber? = some s := by
  intro filters nameless before later s log
  obtain ⟨hfails, hkept, -, hstays⟩ := first_setup_stays filters before nameless later
  have hset : log.subscriber? = some s := by decide +kernel
  have hbad : nameless.NoFilter filters := by
    refine ⟨fun text htext => ?_, by decide +kernel⟩
    cases htext
  obtain ⟨fault, hfault⟩ := hfails.mpr (.inl hbad)
  exact ⟨hset, hstays s hset, hbad, fault, hfault, (hkept fault hfault).trans hset⟩

/-- Of two calls with log files the first is the one that is installed, and the second still returns the
guards of its own file. -/
theorem second_guards_kept :
    let calls := [asking "info" .json false (some (.ofText "logs/run.log")),
      asking "info" .json false (some (.ofText "logs/later.log"))]
    let made := makeAll Directives.language calls unset
    made.1.map (fun made => made.2.toOption)
        = [some ⟨some (.ofText "logs/run.log")⟩, some ⟨some (.ofText "logs/later.log")⟩]
      ∧ made.2.subscriber?.bind Subscriber.file? = some (.ofText "logs/run.log") := by
  intro calls made
  exact ⟨by decide +kernel, by decide +kernel⟩

end PowerBench.Log
