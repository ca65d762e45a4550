import PowerBench.Proofs.ProgramRun
import PowerBench.Proofs.SideBySide

set_option autoImplicit false

/-! # The tasks of the program

A task is one step of the client (`Task.step`) and then the printing of a text made of what the step
gives (`Task.printed`); it fails where the step does, or where the text cannot be made, and prints
nothing of its own then (`execTask_eq`). So what is known of steps is known of tasks, and of whole runs:
with two instruments that keep step, the program ends alike but for what is logged (`run_inStep`).
-/

namespace PowerBench

open Operation

variable {σ τ α : Type}

namespace Control

/-! ## Steps and texts -/

def Task.step : Task → Client.Step
  | .listDevices => .listDevices
  | .start name rate => .start name rate
  | .stop name => .stop name
  | .archive name dest => .archive name dest
  | .csv name dest picked => .csv picked name dest
  | .markers name ms => .addMarkers name ms
  | .metrics name start? stop? _ => .metrics name start? stop?
  | .channels name => .channels name
  | .trace name pattern dest => .trace dest name pattern
  | .monitor action => .monitor action

/-- What is being done, as a complaint says it. -/
def Task.context : Task → String
  | .listDevices => "listing devices"
  | .start name _ => "starting collection " ++ name
  | .stop name => "stopping collection " ++ name
  | .archive name _ => "exporting collection " ++ name
  | .csv name _ _ => "exporting collection " ++ name ++ " as csv"
  | .markers name _ => "adding markers to " ++ name
  | .metrics name _ _ _ => "fetching metrics for " ++ name
  | .channels name => "listing channels of " ++ name
  | .trace name _ _ => "exporting " ++ name ++ " in monsoon format"
  | .monitor action => "monsoon " ++ actionName action

/-- The text that a task makes of what its step gives: the output of the instrument, the report in
its form, the channels line by line, or a line about what has been done. -/
def Task.printed : Task → Client.Given → Except Report.RenderFault String
  | .listDevices, .text output => .ok output
  | .monitor _, .text output => .ok output
  | .metrics _ _ _ format, .report r => render r format
  | .channels _, .names names => .ok (String.join (names.map (· ++ "\n")))
  | .trace _ _ dest, .samples count =>
    .ok ("wrote " ++ toString count ++ " sample(s) to " ++ dest.shown ++ "\n")
  | .markers name ms, .nothing =>
    .ok ("added " ++ toString ms.length ++ " marker(s) to " ++ name ++ "\n")
  | _, _ => .ok ""

/-! ## Printing -/

theorem print_print (a b : String) (s : Session σ) : (s.print a).print b = s.print (a ++ b) := by
  simp only [Session.print, String.append_assoc]

theorem print_empty (s : Session σ) : s.print "" = s := by
  simp only [Session.print, String.append_empty]

theorem run_printLines (texts : List String) (s : Session σ) :
    (printLines texts).run.run s = (.ok (), s.print (String.join (texts.map (· ++ "\n")))) := by
  induction texts generalizing s with
  | nil => exact congrArg (Except.ok (), ·) (print_empty s).symm
  | cons text rest ih =>
      have hstep : (printLines (text :: rest)).run.run s
          = (printLines rest).run.run (s.print (text ++ "\n")) := rfl
      rw [hstep, ih, print_print, List.map_cons, String.join_cons]

/-- The end of a task whose step has given a result: its text is printed, if it can be made. -/
def Task.finish (t : Task) (given : Client.Given) (s : Session σ) : Except Failure Unit × Session σ :=
  match t.printed given with
  | .ok text => (.ok (), s.print text)
  | .error e => (.error (.render e), s)

/-- A task that performs an operation and then prints, as its step and its text say. -/
theorem execTask_of {c : Client σ} {t : Task} {op : Operation σ α} {wrap : α → Client.Given}
    {f : α → ExceptT Failure (StateM (Session σ)) Unit}
    (hperform : perform c t = during t.context op >>= f) (hstep : c.perform t.step = wrap <$> op)
    (htext : ∀ a s, (f a).run.run s = t.finish (wrap a) s) (s : Session σ) :
    execTask c t s = match exec (c.perform t.step) s with
      | (.ok given, s') => t.finish given s'
      | (.error e, s') => (.error (.client t.context e), s') := by
  unfold execTask
  rw [hperform, run_during_bind, hstep, exec_map]
  rcases exec op s with ⟨e | a, s'⟩
  · rfl
  · exact htext a s'

/-- **A task is a step and a text.** It fails where the step of the client does, and then with the
error of the step; else the text decides, and is printed. -/
theorem execTask_eq (c : Client σ) (t : Task) (s : Session σ) :
    execTask c t s = match exec (c.perform t.step) s with
      | (.ok given, s') => t.finish given s'
      | (.error e, s') => (.error (.client t.context e), s') := by
  cases t with
  | listDevices | monitor | markers | trace => exact execTask_of rfl rfl (fun _ _ => rfl) s
  -- These four have nothing to print.
  | start | stop | archive | csv =>
      refine execTask_of (bind_pure _).symm rfl (fun _ s => ?_) s
      exact congrArg (Except.ok (), ·) (print_empty s).symm
  | channels name => exact execTask_of rfl rfl (fun names s => run_printLines names s) s
  | metrics name start? stop? format =>
      refine execTask_of rfl rfl (fun report s => ?_) s
      unfold Task.finish
      dsimp only [Task.printed]
      cases render report format with
      | ok text => rfl
      | error e => rfl

/-- Adding markers is the client's step, and then a line about it. -/
theorem execTask_markers (c : Client σ) (name : String) (markers : List (Timestamp × String))
    (s : Session σ) :
    execTask c (.markers name markers) s = match exec (c.addMarkers name markers) s with
      | (.ok (), s') =>
        (.ok (),
          s'.print ("added " ++ toString markers.length ++ " marker(s) to " ++ name ++ "\n"))
      | (.error e, s') => (.error (.client ("adding markers to " ++ name) e), s') := by
  have hstep : exec (c.perform (Task.markers name markers).step) s
      = ((exec (c.addMarkers name markers) s).1.map fun _ => .nothing,
        (exec (c.addMarkers name markers) s).2) := exec_map _ _ s
  rw [execTask_eq, hstep]
  rcases exec (c.addMarkers name markers) s with ⟨e | done, s'⟩
  · rfl
  · rfl

/-- A task leaves the instrument as its step does. -/
theorem execTask_state (c : Client σ) (t : Task) (s : Session σ) :
    (execTask c t s).2.state = (exec (c.perform t.step) s).2.state := by
  rw [execTask_eq]
  rcases exec (c.perform t.step) s with ⟨e | given, s'⟩
  · rfl
  · dsimp only [Task.finish]
    cases t.printed given with
    | ok text => rfl
    | error e => rfl

/-! ## Two instruments -/

/-- The outcomes are the same, but for what was logged and the state of the instrument; the states
are related. -/
structure Outcome.SameButLog (R : σ → τ → Prop) (o : Outcome σ) (o' : Outcome τ) : Prop where
  exitCode : o'.exitCode = o.exitCode
  stdout : o'.stdout = o.stdout
  complaint : o'.complaint? = o.complaint?
  logging : o'.logging = o.logging
  state : R o.state o'.state

variable {R : σ → τ → Prop}

theorem execTask_inStep {c : Client σ} {c' : Client τ} {f : Call → Call}
    (keeps : Instrument.KeepsStep R f c.instrument c'.instrument) {t : Task}
    (same : Client.Translates f c c' t.step) {s : Session σ} {s' : Session τ}
    (alike : s.Alike R s') :
    (execTask c' t s').1 = (execTask c t s).1
      ∧ (execTask c t s).2.Alike R (execTask c' t s').2 := by
  obtain ⟨result, after, -⟩ := Client.perform_inStep keeps same s s' alike
  rw [execTask_eq, execTask_eq]
  rcases hdone : exec (c.perform t.step) s with ⟨r, mid⟩
  rcases hdone' : exec (c'.perform t.step) s' with ⟨r', mid'⟩
  rw [hdone, hdone'] at result after
  obtain rfl : r' = r := result
  cases r' with
  | error e => exact ⟨rfl, after⟩
  | ok given =>
      dsimp only [Task.finish]
      cases t.printed given with
      | error e => exact ⟨rfl, after⟩
      | ok text =>
          refine ⟨rfl, after.state, after.files, after.scratch, ?_⟩
          exact congrArg (· ++ text) after.printed

section

variable {filters : Log.FilterLanguage} {i : Instrument σ} {j : Instrument τ} {st : σ} {st' : τ}

theorem runTask_inStep (keeps : Instrument.KeepsStep R id i j) (related : R st st')
    (env : Environment) (files : FileTree) (a : Arguments) :
    (runTask env j st' files a).1 = (runTask env i st files a).1
      ∧ (runTask env i st files a).2.Alike R (runTask env j st' files a).2 := by
  unfold runTask
  dsimp only
  cases serviceConfig files a with
  | error fault => exact ⟨rfl, related, rfl, rfl, rfl⟩
  | ok config =>
      have same : Client.Translates id (client env i a config) (client env j a config) a.task.step :=
        ⟨fun _ _ _ => rfl, fun _ _ _ => rfl⟩
      exact execTask_inStep keeps same ⟨related, rfl, rfl, rfl⟩

theorem runArguments_inStep (keeps : Instrument.KeepsStep R id i j) (related : R st st')
    (env : Environment) (files : FileTree) (a : Arguments) :
    (runArguments filters env i st files a).SameButLog R (runArguments filters env j st' files a) := by
  unfold runArguments
  dsimp only
  rcases Log.setUp filters env (logConfig env a).1 { subscriber? := none, files := files }
    with ⟨fault | guards, logging⟩
  · exact ⟨rfl, rfl, rfl, rfl, related⟩
  · dsimp only
    obtain ⟨result, alike⟩ := runTask_inStep keeps related env logging.files a
    rcases hdone : runTask env i st logging.files a with ⟨r, s⟩
    rcases hdone' : runTask env j st' logging.files a with ⟨r', s'⟩
    rw [hdone, hdone'] at result alike
    obtain rfl : r' = r := result
    have hfiles : s'.files = s.files := alike.files
    dsimp only
    rw [hfiles]
    exact ⟨rfl, alike.printed, rfl, rfl, alike.state⟩

/-- A run that ends with its command line shows nothing of the instrument. -/
theorem halted_same (related : R st st') (env : Environment) (files : FileTree)
    (h : CommandLine.Halt) :
    (halted env st files h).SameButLog R (halted env st' files h) := by
  cases h with
  | help command? =>
      cases command? with
      | none => exact ⟨rfl, rfl, rfl, rfl, related⟩
      | some c => exact ⟨rfl, rfl, rfl, rfl, related⟩
  | version => exact ⟨rfl, rfl, rfl, rfl, related⟩
  | nothingGiven => exact ⟨rfl, rfl, rfl, rfl, related⟩
  | fault f => exact ⟨rfl, rfl, rfl, rfl, related⟩

/-- **Runs keep side by side.** With two instruments that keep step the program ends with the same
exit code and complaint, having printed the same, and leaves the same files. -/
theorem run_inStep (keeps : Instrument.KeepsStep R id i j) (related : R st st')
    (filters : Log.FilterLanguage) (env : Environment) (args : List Bytes) (files : FileTree) :
    (run filters env args i st files).SameButLog R (run filters env args j st' files) := by
  unfold run
  cases CommandLine.parse env grammar args with
  | error h => exact halted_same related env files h
  | ok p =>
      dsimp only
      cases arguments? p with
      | none => exact halted_same related env files .nothingGiven
      | some a => exact runArguments_inStep keeps related env files a

end

end Control

end PowerBench
