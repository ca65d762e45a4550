import PowerBench.Child.Wait
import PowerBench.Session
import PowerBench.Text.ShellWord

/-!
# Running programs

One call runs one program: it is started, watched until it has exited and its output is complete, or
killed with its group and waited for when its time is up. Another exit code than zero is no error here.
-/

set_option autoImplicit false

namespace PowerBench.Child

/-- Where the log entries of runs come from. -/
def target : String := "bits_client::runner"

def entry (level : Log.Level) (message : String) (fields : List (String × Log.FieldValue)) :
    Log.Entry :=
  { level := level, target := target, message := message, fields := fields }

def starting (c : Call) : Log.Entry :=
  entry .debug "spawning"
    [("command", .shown (ShellWord.commandLine c.program c.args)), ("timeout", .shown c.limit.text)]

def finished (c : Call) (status : ExitStatus) (elapsed : Duration) (output : Bytes) : Log.Entry :=
  entry .debug "command finished"
    [("program", .shown c.program.shown),
      ("exit_code", .shown (Finished.exitCodeText status.code?)),
      ("duration_ms", .number elapsed.millis), ("output_bytes", .number output.length)]

def killed (c : Call) (pid : ProcessId) (why : Overdue) : Log.Entry :=
  entry .warn "command timed out, killed"
    [("program", .shown c.program.shown), ("pid", .number pid.val), ("timeout", .shown c.limit.text),
      ("reason", .text why.text)]

/-- The shortest interval between looks. -/
def leastPoll : Duration := .ofMillis 1

/-- The interval between looks when none is asked for. -/
def defaultPoll : Duration := .ofMillis 10

def pollInterval (asked : Duration) : Duration := ⟨max asked.nanos leastPoll.nanos⟩

namespace System

variable {σ : Type}

def giveUp (sys : System σ) (pid : ProcessId) (c : Call) (why : Overdue) :
    Course σ (Except ClientError Finished × List Log.Entry) := do
  modify (sys.terminate pid)
  pure (.error (.timedOut c.program.shown c.limit pid), [starting c, killed c pid why])

/-- What a run comes to once its child has been watched. -/
def conclude (sys : System σ) (pid : ProcessId) (c : Call) (seen : Except Unseen ExitStatus) :
    Course σ (Except ClientError Finished × List Log.Entry) := do
  match seen with
  | .error (.fault cause) => pure (.error (.io cause), [starting c])
  | .error .overdue => sys.giveUp pid c .stillRunning
  | .ok status =>
    let elapsed ← modifyGet sys.elapsed
    match ← modifyGet (sys.receive (drainLimit c.limit elapsed)) with
    | none => sys.giveUp pid c .outputOpen
    | some output =>
      let elapsed ← modifyGet sys.elapsed
      pure (.ok ⟨Utf8.lossy output, status.code?⟩, [starting c, finished c status elapsed output])

/-- Runs a call whose program has been started under a process number. -/
def run (sys : System σ) (poll : Duration) (pid : ProcessId) (c : Call) :
    Course σ (Except ClientError Finished × List Log.Entry) := do
  let seen ← sys.await poll c.limit
  sys.conclude pid c seen

theorem giveUp_apply (sys : System σ) (pid : ProcessId) (c : Call) (why : Overdue) (s : σ) :
    sys.giveUp pid c why s =
      some ((.error (.timedOut c.program.shown c.limit pid), [starting c, killed c pid why]),
        sys.terminate pid s) := rfl

/-- After an exit the output decides. -/
theorem conclude_exited (sys : System σ) (pid : ProcessId) (c : Call) (status : ExitStatus) (s : σ) :
    sys.conclude pid c (.ok status) s =
      match sys.receive (drainLimit c.limit (sys.elapsed s).1) (sys.elapsed s).2 with
      | (none, s) => sys.giveUp pid c .outputOpen s
      | (some output, s) =>
        some ((.ok ⟨Utf8.lossy output, status.code?⟩,
          [starting c, finished c status (sys.elapsed s).1 output]), (sys.elapsed s).2) := by
  unfold conclude
  dsimp only
  rw [Course.bind_apply, Course.modifyGet_apply, Option.bind_some, Course.bind_apply,
    Course.modifyGet_apply, Option.bind_some]
  rcases sys.receive (drainLimit c.limit (sys.elapsed s).1) (sys.elapsed s).2 with ⟨_ | output, s⟩ <;> rfl

/-- A run ends if the watch over its child does. -/
theorem run_ends {sys : System σ} {poll : Duration} {c : Call} {s later : σ}
    {seen : Except Unseen ExitStatus} (watched : sys.await poll c.limit s = some (seen, later))
    (pid : ProcessId) : (sys.run poll pid c s).isSome := by
  rw [run, Course.bind_apply, watched, Option.bind_some]
  rcases seen with (_ | cause) | status
  · rfl
  · rfl
  · rw [conclude_exited]
    split <;> rfl

end System

/-- A run of a child that behaves in some way comes to an end. -/
theorem Behaviour.isSome_run (b : Behaviour) (poll : Duration) (pid : ProcessId) (c : Call) :
    (b.system.run poll pid c ⟨0⟩).isSome := by
  obtain ⟨seen, later, hends⟩ := b.await_ends poll c.limit ⟨0⟩
  exact System.run_ends hends pid

/-- Runs a call, given what came of starting the program under a process number. -/
def run (poll : Duration) (pid : ProcessId) (started : Except IoFault Behaviour) (c : Call) :
    Except ClientError Finished × List Log.Entry :=
  match started with
  | .error cause => (.error (.notStarted c.program.shown cause), [starting c])
  | .ok b => ((b.system.run poll pid c ⟨0⟩).get (b.isSome_run poll pid c)).1

/-- What starting a program came to, and what the program did to the file that its call named. -/
structure Launch where
  started : Except IoFault Behaviour
  file : FileEffect
deriving Repr

def instrument {σ : Type} (poll : Duration) (launch : FileTree → Call → σ → Launch × σ) :
    Instrument σ := fun files c state =>
  let (l, state) := launch files c state
  let (result, log) := run poll 0 l.started c
  ({ result := result, file := l.file, log := log }, state)

end PowerBench.Child
