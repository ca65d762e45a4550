import PowerBench.Duration
import PowerBench.IoFault
import PowerBench.Text.Utf8

/-!
# Waiting for a child

A runner looks at its child again and again until the child has exited or the time limit is reached;
each look asks first whether the child has exited and reads the clock after that. Once the child has
exited, its output is read to the end, for what is left of the limit but never less than a moment of
grace, since a process left behind may hold the pipe open. A child that is given up is killed with its
whole group and then waited for, so that nothing is left of it.
-/

set_option autoImplicit false

namespace PowerBench.Child

/-- How a process ended. -/
inductive ExitStatus where
  | code (n : Nat)
  | signal
deriving DecidableEq, Repr

/-- The exit code of a process that was not ended by a signal. -/
def ExitStatus.code? : ExitStatus → Option Int
  | .code n => some n
  | .signal => none

/-- The number of a process, which is also the number of the group that it leads. Such numbers are
signed and of 32 bits, and not negative. -/
abbrev ProcessId := Fin 2147483648

/-- Why a child is killed. -/
inductive Overdue where
  | stillRunning
  | outputOpen
deriving DecidableEq, Repr

def Overdue.text : Overdue → String
  | .stillRunning => "process still running"
  | .outputOpen => "output still open after exit"

/-! ## Systems with a child -/

/-- A system in which a child has been started, as its runner meets it: what can be asked of the system
and done with the child, in states `σ`. A child whose exit is told is no process any more. -/
structure System (σ : Type) where
  exited? : σ → Except IoFault (Option ExitStatus) × σ
  elapsed : σ → Duration × σ
  sleep : Duration → σ → σ
  receive : Duration → σ → Option Bytes × σ
  killGroup : ProcessId → σ → σ
  kill : σ → σ
  reap : σ → σ

/-- A course of questions and acts; there is none where it never ends or breaks off. -/
abbrev Course (σ α : Type) := StateT σ Option α

namespace Course

variable {σ α β : Type}

theorem bind_apply (m : Course σ α) (f : α → Course σ β) (s : σ) :
    (m >>= f) s = (m s).bind fun r => f r.1 r.2 := rfl

theorem modifyGet_apply (f : σ → α × σ) (s : σ) : (modifyGet f : Course σ α) s = some (f s) := rfl

theorem liftM_apply (o : Option α) (s : σ) :
    (liftM o : Course σ α) s = o.map fun a => (a, s) := by
  cases o <;> rfl

end Course

/-- Why no exit of a child is seen. -/
inductive Unseen where
  | overdue
  | fault (cause : IoFault)
deriving DecidableEq, Repr, Inhabited

/-- The least time for reading the output to its end. -/
def drainGrace : Duration := .ofMillis 50

/-- How long the output may stay open after the exit. -/
def drainLimit (limit elapsed : Duration) : Duration :=
  ⟨max (limit.nanos - elapsed.nanos) drainGrace.nanos⟩

namespace System

variable {σ : Type}

/-- One look at the child: it has exited, or the time limit is reached, or the runner sleeps, but never
past the limit, and then there is another look. -/
def look (sys : System σ) (poll limit : Duration) : Course σ (Unit ⊕ Except Unseen ExitStatus) := do
  match ← modifyGet sys.exited? with
  | .error cause => pure (.inr (.error (.fault cause)))
  | .ok (some status) => pure (.inr (.ok status))
  | .ok none =>
    let elapsed ← modifyGet sys.elapsed
    if limit.nanos ≤ elapsed.nanos then pure (.inr (.error .overdue))
    else
      let left ← limit.minus? elapsed
      modify (sys.sleep (poll.shorter left))
      pure (.inl ())

/-- Looks at the child until it has exited or the time limit is reached. -/
def await (sys : System σ) (poll limit : Duration) : Course σ (Except Unseen ExitStatus) :=
  repeatM (fun _ => sys.look poll limit) ()

/-- Kills all processes of the group of the child, and the child, and waits for its end. -/
def terminate (sys : System σ) (pid : ProcessId) (s : σ) : σ :=
  sys.reap (sys.kill (sys.killGroup pid s))

theorem look_apply (sys : System σ) (poll limit : Duration) (s : σ) :
    sys.look poll limit s =
      match sys.exited? s with
      | (.error cause, s) => some (.inr (.error (.fault cause)), s)
      | (.ok (some status), s) => some (.inr (.ok status), s)
      | (.ok none, s) =>
        if limit.nanos ≤ (sys.elapsed s).1.nanos then
          some (.inr (.error .overdue), (sys.elapsed s).2)
        else
          (limit.minus? (sys.elapsed s).1).map fun left =>
            (.inl (), sys.sleep (poll.shorter left) (sys.elapsed s).2) := by
  rw [look, Course.bind_apply, Course.modifyGet_apply, Option.bind_some]
  rcases sys.exited? s with ⟨cause | status | status, s⟩
  · rfl
  · show (modifyGet sys.elapsed >>= _ : Course σ _) s = _
    rw [Course.bind_apply, Course.modifyGet_apply, Option.bind_some]
    dsimp only
    split
    · rfl
    · rw [Course.bind_apply, Course.liftM_apply]
      cases limit.minus? (sys.elapsed s).1 <;> rfl
  · rfl

/-- Waiting, one look at a time. -/
theorem await_apply (sys : System σ) (poll limit : Duration) (s : σ) :
    sys.await poll limit s =
      match sys.exited? s with
      | (.error cause, s) => some (.error (.fault cause), s)
      | (.ok (some status), s) => some (.ok status, s)
      | (.ok none, s) =>
        if limit.nanos ≤ (sys.elapsed s).1.nanos then some (.error .overdue, (sys.elapsed s).2)
        else
          (limit.minus? (sys.elapsed s).1).bind fun left =>
            sys.await poll limit (sys.sleep (poll.shorter left) (sys.elapsed s).2) := by
  have : Nonempty σ := ⟨s⟩
  conv => lhs; rw [await, repeatM_eq_of_monadTail, repeatM.body, Course.bind_apply, look_apply]
  rcases sys.exited? s with ⟨cause | status | status, s⟩
  · rfl
  · dsimp only
    split
    · rfl
    · rw [Option.bind_map]
      rfl
  · rfl

end System

/-! ## Behaviour -/

/-- What a child does: how it ends and when, when its output closes, and all that comes out. An event
that never happens has no time. -/
structure Behaviour where
  status : ExitStatus
  exitAt? : Option Duration
  closeAt? : Option Duration
  output : Bytes
deriving Repr

namespace Behaviour

/-- Whether an event has happened by a time. -/
def happened (at? : Option Duration) (now : Duration) : Bool :=
  match at? with
  | some t => t.nanos ≤ now.nanos
  | none => false

/-- A system with a child that behaves so. Its state is the time, which stands still except while the
runner sleeps or waits. -/
def system (b : Behaviour) : System Duration where
  exited? now := (.ok (if happened b.exitAt? now then some b.status else none), now)
  elapsed now := (now, now)
  sleep pause now := ⟨now.nanos + max 1 pause.nanos⟩
  receive wait now :=
    let last : Duration := ⟨now.nanos + wait.nanos⟩
    if happened b.closeAt? last then
      (some b.output, ⟨max now.nanos ((b.closeAt?.getD last).nanos)⟩)
    else (none, last)
  killGroup _ now := now
  kill now := now
  reap now := now

/-- The watch over a child that behaves so comes to an end. -/
theorem await_ends (b : Behaviour) (poll limit now : Duration) :
    ∃ seen later, b.system.await poll limit now = some (seen, later) := by
  -- Every sleep brings the time nearer to the limit.
  induction hleft : limit.nanos - now.nanos using Nat.strongRecOn generalizing now with
  | ind left ih =>
      have hlook : b.system.exited? now
          = (.ok (if happened b.exitAt? now then some b.status else none), now) := rfl
      rw [System.await_apply, hlook]
      cases happened b.exitAt? now with
      | true => exact ⟨_, _, rfl⟩
      | false =>
          by_cases hlate : limit.nanos ≤ now.nanos
          · exact ⟨_, _, if_pos hlate⟩
          · have hleft : limit.minus? now = some ⟨limit.nanos - now.nanos⟩ := if_pos (by omega)
            have hnear : limit.nanos
                - (b.system.sleep (poll.shorter ⟨limit.nanos - now.nanos⟩) now).nanos < left := by
              show limit.nanos - (now.nanos + max 1 _) < left
              omega
            obtain ⟨seen, later, hends⟩ := ih _ hnear _ rfl
            refine ⟨seen, later, ?_⟩
            show (if limit.nanos ≤ now.nanos then _ else (limit.minus? now).bind _) = _
            rw [if_neg hlate, hleft]
            exact hends

end Behaviour

end PowerBench.Child
