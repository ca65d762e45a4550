import Mathlib.Data.Nat.Find
import PowerBench.Child.Run

set_option autoImplicit false

/-! # Watched children

A runner knows of its child only what it is told (`Told`): at each look whether the child has exited,
at each reading of the clock how much time has gone by, and at the end the output, if that is complete
in time. Nothing is supposed about how these go together. What the runner does is kept in a diary, act
by act. The rounds in which nothing is decided are gone through one after the other (`await_rounds`), so
the first one that decides determines how the run ends and what has been done by then (`ends_run`).
-/

namespace PowerBench.Child

/-! ## What a runner is told, and what it does -/

/-- What a runner is told of a child: the answer to each look, the time at each reading of the clock, and
how long after the wait for it has begun the output is complete, if it ever is, with all of it. -/
structure Told where
  exited? : Nat → Option ExitStatus
  elapsed : Nat → Duration
  closes? : Option Duration
  output : Bytes

/-- What a runner does. A look is noted with its answer. -/
inductive Act where
  | look (answer : Option ExitStatus)
  | sleep (pause : Duration)
  | receive (wait : Duration)
  | killGroup (pid : ProcessId)
  | kill
  | reap
deriving DecidableEq, Repr

/-- Nothing is left of a child after a look that tells its exit, and after it has been waited for. -/
def Act.endsChild : Act → Bool
  | .look (some _) => true
  | .reap => true
  | _ => false

/-- What a runner has done, oldest first, and how often it has looked and read the clock. -/
structure Diary where
  looks : Nat
  readings : Nat
  acts : List Act
deriving DecidableEq, Repr

namespace Diary

def blank : Diary := { looks := 0, readings := 0, acts := [] }

def note (a : Act) (d : Diary) : Diary := { d with acts := d.acts ++ [a] }

/-- Nothing is left of the child. -/
def Reaped (d : Diary) : Prop := ∃ a ∈ d.acts, a.endsChild

end Diary

namespace Told

/-- The output is complete within a time. -/
def ClosesWithin (t : Told) (wait : Duration) : Prop :=
  ∃ after, t.closes? = some after ∧ after.nanos ≤ wait.nanos

instance (t : Told) (wait : Duration) : Decidable (t.ClosesWithin wait) :=
  match h : t.closes? with
  | none => isFalse (by rintro ⟨after, hafter, -⟩; rw [h] at hafter; cases hafter)
  | some after =>
    decidable_of_iff (after.nanos ≤ wait.nanos) (by simp [ClosesWithin, h])

/-- The system that tells a runner so, and whose state is the diary of the runner. -/
def system (t : Told) : System Diary where
  exited? d :=
    (.ok (t.exited? d.looks),
      { looks := d.looks + 1, readings := d.readings, acts := d.acts ++ [.look (t.exited? d.looks)] })
  elapsed d := (t.elapsed d.readings, { d with readings := d.readings + 1 })
  sleep pause := Diary.note (.sleep pause)
  receive wait d :=
    (if t.ClosesWithin wait then some t.output else none, d.note (.receive wait))
  killGroup pid := Diary.note (.killGroup pid)
  kill := Diary.note .kill
  reap := Diary.note .reap

variable (t : Told)

/-- The first look that tells an exit. -/
structure FirstExit (n : Nat) (status : ExitStatus) : Prop where
  exited : t.exited? n = some status
  before : ∀ m < n, t.exited? m = none

/-- The first reading of the clock that is not before the limit. -/
structure FirstLate (limit : Duration) (n : Nat) : Prop where
  late : limit.nanos ≤ (t.elapsed n).nanos
  before : ∀ m < n, (t.elapsed m).nanos < limit.nanos

variable {t}

theorem FirstExit.unique {n n' : Nat} {status status' : ExitStatus} (h : t.FirstExit n status)
    (h' : t.FirstExit n' status') : n = n' ∧ status = status' := by
  have hn : n = n' := by
    rcases Nat.lt_trichotomy n n' with hlt | heq | hlt
    · have hnone := h'.before n hlt
      rw [h.exited] at hnone
      cases hnone
    · exact heq
    · have hnone := h.before n' hlt
      rw [h'.exited] at hnone
      cases hnone
  subst hn
  exact ⟨rfl, Option.some.inj (h.exited.symm.trans h'.exited)⟩

/-! ## Rounds -/

/-- In the first `n` rounds nothing is decided. -/
def Undecided (t : Told) (limit : Duration) (n : Nat) : Prop :=
  ∀ m < n, t.exited? m = none ∧ (t.elapsed m).nanos < limit.nanos

/-- What the runner does in the first `n` rounds in which nothing is decided. -/
def rounds (t : Told) (poll limit : Duration) : Nat → List Act
  | 0 => []
  | n + 1 =>
    t.rounds poll limit n
      ++ [.look none, .sleep (poll.shorter ⟨limit.nanos - (t.elapsed n).nanos⟩)]

/-- The diary after the first `n` rounds in which nothing is decided. -/
def diary (t : Told) (poll limit : Duration) (n : Nat) : Diary :=
  { looks := n, readings := n, acts := t.rounds poll limit n }

variable {poll limit : Duration}

/-- **A round in which nothing is decided** takes the wait to the next one. The time that is left is
there to be slept, since the clock was before the limit. -/
theorem await_round {n : Nat} (running : t.exited? n = none)
    (early : (t.elapsed n).nanos < limit.nanos) :
    t.system.await poll limit (t.diary poll limit n)
      = t.system.await poll limit (t.diary poll limit (n + 1)) := by
  have hleft : limit.minus? (t.elapsed n) = some ⟨limit.nanos - (t.elapsed n).nanos⟩ :=
    if_pos (Nat.le_of_lt early)
  have hlook : t.system.exited? (t.diary poll limit n)
      = (.ok none, ⟨n + 1, n, t.rounds poll limit n ++ [.look none]⟩) := by
    simp [system, diary, running]
  rw [System.await_apply, hlook]
  show (if limit.nanos ≤ (t.elapsed n).nanos then _ else (limit.minus? (t.elapsed n)).bind _) = _
  rw [if_neg (Nat.not_le.mpr early), hleft, Option.bind_some]
  simp [system, diary, rounds, Diary.note]

/-- **All rounds in which nothing is decided.** -/
theorem await_rounds (poll : Duration) {n : Nat} (undecided : t.Undecided limit n) :
    t.system.await poll limit .blank = t.system.await poll limit (t.diary poll limit n) := by
  induction n with
  | zero => rfl
  | succ n ih =>
      obtain ⟨hrunning, hearly⟩ := undecided n (Nat.lt_succ_self n)
      rw [ih fun m hm => undecided m (Nat.lt_succ_of_lt hm), await_round hrunning hearly]

/-- A look that tells an exit ends the wait, whatever the time. -/
theorem await_exited {n : Nat} {status : ExitStatus} (exited : t.exited? n = some status) :
    t.system.await poll limit (t.diary poll limit n)
      = some (.ok status, ⟨n + 1, n, t.rounds poll limit n ++ [.look (some status)]⟩) := by
  rw [System.await_apply]
  simp [system, diary, exited]

/-- So does a reading of the clock that is not before the limit. -/
theorem await_late {n : Nat} (running : t.exited? n = none)
    (late : limit.nanos ≤ (t.elapsed n).nanos) :
    t.system.await poll limit (t.diary poll limit n)
      = some (.error .overdue, ⟨n + 1, n + 1, t.rounds poll limit n ++ [.look none]⟩) := by
  rw [System.await_apply]
  simp [system, diary, running, late]

/-- Where the clock reaches the limit, some round is the first to decide: an exit is seen, or the
time is up. -/
theorem decided (reached : ∃ n, limit.nanos ≤ (t.elapsed n).nanos) :
    ∃ n, t.Undecided limit n
      ∧ ((∃ status, t.exited? n = some status)
        ∨ t.exited? n = none ∧ limit.nanos ≤ (t.elapsed n).nanos) := by
  have hsome : ∃ n, (∃ status, t.exited? n = some status) ∨ limit.nanos ≤ (t.elapsed n).nanos := by
    obtain ⟨n, hn⟩ := reached
    exact ⟨n, .inr hn⟩
  classical
  refine ⟨Nat.find hsome, fun m hm => ?_, ?_⟩
  · have hnot := Nat.find_min hsome hm
    rw [not_or] at hnot
    exact ⟨Option.eq_none_iff_forall_ne_some.mpr fun status h => hnot.1 ⟨status, h⟩,
      Nat.not_le.mp hnot.2⟩
  · cases hexited : t.exited? (Nat.find hsome) with
    | some status => exact .inl ⟨status, rfl⟩
    | none =>
        rcases Nat.find_spec hsome with ⟨status, hstatus⟩ | hlate
        · rw [hexited] at hstatus
          cases hstatus
        · exact .inr ⟨rfl, hlate⟩

end Told

/-! ## Runs -/

/-- How a run ends, and what has been done by then. -/
inductive Ends (t : Told) (poll : Duration) (pid : ProcessId) (c : Call) :
    Except ClientError Finished → List Act → Prop where
  | answered {n : Nat} {status : ExitStatus} (exited : t.exited? n = some status)
      (undecided : t.Undecided c.limit n)
      (complete : t.ClosesWithin (drainLimit c.limit (t.elapsed n))) :
      Ends t poll pid c (.ok ⟨Utf8.lossy t.output, status.code?⟩)
        (t.rounds poll c.limit n
          ++ [.look (some status), .receive (drainLimit c.limit (t.elapsed n))])
  | outputOpen {n : Nat} {status : ExitStatus} (exited : t.exited? n = some status)
      (undecided : t.Undecided c.limit n)
      (incomplete : ¬ t.ClosesWithin (drainLimit c.limit (t.elapsed n))) :
      Ends t poll pid c (.error (.timedOut c.program.shown c.limit pid))
        (t.rounds poll c.limit n
          ++ [.look (some status), .receive (drainLimit c.limit (t.elapsed n)), .killGroup pid,
            .kill, .reap])
  | stillRunning {n : Nat} (running : t.exited? n = none) (undecided : t.Undecided c.limit n)
      (late : c.limit.nanos ≤ (t.elapsed n).nanos) :
      Ends t poll pid c (.error (.timedOut c.program.shown c.limit pid))
        (t.rounds poll c.limit n ++ [.look none, .killGroup pid, .kill, .reap])

section

variable {t : Told} {c : Call}

theorem conclude_complete (pid : ProcessId) (status : ExitStatus) {d : Diary}
    (complete : t.ClosesWithin (drainLimit c.limit (t.elapsed d.readings))) :
    t.system.conclude pid c (.ok status) d
      = some ((.ok ⟨Utf8.lossy t.output, status.code?⟩,
          [starting c, finished c status (t.elapsed (d.readings + 1)) t.output]),
        ⟨d.looks, d.readings + 2,
          d.acts ++ [.receive (drainLimit c.limit (t.elapsed d.readings))]⟩) := by
  rw [System.conclude_exited]
  simp [Told.system, complete, Diary.note]

theorem conclude_incomplete (pid : ProcessId) (status : ExitStatus) {d : Diary}
    (incomplete : ¬ t.ClosesWithin (drainLimit c.limit (t.elapsed d.readings))) :
    t.system.conclude pid c (.ok status) d
      = some ((.error (.timedOut c.program.shown c.limit pid),
          [starting c, killed c pid .outputOpen]),
        ⟨d.looks, d.readings + 1,
          d.acts ++ [.receive (drainLimit c.limit (t.elapsed d.readings)), .killGroup pid, .kill,
            .reap]⟩) := by
  rw [System.conclude_exited]
  simp [Told.system, System.giveUp_apply, System.terminate, incomplete, Diary.note]

theorem conclude_overdue (pid : ProcessId) (d : Diary) :
    t.system.conclude pid c (.error .overdue) d
      = some ((.error (.timedOut c.program.shown c.limit pid),
          [starting c, killed c pid .stillRunning]),
        ⟨d.looks, d.readings, d.acts ++ [.killGroup pid, .kill, .reap]⟩) := by
  show t.system.giveUp pid c .stillRunning d = _
  rw [System.giveUp_apply]
  simp [Told.system, System.terminate, Diary.note]

/-- **A run ends in one of three ways.** -/
theorem ends_run (poll : Duration) (pid : ProcessId)
    (reached : ∃ n, c.limit.nanos ≤ (t.elapsed n).nanos) :
    ∃ result log d, t.system.run poll pid c .blank = some ((result, log), d)
      ∧ Ends t poll pid c result d.acts := by
  obtain ⟨n, hundecided, hdecided⟩ := Told.decided reached
  rw [System.run, Course.bind_apply, Told.await_rounds poll hundecided]
  rcases hdecided with ⟨status, hexited⟩ | ⟨hrunning, hlate⟩
  · rw [Told.await_exited hexited, Option.bind_some]
    by_cases hcomplete : t.ClosesWithin (drainLimit c.limit (t.elapsed n))
    · refine ⟨_, _, _, conclude_complete pid status hcomplete, ?_⟩
      rw [List.append_assoc]
      exact .answered hexited hundecided hcomplete
    · refine ⟨_, _, _, conclude_incomplete pid status hcomplete, ?_⟩
      rw [List.append_assoc]
      exact .outputOpen hexited hundecided hcomplete
  · rw [Told.await_late hrunning hlate, Option.bind_some]
    refine ⟨_, _, _, conclude_overdue pid _, ?_⟩
    rw [List.append_assoc]
    exact .stillRunning hrunning hundecided hlate

/-! ### The first round that decides -/

theorem Told.Undecided.le {limit : Duration} {n last : Nat} (undecided : t.Undecided limit n)
    (first : t.FirstLate limit last) : n ≤ last := by
  refine Nat.not_lt.mp fun hlt => ?_
  have hearly := (undecided last hlt).2
  have hlate := first.late
  omega

theorem Told.Undecided.firstExit {limit : Duration} {n : Nat} {status : ExitStatus}
    (undecided : t.Undecided limit n) (exited : t.exited? n = some status) :
    t.FirstExit n status :=
  ⟨exited, fun m hm => (undecided m hm).1⟩

/-- Up to the time limit no exit is seen where a round without one ends the wait. -/
theorem Told.Undecided.no_exit {limit : Duration} {n last : Nat} (undecided : t.Undecided limit n)
    (running : t.exited? n = none) (late : limit.nanos ≤ (t.elapsed n).nanos)
    (first : t.FirstLate limit last) : ∀ m ≤ last, ∀ status, ¬ t.FirstExit m status := by
  intro m hm status hexit
  have hlast : last ≤ n := Nat.not_lt.mp fun hlt => by
    have hearly := first.before n hlt
    omega
  have hnone : t.exited? m = none := by
    rcases Nat.lt_or_eq_of_le (Nat.le_trans hm hlast) with hlt | rfl
    · exact (undecided m hlt).1
    · exact running
  rw [hexit.exited] at hnone
  cases hnone

/-- The wait ends with the first exit that is seen up to the time limit. -/
theorem sees_exit {last : Nat} (first : t.FirstLate c.limit last) (poll : Duration) :
    ∃ seen d, t.system.await poll c.limit .blank = some (seen, d)
      ∧ ∀ status, seen = .ok status ↔ ∃ n ≤ last, t.FirstExit n status := by
  obtain ⟨n, hundecided, hdecided⟩ := Told.decided ⟨last, first.late⟩
  rw [Told.await_rounds poll hundecided]
  rcases hdecided with ⟨status, hexited⟩ | ⟨hrunning, hlate⟩
  · have hfirst := hundecided.firstExit hexited
    refine ⟨_, _, Told.await_exited hexited, fun status' => ⟨?_, ?_⟩⟩
    · intro hstatus
      obtain rfl := Except.ok.inj hstatus
      exact ⟨n, hundecided.le first, hfirst⟩
    · rintro ⟨m, -, hm⟩
      rw [(hfirst.unique hm).2]
  · refine ⟨_, _, Told.await_late hrunning hlate, fun status => ⟨nofun, ?_⟩⟩
    rintro ⟨m, hm, hexit⟩
    exact absurd hexit (hundecided.no_exit hrunning hlate first m hm status)

/-! ### What has been done -/

theorem mem_rounds {poll limit : Duration} {n : Nat} {a : Act} :
    a ∈ t.rounds poll limit n ↔ ∃ m < n, a = .look none
      ∨ a = .sleep (poll.shorter ⟨limit.nanos - (t.elapsed m).nanos⟩) := by
  induction n with
  | zero => simp [Told.rounds]
  | succ n ih =>
      rw [Told.rounds, List.mem_append, ih]
      constructor
      · rintro (⟨m, hm, ha⟩ | ha)
        · exact ⟨m, Nat.lt_succ_of_lt hm, ha⟩
        · exact ⟨n, Nat.lt_succ_self n, by simpa using ha⟩
      · rintro ⟨m, hm, ha⟩
        rcases Nat.lt_succ_iff_lt_or_eq.mp hm with hlt | rfl
        · exact .inl ⟨m, hlt, ha⟩
        · exact .inr (by simpa using ha)

namespace Ends

variable {poll : Duration} {pid : ProcessId} {result : Except ClientError Finished}
  {acts : List Act} {last : Nat}

/-- A run answers just where an exit is seen up to the time limit and the output is complete soon
enough after that. -/
theorem answers_iff (h : Ends t poll pid c result acts) (first : t.FirstLate c.limit last)
    (f : Finished) :
    result = .ok f ↔ ∃ n ≤ last, ∃ status, t.FirstExit n status
      ∧ t.ClosesWithin (drainLimit c.limit (t.elapsed n))
      ∧ f = ⟨Utf8.lossy t.output, status.code?⟩ := by
  cases h with
  | answered exited undecided complete =>
      have hfirst := undecided.firstExit exited
      constructor
      · intro hf
        obtain rfl := Except.ok.inj hf
        exact ⟨_, undecided.le first, _, hfirst, complete, rfl⟩
      · rintro ⟨m, -, status', hm, -, rfl⟩
        rw [(hfirst.unique hm).2]
  | outputOpen exited undecided incomplete =>
      have hfirst := undecided.firstExit exited
      refine ⟨nofun, ?_⟩
      rintro ⟨m, -, status', hm, hcomplete, -⟩
      rw [← (hfirst.unique hm).1] at hcomplete
      exact absurd hcomplete incomplete
  | stillRunning running undecided late =>
      refine ⟨nofun, ?_⟩
      rintro ⟨m, hm, status, hexit, -, -⟩
      exact absurd hexit (undecided.no_exit running late first m hm status)

/-- A run that does not answer has given its child up, and that was the last it did. -/
theorem gives_up (h : Ends t poll pid c result acts) (unanswered : ∀ f, result ≠ .ok f) :
    result = .error (.timedOut c.program.shown c.limit pid)
      ∧ ∃ before, acts = before ++ [.killGroup pid, .kill, .reap] := by
  cases h with
  | answered exited undecided complete => exact absurd rfl (unanswered _)
  | outputOpen exited undecided incomplete =>
      exact ⟨rfl, _, (List.append_assoc _ [_, _] [_, _, _]).symm⟩
  | stillRunning running undecided late =>
      exact ⟨rfl, _, (List.append_assoc _ [_] [_, _, _]).symm⟩

/-- However a run ends, nothing is left of its child. -/
theorem reaped (h : Ends t poll pid c result acts) : ∃ a ∈ acts, a.endsChild := by
  cases h with
  | @answered n status _ _ _ => exact ⟨.look (some status), by simp, rfl⟩
  | outputOpen exited undecided incomplete => exact ⟨.reap, by simp, rfl⟩
  | stillRunning running undecided late => exact ⟨.reap, by simp, rfl⟩

/-- Each sleep is as long as the interval between looks, or as what is left of the time limit. -/
theorem sleeps (h : Ends t poll pid c result acts) (first : t.FirstLate c.limit last)
    {pause : Duration} (mem : .sleep pause ∈ acts) :
    ∃ n < last, (t.elapsed n).nanos < c.limit.nanos
      ∧ pause.nanos = min poll.nanos (c.limit.nanos - (t.elapsed n).nanos) := by
  have hround : ∀ {n}, t.Undecided c.limit n → .sleep pause ∈ t.rounds poll c.limit n →
      ∃ n < last, (t.elapsed n).nanos < c.limit.nanos
        ∧ pause.nanos = min poll.nanos (c.limit.nanos - (t.elapsed n).nanos) := by
    intro n hundecided hmem
    obtain ⟨m, hm, hlook | hsleep⟩ := mem_rounds.mp hmem
    · cases hlook
    · cases hsleep
      exact ⟨m, Nat.lt_of_lt_of_le hm (hundecided.le first), (hundecided m hm).2, rfl⟩
  cases h with
  | answered exited undecided complete => exact hround undecided (by simpa using mem)
  | outputOpen exited undecided incomplete => exact hround undecided (by simpa using mem)
  | stillRunning running undecided late => exact hround undecided (by simpa using mem)

/-- The output is waited for just after an exit that is seen up to the time limit, for what is left of
the limit and at least for the moment of grace. -/
theorem waits_iff (h : Ends t poll pid c result acts) (first : t.FirstLate c.limit last)
    (wait : Duration) :
    .receive wait ∈ acts ↔ ∃ n ≤ last, ∃ status, t.FirstExit n status
      ∧ wait = drainLimit c.limit (t.elapsed n) := by
  have hround : ∀ n, .receive wait ∉ t.rounds poll c.limit n := by
    intro n hmem
    obtain ⟨m, -, hlook | hsleep⟩ := mem_rounds.mp hmem
    · cases hlook
    · cases hsleep
  have hwait : ∀ {n status}, t.FirstExit n status → n ≤ last →
      (wait = drainLimit c.limit (t.elapsed n) ↔ ∃ n ≤ last, ∃ status, t.FirstExit n status
        ∧ wait = drainLimit c.limit (t.elapsed n)) := by
    intro n status hfirst hle
    refine ⟨fun h => ⟨n, hle, status, hfirst, h⟩, ?_⟩
    rintro ⟨m, -, status', hm, h⟩
    rw [(hfirst.unique hm).1]
    exact h
  cases h with
  | answered exited undecided complete =>
      rw [← hwait (undecided.firstExit exited) (undecided.le first)]
      simp [hround]
  | outputOpen exited undecided incomplete =>
      rw [← hwait (undecided.firstExit exited) (undecided.le first)]
      simp [hround]
  | stillRunning running undecided late =>
      refine ⟨fun hmem => absurd hmem (by simp [hround]), ?_⟩
      rintro ⟨m, hm, status, hexit, -⟩
      exact absurd hexit (undecided.no_exit running late first m hm status)

end Ends

/-- **A watched child.** Whatever a runner is told, if only its clock reaches the time limit at some
reading, there is a first such reading `last`, and the run comes to an end. The wait for the child gives
an exit status exactly if an exit is seen by look `last`. The run answers with that status and all of
the output exactly if the output is complete within the time left or the moment of grace. Otherwise it
has timed out, and the last that it has done is to kill the group of the child and the child and to wait
for its end; so nothing is left of the child in any case. No time is ever taken from a shorter one: each
sleep is within what was left of the limit. -/
theorem child_watched (t : Told) (poll : Duration) (pid : ProcessId) (c : Call)
    (reached : ∃ n, c.limit.nanos ≤ (t.elapsed n).nanos) :
    ∃ last, t.FirstLate c.limit last
      ∧ (∃ seen d, t.system.await poll c.limit .blank = some (seen, d)
        ∧ ∀ status, seen = .ok status ↔ ∃ n ≤ last, t.FirstExit n status)
      ∧ ∃ result log d, t.system.run poll pid c .blank = some ((result, log), d)
        ∧ (∀ f, result = .ok f ↔ ∃ n ≤ last, ∃ status, t.FirstExit n status
          ∧ t.ClosesWithin (drainLimit c.limit (t.elapsed n))
          ∧ f = ⟨Utf8.lossy t.output, status.code?⟩)
        ∧ ((∀ f, result ≠ .ok f) →
          result = .error (.timedOut c.program.shown c.limit pid)
            ∧ ∃ before, d.acts = before ++ [.killGroup pid, .kill, .reap])
        ∧ d.Reaped
        ∧ (∀ wait, .receive wait ∈ d.acts ↔ ∃ n ≤ last, ∃ status, t.FirstExit n status
          ∧ wait = ⟨max (c.limit.nanos - (t.elapsed n).nanos) (50 * 1000000)⟩)
        ∧ ∀ pause, .sleep pause ∈ d.acts → ∃ n < last, (t.elapsed n).nanos < c.limit.nanos
          ∧ pause.nanos = min poll.nanos (c.limit.nanos - (t.elapsed n).nanos) := by
  have hfirst : t.FirstLate c.limit (Nat.find reached) :=
    ⟨Nat.find_spec reached, fun m hm => Nat.not_le.mp (Nat.find_min reached hm)⟩
  obtain ⟨result, log, d, hrun, hends⟩ := ends_run poll pid reached
  exact ⟨Nat.find reached, hfirst, sees_exit hfirst poll, result, log, d, hrun,
    hends.answers_iff hfirst, hends.gives_up, hends.reaped, hends.waits_iff hfirst,
    fun _ => hends.sleeps hfirst⟩

end

/-- A child that prints two letters and has exited by some look, or never does; ten milliseconds go by
from one reading of the clock to the next. -/
def ticking (exitsAt? : Option Nat) : Told :=
  { exited? := fun n => if exitsAt? = some n then some (.code 0) else none
    elapsed := fun n => .ofMillis (10 * n)
    closes? := some (.ofMillis 1)
    output := [104, 105] }

/-- A call with a tenth of a second. -/
def shortCall : Call := { program := .ofText "sh", args := [], limit := .ofMillis 100 }

/-- One child that exits by the third look, and one that never does. -/
theorem child_watched_inTimeAndNever :
    (∃ n, shortCall.limit.nanos ≤ ((ticking none).elapsed n).nanos)
      ∧ (∃ log d, (ticking (some 2)).system.run defaultPoll 7 shortCall .blank
          = some ((.ok ⟨"hi", some 0⟩, log), d) ∧ d.Reaped)
      ∧ ∃ log d before, (ticking none).system.run defaultPoll 7 shortCall .blank
          = some ((.error (.timedOut "sh" (.ofMillis 100) 7), log), d)
        ∧ d.acts = before ++ [.killGroup 7, .kill, .reap] := by
  have hreached : ∀ exitsAt?, ∃ n, shortCall.limit.nanos ≤ ((ticking exitsAt?).elapsed n).nanos :=
    fun _ => ⟨10, Nat.le_refl _⟩
  refine ⟨hreached none, ?_, ?_⟩
  · obtain ⟨last, hfirst, -, result, log, d, hrun, hanswers, -, hreaped, -⟩ :=
      child_watched (ticking (some 2)) defaultPoll 7 shortCall (hreached _)
    have hlast : 2 ≤ last := by
      have hlate : 100 * 1000000 ≤ 10 * last * 1000000 := hfirst.late
      omega
    have hexit : (ticking (some 2)).FirstExit 2 (.code 0) := by
      refine ⟨rfl, fun m hm => if_neg fun h => ?_⟩
      have hm2 : 2 = m := Option.some.inj h
      omega
    have hcloses : (ticking (some 2)).ClosesWithin
        (drainLimit shortCall.limit ((ticking (some 2)).elapsed 2)) := ⟨_, rfl, by decide⟩
    have hresult : result = .ok ⟨"hi", some 0⟩ :=
      (hanswers _).mpr ⟨2, hlast, .code 0, hexit, hcloses, by decide +kernel⟩
    exact ⟨log, d, hresult ▸ hrun, hreaped⟩
  · obtain ⟨last, -, -, result, log, d, hrun, hanswers, hgives, -⟩ :=
      child_watched (ticking none) defaultPoll 7 shortCall (hreached _)
    have hnever : ∀ f, result ≠ .ok f := by
      intro f hf
      obtain ⟨n, -, status, hexit, -⟩ := (hanswers f).mp hf
      cases hexit.exited
    obtain ⟨hresult, before, hacts⟩ := hgives hnever
    have hshown : shortCall.program.shown = "sh" := by decide +kernel
    rw [hshown] at hresult
    exact ⟨log, d, before, hresult ▸ hrun, hacts⟩

end PowerBench.Child
