import PowerBench.Client
import PowerBench.Proofs.ScratchFile

set_option autoImplicit false

/-! # Running the steps of a session

`Operation.exec` runs a step on a session: it gives the result and the session that is left. Each
way of building a step has one rule, and so has each step that an operation of the client is made
of; after these rules nobody opens the step again.
-/

namespace PowerBench

variable {σ α β : Type}

namespace Operation

/-- What a step gives on a session, and the session it leaves. -/
def exec (op : Operation σ α) (s : Session σ) : Except ClientError α × Session σ := op.run.run s

/-! ## Building steps -/

@[simp] theorem exec_pure (a : α) (s : Session σ) :
    exec (pure a : Operation σ α) s = (.ok a, s) := rfl

@[simp] theorem exec_throw (e : ClientError) (s : Session σ) :
    exec (throw e : Operation σ α) s = (.error e, s) := rfl

@[simp] theorem exec_give (r : Except ClientError α) (s : Session σ) :
    exec (Client.give r) s = (r, s) := rfl

@[simp] theorem exec_get (s : Session σ) :
    exec (get : Operation σ (Session σ)) s = (.ok s, s) := rfl

@[simp] theorem exec_modify (f : Session σ → Session σ) (s : Session σ) :
    exec (modify f : Operation σ Unit) s = (.ok (), f s) := rfl

theorem exec_bind (op : Operation σ α) (f : α → Operation σ β) (s : Session σ) :
    exec (op >>= f) s = match exec op s with
      | (.ok a, s') => exec (f a) s'
      | (.error e, s') => (.error e, s') := by
  unfold exec
  rw [ExceptT.run_bind, StateT.run_bind]
  rcases op.run.run s with ⟨_ | _, _⟩
  · rfl
  · rfl

theorem exec_map (f : α → β) (op : Operation σ α) (s : Session σ) :
    exec (f <$> op) s = ((exec op s).1.map f, (exec op s).2) := by
  unfold exec
  rw [ExceptT.run_map, StateT.run_map]
  rcases op.run.run s with ⟨_ | _, _⟩
  · rfl
  · rfl

/-- What is done with a result on the way out keeps its error. -/
theorem map_eq_error {f : α → β} {r : Except ClientError α} {e : ClientError} :
    r.map f = .error e ↔ r = .error e := by
  cases r <;> simp [Except.map]

theorem exec_discard (op : Operation σ α) (s : Session σ) :
    exec (discard op) s = ((exec op s).1.map fun _ => (), (exec op s).2) :=
  exec_map (fun _ => ()) op s

/-- A step on a scratch file: the file is made, and erased afterwards. -/
theorem exec_withScratch (kind : Session.ScratchKind)
    (body : Session.Scratch → Operation σ α) (s : Session σ) :
    exec (withScratch kind body) s = match s.makeScratch kind with
      | .error cause => (.error (.io cause), s)
      | .ok (scratch, made) =>
        ((exec (body scratch) made).1,
          { (exec (body scratch) made).2 with
            files := (exec (body scratch) made).2.files.erase scratch.address }) := by
  unfold exec withScratch
  show (match s.makeScratch kind with
    | .error cause => _
    | .ok (scratch, made) => _ : Except ClientError α × Session σ) = _
  cases s.makeScratch kind with
  | error cause => rfl
  | ok made => rfl

/-! ## Steps that leave something alone -/

/-- The step leaves what `view` shows of a session as it is. -/
def Keeps (view : Session σ → β) (op : Operation σ α) : Prop := ∀ s, view (exec op s).2 = view s

section

variable {γ : Type} {view : Session σ → γ}

theorem keeps_give (r : Except ClientError α) : Keeps view (Client.give r) := fun _ => rfl

theorem Keeps.bind {op : Operation σ α} {f : α → Operation σ β} (h : Keeps view op)
    (h' : ∀ a, Keeps view (f a)) : Keeps view (op >>= f) := by
  intro s
  have hop := h s
  rw [exec_bind]
  rcases hdone : exec op s with ⟨e | a, s'⟩
  · rw [hdone] at hop
    exact hop
  · rw [hdone] at hop
    exact (h' a s').trans hop

theorem Keeps.map {op : Operation σ α} (h : Keeps view op) (f : α → β) : Keeps view (f <$> op) := by
  intro s
  rw [exec_map]
  exact h s

/-- Where the view does not show the files, a scratch file makes no difference. -/
theorem Keeps.withScratch {kind : Session.ScratchKind} {body : Session.Scratch → Operation σ α}
    (blind : ∀ s files n, view { s with files := files, scratch := n } = view s)
    (h : ∀ scratch, Keeps view (body scratch)) : Keeps view (withScratch kind body) := by
  intro s
  rw [exec_withScratch]
  cases hmade : s.makeScratch kind with
  | error cause => rfl
  | ok pair =>
      obtain ⟨scratch, made⟩ := pair
      obtain ⟨-, -, -, rfl⟩ := Session.makeScratch_eq_ok hmade
      exact (blind _ _ _).trans ((h scratch _).trans (blind s _ _))

end

end Operation

/-! ## Calls -/

namespace Session

def noted (entries : List Log.Entry) (s : Session σ) : Session σ :=
  { s with log := s.log ++ entries }

@[simp] theorem noted_nil (s : Session σ) : s.noted [] = s := by simp [noted]

/-- What the instrument answers to a call on a session. -/
def answer (i : Instrument σ) (c : Call) (s : Session σ) : Reply := (i s.files c s.state).1

def asked (i : Instrument σ) (file? : Option Path) (c : Call) (s : Session σ) : Session σ :=
  { s with
    state := (i s.files c s.state).2
    files := match file? with
      | some p => affect s.files p (s.answer i c).file
      | none => s.files
    calls := s.calls ++ [c]
    log := s.log ++ (s.answer i c).log }

end Session

namespace Operation

@[simp] theorem exec_record (e : Log.Entry) (s : Session σ) :
    exec (record e : Operation σ Unit) s = (.ok (), s.noted [e]) := rfl

theorem exec_call (i : Instrument σ) (file? : Option Path) (c : Call) (s : Session σ) :
    exec (call i file? c) s = ((s.answer i c).result, s.asked i file? c) := rfl

end Operation

namespace Client

open Operation

/-- The log entries about how a call ended. -/
def exitNotes (c : Client σ) : Except ClientError Finished → List Log.Entry
  | .error _ => []
  | .ok f =>
    if f.success then []
    else
      [entry .warn "instrument command exited unsuccessfully"
        [("binary", .shown c.binary.shown),
          ("exit_code", .shown (Finished.exitCodeText f.exitCode?)),
          ("output", .shown (trimTextRight f.output))]]

theorem exec_noteExit (c : Client σ) (f : Finished) (s : Session σ) :
    exec (c.noteExit f) s = (.ok (), s.noted (c.exitNotes (.ok f))) := by
  unfold noteExit exitNotes
  by_cases h : f.success
  · simp [h]
  · simp [h]

/-- Making a call: its failure is the failure of the step, and an exit code is only noted. -/
theorem exec_runWith (c : Client σ) (file? : Option Path) (tokens : List String)
    (limit : Duration) (s : Session σ) :
    exec (c.runWith file? tokens limit) s
      = ((s.answer c.instrument (c.callFor tokens limit)).result.map Finished.output,
          (s.asked c.instrument file? (c.callFor tokens limit)).noted
            (c.exitNotes (s.answer c.instrument (c.callFor tokens limit)).result)) := by
  unfold runWith
  rw [exec_bind, exec_call]
  cases (s.answer c.instrument (c.callFor tokens limit)).result with
  | error e => simp [exitNotes, Except.map]
  | ok f => simp only [exec_bind, exec_noteExit, exec_pure, Except.map]

/-- Making a call whose output is not wanted. -/
theorem exec_discard_runWith (c : Client σ) (file? : Option Path)
    (tokens : List String) (limit : Duration) (s : Session σ) :
    exec (discard (c.runWith file? tokens limit)) s
      = ((s.answer c.instrument (c.callFor tokens limit)).result.map fun _ => (),
          (s.asked c.instrument file? (c.callFor tokens limit)).noted
            (c.exitNotes (s.answer c.instrument (c.callFor tokens limit)).result)) := by
  rw [exec_discard, exec_runWith]
  cases (s.answer c.instrument (c.callFor tokens limit)).result with
  | error e => rfl
  | ok f => rfl

def callOf (c : Client σ) (r : Request) (kind : LimitClass) : Call :=
  c.callFor (r.tokens c.config) (c.limits.limit kind)

/-- Making the call of a request that names a file: what it changes of the session, but for the log. -/
theorem exec_request_file (c : Client σ) {r : Request} {p : Path} (names : r.file? = some p)
    (kind : LimitClass) (s : Session σ) :
    ∃ after, exec (discard (c.request r kind)) s
        = ((s.answer c.instrument (c.callOf r kind)).result.map fun _ => (), after)
      ∧ after.files = Session.affect s.files p (s.answer c.instrument (c.callOf r kind)).file
      ∧ after.calls = s.calls ++ [c.callOf r kind]
      ∧ after.state = (c.instrument s.files (c.callOf r kind) s.state).2
      ∧ after.printed = s.printed := by
  rw [request, names, exec_discard_runWith]
  exact ⟨_, rfl, rfl, rfl, rfl, rfl⟩

/-- Converting to a destination: the source is looked up before the destination is emptied, and read
after it. -/
theorem exec_convertTo (source dest : Path) (s : Session σ) :
    exec (convertTo source dest) s = match s.files.fileToRead source with
      | .error cause => (.error (.io cause), s)
      | .ok rows =>
        match s.files.openToReplace dest with
        | (.error cause, _) => (.error (.io cause), s)
        | (.ok address, files) =>
          ((Trace.convert ((files.contentAt? rows).getD []) false {}).1.mapError
              ClientError.ofTrace,
            ({ s with files := files } : Session σ).write address
              (Trace.convert ((files.contentAt? rows).getD []) false {}).2.written) := by
  unfold convertTo
  rw [exec_bind, exec_get]
  dsimp only
  cases s.files.fileToRead source with
  | error cause => rfl
  | ok rows =>
      dsimp only
      rcases s.files.openToReplace dest with ⟨cause | address, files⟩
      · rfl
      · dsimp only
        rw [exec_bind, exec_modify]
        rfl

end Client

end PowerBench
