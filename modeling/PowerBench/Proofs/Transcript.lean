import PowerBench.Proofs.Session

set_option autoImplicit false

/-! # The calls that a step makes

A step is followed call by call. An exchange is one call with the reply to it, and a transcript is
a row of exchanges in which every reply is the instrument's own, in the state that the call before
has left. `Follows` says how a step stands to a list of planned calls: it makes them in order, it
makes all of them unless one fails, and the first that fails is its last and gives it its error.
-/

namespace PowerBench

open Operation

variable {σ α β : Type}

/-! ## Exchanges -/

/-- One call: the files that the instrument met, what it was asked, and its reply. -/
structure Exchange where
  seen : FileTree
  call : Call
  reply : Reply

/-- The call has not failed, whatever its exit code. -/
def Exchange.Succeeded (x : Exchange) : Prop := ∃ f, x.reply.result = .ok f

theorem Exchange.not_succeeded {x : Exchange} {e : ClientError} (h : x.reply.result = .error e) :
    ¬ x.Succeeded := by
  rintro ⟨f, hf⟩
  rw [h] at hf
  cases hf

/-- The exchanges `xs` take the instrument from one state to another, every reply being its own. -/
inductive Transcript (i : Instrument σ) : σ → List Exchange → σ → Prop where
  | nil (st : σ) : Transcript i st [] st
  | cons {x : Exchange} {xs : List Exchange} {st st' : σ}
      (reply : x.reply = (i x.seen x.call st).1)
      (rest : Transcript i (i x.seen x.call st).2 xs st') : Transcript i st (x :: xs) st'

theorem Transcript.append {i : Instrument σ} {st st' st'' : σ} {xs ys : List Exchange}
    (h : Transcript i st xs st') (h' : Transcript i st' ys st'') :
    Transcript i st (xs ++ ys) st'' := by
  induction h with
  | nil => exact h'
  | cons reply _ ih => exact .cons reply (ih h')

/-! ## Steps that follow a plan -/

/-- The step makes the exchanges `xs`, which are the calls of `plan` up to the first that fails. -/
structure Follows (i : Instrument σ) (op : Operation σ α) (s : Session σ) (plan : List Call)
    (xs : List Exchange) : Prop where
  replies : Transcript i s.state xs (exec op s).2.state
  recorded : (exec op s).2.calls = s.calls ++ xs.map Exchange.call
  planned : xs.map Exchange.call <+: plan
  complete : (∀ x ∈ xs, x.Succeeded) → xs.map Exchange.call = plan
  stops : ∀ earlier x later e, xs = earlier ++ x :: later → x.reply.result = .error e →
    later = [] ∧ (exec op s).1 = .error e

section

variable {i : Instrument σ} {op : Operation σ α} {s : Session σ} {plan : List Call}
  {xs : List Exchange}

/-- A step that succeeds has made its calls, and none has failed. -/
theorem Follows.succeeded (h : Follows i op s plan xs) {a : α} (ha : (exec op s).1 = .ok a) :
    ∀ x ∈ xs, x.Succeeded := by
  intro x hx
  cases hr : x.reply.result with
  | ok f => exact ⟨f, hr⟩
  | error e =>
      obtain ⟨earlier, later, hxs⟩ := List.append_of_mem hx
      have hstop := (h.stops earlier x later e hxs hr).2
      rw [ha] at hstop
      cases hstop

/-- A step that leaves the instrument and the calls alone follows the empty plan. -/
theorem follows_nil (state : (exec op s).2.state = s.state)
    (calls : (exec op s).2.calls = s.calls) : Follows i op s [] [] where
  replies := by rw [state]; exact .nil _
  recorded := by rw [calls]; simp
  planned := List.nil_prefix
  complete := fun _ => rfl
  stops := by intro earlier x later e h; simp at h

/-- So does a step that ends at once. -/
theorem follows_unchanged {r : Except ClientError α} (same : exec op s = (r, s)) :
    Follows i op s [] [] :=
  follows_nil (by rw [same]) (by rw [same])

/-- What a step follows is a matter of what it does on the session. -/
theorem Follows.of_exec_eq {op' : Operation σ α} (same : exec op s = exec op' s)
    (h : Follows i op' s plan xs) : Follows i op s plan xs := by
  obtain ⟨replies, recorded, planned, complete, stops⟩ := h
  rw [← same] at replies recorded stops
  exact ⟨replies, recorded, planned, complete, stops⟩

/-- One call and nothing else. -/
theorem follows_runWith (c : Client σ) (file? : Option Path) (tokens : List String)
    (limit : Duration) (s : Session σ) :
    Follows c.instrument (c.runWith file? tokens limit) s [c.callFor tokens limit]
      [⟨s.files, c.callFor tokens limit, s.answer c.instrument (c.callFor tokens limit)⟩] := by
  have hexec := c.exec_runWith file? tokens limit s
  refine ⟨?_, ?_, List.prefix_refl _, fun _ => rfl, ?_⟩
  · rw [hexec]
    exact .cons rfl (.nil _)
  · rw [hexec]
    rfl
  · intro earlier x later e hxs hx
    rcases earlier with _ | ⟨y, ys⟩
    · obtain ⟨rfl, rfl⟩ := List.cons.inj hxs
      refine ⟨rfl, ?_⟩
      rw [hexec, hx]
      rfl
    · simp at hxs

/-- Two steps in a row: the first succeeds and the second is begun. -/
theorem Follows.bind_ok {f : α → Operation σ β} {plan' : List Call} {a : α} {s' : Session σ}
    {ys : List Exchange} (h : Follows i op s plan xs) (hop : exec op s = (.ok a, s'))
    (h' : Follows i (f a) s' plan' ys) : Follows i (op >>= f) s (plan ++ plan') (xs ++ ys) := by
  have hbind : exec (op >>= f) s = exec (f a) s' := by rw [exec_bind, hop]
  have hdone : ∀ x ∈ xs, x.Succeeded := h.succeeded (a := a) (by rw [hop])
  have hcalls := h.complete hdone
  refine ⟨?_, ?_, ?_, ?_, ?_⟩
  · have hfirst := h.replies
    rw [hop] at hfirst
    rw [hbind]
    exact hfirst.append h'.replies
  · have hfirst := h.recorded
    rw [hop] at hfirst
    rw [hbind, h'.recorded, hfirst, List.map_append, List.append_assoc]
  · rw [List.map_append, hcalls]
    exact (List.prefix_append_right_inj plan).mpr h'.planned
  · intro all
    rw [List.map_append, hcalls, h'.complete fun y hy => all y (List.mem_append_right _ hy)]
  · intro earlier x later e hxs hr
    rw [hbind]
    -- The failed call is none of the first step's, which has succeeded.
    rcases List.append_eq_append_iff.mp hxs with ⟨mid, -, hys⟩ | ⟨mid, hx, hmid⟩
    · exact h'.stops mid x later e hys hr
    · rcases mid with _ | ⟨y, mid⟩
      · exact h'.stops [] x later e (by simpa using hmid.symm) hr
      · obtain ⟨rfl, -⟩ := List.cons.inj hmid
        exact absurd (hdone x (by simp [hx])) (Exchange.not_succeeded hr)

/-- Two steps in a row: the first fails, by one of its calls or before all that is planned, and the
second is not begun. -/
theorem Follows.bind_error {f : α → Operation σ β} {plan' : List Call} {e : ClientError}
    {s' : Session σ} (h : Follows i op s plan xs) (hop : exec op s = (.error e, s'))
    (fails : plan' = [] ∨ ∃ x ∈ xs, x.reply.result = .error e) :
    Follows i (op >>= f) s (plan ++ plan') xs := by
  have hbind : exec (op >>= f) s = (.error e, s') := by rw [exec_bind, hop]
  refine ⟨?_, ?_, ?_, ?_, ?_⟩
  · rw [hbind]
    simpa [hop] using h.replies
  · rw [hbind]
    simpa [hop] using h.recorded
  · exact h.planned.trans (List.prefix_append _ _)
  · intro all
    rcases fails with hnil | ⟨x, hx, hr⟩
    · rw [hnil, List.append_nil]
      exact h.complete all
    · exact absurd (all x hx) (Exchange.not_succeeded hr)
  · intro earlier x later e' hxs hr
    have hstop := h.stops earlier x later e' hxs hr
    rw [hop] at hstop
    obtain rfl : e = e' := Except.error.inj hstop.2
    exact ⟨hstop.1, by rw [hbind]⟩

/-- Where a step fails by its calls alone, it fails with the error of its last call, and that is the
first that fails. -/
theorem Follows.error_iff (h : Follows i op s plan xs) {e : ClientError}
    (fails : (exec op s).1 = .error e → ∃ x ∈ xs, x.reply.result = .error e) :
    (exec op s).1 = .error e ↔
      ∃ earlier x, xs = earlier ++ [x] ∧ (∀ y ∈ earlier, y.Succeeded)
        ∧ x.reply.result = .error e := by
  constructor
  · intro he
    obtain ⟨x, hx, hr⟩ := fails he
    obtain ⟨earlier, later, hxs⟩ := List.append_of_mem hx
    obtain ⟨rfl, -⟩ := h.stops earlier x later e hxs hr
    refine ⟨earlier, x, hxs, fun y hy => ?_, hr⟩
    cases hr' : y.reply.result with
    | ok f => exact ⟨f, hr'⟩
    | error e' =>
        obtain ⟨first, between, rfl⟩ := List.append_of_mem hy
        have hstop := h.stops first y (between ++ [x]) e' (by simpa using hxs) hr'
        exact absurd hstop.1 (by simp)
  · rintro ⟨earlier, x, hxs, -, hr⟩
    exact (h.stops earlier x [] e hxs hr).2

/-- Where a step fails by its calls alone, it succeeds when it has made all calls and none has
failed. -/
theorem Follows.ok_iff (h : Follows i op s plan xs)
    (fails : ∀ e, (exec op s).1 = .error e → ∃ x ∈ xs, x.reply.result = .error e) :
    (∃ a, (exec op s).1 = .ok a) ↔ xs.map Exchange.call = plan ∧ ∀ x ∈ xs, x.Succeeded := by
  constructor
  · rintro ⟨a, ha⟩
    exact ⟨h.complete (h.succeeded ha), h.succeeded ha⟩
  · rintro ⟨-, all⟩
    cases hr : (exec op s).1 with
    | ok a => exact ⟨a, rfl⟩
    | error e =>
        obtain ⟨x, hx, hxr⟩ := fails e hr
        exact absurd (all x hx) (Exchange.not_succeeded hxr)

/-- A step that only changes its result on the way out. -/
theorem Follows.map (h : Follows i op s plan xs) (f : α → β) :
    Follows i (f <$> op) s plan xs := by
  have hmap := exec_map f op s
  refine ⟨?_, ?_, h.planned, h.complete, ?_⟩
  · rw [hmap]
    exact h.replies
  · rw [hmap]
    exact h.recorded
  · intro earlier x later e hxs hr
    obtain ⟨hlater, hstop⟩ := h.stops earlier x later e hxs hr
    refine ⟨hlater, ?_⟩
    rw [hmap, hstop]
    rfl

/-- A step on a scratch file makes the calls of its body. -/
theorem Follows.withScratch {kind : Session.ScratchKind} {body : Session.Scratch → Operation σ α}
    {scratch : Session.Scratch} {made : Session σ}
    (hmade : s.makeScratch kind = .ok (scratch, made))
    (h : Follows i (body scratch) made plan xs) :
    Follows i (Operation.withScratch kind body) s plan xs := by
  obtain ⟨-, -, -, hsession⟩ := Session.makeScratch_eq_ok hmade
  have hstate : made.state = s.state := by rw [hsession]
  have hcalls : made.calls = s.calls := by rw [hsession]
  have hexec := exec_withScratch kind body s
  rw [hmade] at hexec
  refine ⟨?_, ?_, h.planned, h.complete, ?_⟩
  · rw [hexec, ← hstate]
    exact h.replies
  · rw [hexec, ← hcalls]
    exact h.recorded
  · rw [hexec]
    exact h.stops

end

/-! ## Steps without calls -/

/-- The step makes no call and leaves the instrument as it is. -/
def Silent (op : Operation σ α) : Prop := Keeps (fun s => (s.state, s.calls)) op

theorem silent_record (e : Log.Entry) : Silent (σ := σ) (record e) := fun _ => rfl

theorem silent_convertTo (source dest : Path) : Silent (σ := σ) (Client.convertTo source dest) := by
  intro s
  rw [Client.exec_convertTo]
  cases s.files.fileToRead source with
  | error cause => rfl
  | ok rows =>
      dsimp only
      rcases s.files.openToReplace dest with ⟨cause | address, files⟩
      · rfl
      · rfl

theorem Silent.state {op : Operation σ α} (h : Silent op) (s : Session σ) :
    (exec op s).2.state = s.state := congrArg Prod.fst (h s)

theorem Silent.calls {op : Operation σ α} (h : Silent op) (s : Session σ) :
    (exec op s).2.calls = s.calls := congrArg Prod.snd (h s)

section

variable {i : Instrument σ} {op : Operation σ α} {f : α → Operation σ β} {s : Session σ}
  {plan : List Call} {xs : List Exchange}

/-- A silent step in front changes nothing about the calls. -/
theorem Silent.before {a : α} {s' : Session σ} (h : Silent op) (hop : exec op s = (.ok a, s'))
    (h' : Follows i (f a) s' plan xs) : Follows i (op >>= f) s plan xs :=
  (follows_nil (h.state s) (h.calls s)).bind_ok hop h'

/-- Nor does one at the end. -/
theorem Follows.before_silent (h : Follows i op s plan xs) (silent : ∀ a, Silent (f a)) :
    Follows i (op >>= f) s plan xs := by
  rcases hop : exec op s with ⟨e | a, s'⟩
  · have hboth := h.bind_error (f := f) hop (.inl rfl)
    rwa [List.append_nil] at hboth
  · have hrest : Follows i (f a) s' [] [] := follows_nil ((silent a).state s') ((silent a).calls s')
    have hboth := h.bind_ok hop hrest
    rwa [List.append_nil, List.append_nil] at hboth

end

end PowerBench
