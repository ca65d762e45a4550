import Mathlib.Data.List.DropRight
import PowerBench.Environment
import PowerBench.Proofs.WrittenInteger

set_option autoImplicit false

/-! # Settings of the environment and their faults

A getter ends in one of three ways: the variable is unset, its value is refused, or it is accepted
(`perform_ends`), and no two of them at once. Only a refusal adds a fault, and only taking them removes
faults. So after any calls the faults are those of the refusals since they were last taken, in the
order of the calls, and each getter has given its default or what it accepts (`faults_collected`).
-/

namespace PowerBench.EnvReader

/-! ## Calls -/

/-- A call of a reader with its parameters. -/
inductive Step where
  | string (name fallback : String)
  | optional (name : String)
  | number (name : String) (fallback least most : Nat)
  | level (name fallback : String)
  | takeFaults
deriving DecidableEq, Repr

/-- What a call gives. -/
inductive Given where
  | text (value : String)
  | optional (value? : Option String)
  | number (value : Nat)
  | faults (faults : List EnvFault)
deriving DecidableEq, Repr

def perform (env : Environment) : Step → EnvReader Given
  | .string name fallback => (.text ·.value) <$> string env name fallback
  | .optional name => (.optional ·.value) <$> optional env name
  | .number name fallback least most => (.number ·.value) <$> natInRange env name fallback least most
  | .level name fallback => (.text ·.value) <$> level env name fallback
  | .takeFaults => .faults <$> takeFaults

/-- Makes calls one after the other, with faults that are pending at first; gives what each gave and
the faults that are pending at last. -/
def performAll (env : Environment) : List Step → List EnvFault → List Given × List EnvFault
  | [], pending => ([], pending)
  | step :: rest, pending =>
    let done := (perform env step).run pending
    let later := performAll env rest done.2
    (done.1 :: later.1, later.2)

theorem performAll_append (env : Environment) (before after : List Step) (pending : List EnvFault) :
    performAll env (before ++ after) pending
      = ((performAll env before pending).1
          ++ (performAll env after (performAll env before pending).2).1,
        (performAll env after (performAll env before pending).2).2) := by
  induction before generalizing pending with
  | nil => rfl
  | cons step rest ih =>
      rw [List.cons_append, performAll, performAll]
      dsimp only
      rw [ih, List.cons_append]

/-! ## Values -/

/-- The texts are the same up to the case of ASCII letters. -/
def SameUpToCase (s t : String) : Prop := lowerAscii s = lowerAscii t

/-- A getter refuses a value with a fault: a number of 64 bits outside the bounds, a text that is no
such number, or one that is no level in any case. -/
inductive Refuses : Step → String → EnvFault → Prop where
  | outOfRange (name : String) (fallback : Nat) {value : String} {n least most : Nat}
      (denotes : DenotesUInt64 (trimBlanks value.toList) n) (outside : n < least ∨ most < n) :
      Refuses (.number name fallback least most) value (.outOfRange (variableName name) n least most)
  | invalidValue (name : String) (fallback least most : Nat) {value : String}
      (noNumber : ¬ ∃ n, DenotesUInt64 (trimBlanks value.toList) n) :
      Refuses (.number name fallback least most) value
        (.invalidValue (variableName name) "unsigned 64-bit integer" value)
  | invalidLogLevel (name fallback : String) {value : String}
      (noLevel : ¬ ∃ l ∈ levelNames, SameUpToCase value l) :
      Refuses (.level name fallback) value (.invalidLogLevel (variableName name) value)

/-- A getter accepts a value: any text as it is, an empty one as none where that is optional, a number
of 64 bits within the bounds, or the level that it names. -/
inductive Accepts : Step → String → Given → Prop where
  | string (name fallback value : String) : Accepts (.string name fallback) value (.text value)
  | empty (name : String) : Accepts (.optional name) "" (.optional none)
  | optional (name : String) {value : String} (nonempty : value ≠ "") :
      Accepts (.optional name) value (.optional (some value))
  | number (name : String) (fallback : Nat) {value : String} {n least most : Nat}
      (denotes : DenotesUInt64 (trimBlanks value.toList) n) (low : least ≤ n) (high : n ≤ most) :
      Accepts (.number name fallback least most) value (.number n)
  | level (name fallback : String) {value l : String} (listed : l ∈ levelNames)
      (same : SameUpToCase value l) : Accepts (.level name fallback) value (.text l)

theorem Accepts.not_refuses {step : Step} {value : String} {given : Given}
    (h : Accepts step value given) (fault : EnvFault) : ¬ Refuses step value fault := by
  intro h'
  cases h with
  | string | empty | optional => cases h'
  | number name fallback denotes low high =>
      cases h' with
      | outOfRange _ _ denotes' outside =>
          obtain rfl := denotes.unique denotes'
          omega
      | invalidValue _ _ _ _ noNumber => exact noNumber ⟨_, denotes⟩
  | level name fallback listed same =>
      cases h' with
      | invalidLogLevel _ _ noLevel => exact noLevel ⟨_, listed, same⟩

/-- The levels are written small. -/
theorem lowerAscii_levelName {l : String} (h : l ∈ levelNames) : lowerAscii l = l := by
  revert l
  decide

/-! ## How a call ends -/

def Step.key? : Step → Option String
  | .string name _ => some (variableName name)
  | .optional name => some (variableName name)
  | .number name _ _ _ => some (variableName name)
  | .level name _ => some (variableName name)
  | .takeFaults => none

/-- What a getter falls back to. -/
def Step.fallback? : Step → Option Given
  | .string _ fallback => some (.text fallback)
  | .optional _ => some (.optional none)
  | .number _ fallback _ _ => some (.number fallback)
  | .level _ fallback => some (.text fallback)
  | .takeFaults => none

section

variable (env : Environment)

/-- The variable of the call is not set. -/
def Unset (step : Step) : Prop := ∃ key, step.key? = some key ∧ env.text? key = none

/-- The variable of the call is set to a text. -/
def SetTo (step : Step) (value : String) : Prop :=
  ∃ key, step.key? = some key ∧ env.text? key = some value

/-- The variable of the call is set to a text that is refused. -/
def Refused (step : Step) (fault : EnvFault) : Prop :=
  ∃ value, SetTo env step value ∧ Refuses step value fault

/-- The variable of the call is set to a text that is accepted. -/
def Accepted (step : Step) (given : Given) : Prop :=
  ∃ value, SetTo env step value ∧ Accepts step value given

/-- The variable of the call is not set, or to a text that is refused. -/
def FallsBack (step : Step) : Prop := Unset env step ∨ ∃ fault, Refused env step fault

/-- How a call ends: what it gives and how the faults that are pending change. -/
inductive Ends : Step → List EnvFault → Given → List EnvFault → Prop where
  | taken (pending : List EnvFault) : Ends .takeFaults pending (.faults pending) []
  | unset {step : Step} {given : Given} (pending : List EnvFault) (unset : Unset env step)
      (fallback : step.fallback? = some given) : Ends step pending given pending
  | refused {step : Step} {given : Given} {fault : EnvFault} (pending : List EnvFault)
      (refused : Refused env step fault) (fallback : step.fallback? = some given) :
      Ends step pending given (pending ++ [fault])
  | accepted {step : Step} {given : Given} (pending : List EnvFault)
      (accepted : Accepted env step given) : Ends step pending given pending

end

section

variable {env : Environment} {step : Step}

theorem SetTo.unique {value value' : String} (h : SetTo env step value)
    (h' : SetTo env step value') : value' = value := by
  obtain ⟨key, hkey, hvalue⟩ := h
  obtain ⟨key', hkey', hvalue'⟩ := h'
  obtain rfl := Option.some.inj (hkey.symm.trans hkey')
  exact Option.some.inj (hvalue'.symm.trans hvalue)

theorem SetTo.not_unset {value : String} (h : SetTo env step value) : ¬ Unset env step := by
  rintro ⟨key', hkey', hnone⟩
  obtain ⟨key, hkey, hvalue⟩ := h
  obtain rfl := Option.some.inj (hkey.symm.trans hkey')
  rw [hvalue] at hnone
  cases hnone

theorem Unset.not_refused (h : Unset env step) (fault : EnvFault) : ¬ Refused env step fault := by
  rintro ⟨value, hset, -⟩
  exact hset.not_unset h

theorem Accepted.not_refused {given : Given} (h : Accepted env step given) (fault : EnvFault) :
    ¬ Refused env step fault := by
  rintro ⟨value', hset', hrefuses⟩
  obtain ⟨value, hset, haccepts⟩ := h
  obtain rfl := hset.unique hset'
  exact haccepts.not_refuses fault hrefuses

theorem Accepted.not_fallsBack {given : Given} (h : Accepted env step given) :
    ¬ FallsBack env step := by
  rintro (unset | ⟨fault, refused⟩)
  · obtain ⟨value, hset, -⟩ := h
    exact hset.not_unset unset
  · exact h.not_refused fault refused

theorem run_map {α : Type} (f : α → Given) (op : EnvReader α) (pending : List EnvFault) :
    (f <$> op).run pending = (f (op.run pending).1, (op.run pending).2) := rfl

/-- **One call.** It takes the faults, or its variable is unset, refused or accepted. -/
theorem perform_ends (env : Environment) (step : Step) (pending : List EnvFault) :
    Ends env step pending ((perform env step).run pending).1 ((perform env step).run pending).2 := by
  cases step with
  | takeFaults => exact .taken pending
  | string name fallback =>
      rw [perform, run_map, string]
      cases hvalue : env.text? (variableName name) with
      | none => exact .unset pending ⟨_, rfl, hvalue⟩ rfl
      | some value => exact .accepted pending ⟨value, ⟨_, rfl, hvalue⟩, .string name fallback value⟩
  | optional name =>
      rw [perform, run_map, optional]
      cases hvalue : env.text? (variableName name) with
      | none => exact .unset pending ⟨_, rfl, hvalue⟩ rfl
      | some value =>
          by_cases hempty : value = ""
          · subst hempty
            exact .accepted pending ⟨"", ⟨_, rfl, hvalue⟩, .empty name⟩
          · dsimp only
            rw [if_neg hempty]
            exact .accepted pending ⟨value, ⟨_, rfl, hvalue⟩, .optional name hempty⟩
  | number name fallback least most =>
      rw [perform, run_map, natInRange]
      cases hvalue : env.text? (variableName name) with
      | none => exact .unset pending ⟨_, rfl, hvalue⟩ rfl
      | some value =>
          dsimp only
          cases hread : readUInt64 (trimBlanks value.toList) with
          | error e =>
              have hnone : ¬ ∃ n, DenotesUInt64 (trimBlanks value.toList) n := by
                rintro ⟨n, hn⟩
                rw [readUInt64_eq_ok.mpr hn] at hread
                cases hread
              exact .refused pending
                ⟨value, ⟨_, rfl, hvalue⟩, .invalidValue name fallback least most hnone⟩ rfl
          | ok n =>
              have hdenotes := readUInt64_eq_ok.mp hread
              by_cases hwithin : least ≤ n ∧ n ≤ most
              · dsimp only
                rw [if_pos hwithin]
                exact .accepted pending
                  ⟨value, ⟨_, rfl, hvalue⟩, .number name fallback hdenotes hwithin.1 hwithin.2⟩
              · dsimp only
                rw [if_neg hwithin]
                have houtside : n < least ∨ most < n := by omega
                exact .refused pending
                  ⟨value, ⟨_, rfl, hvalue⟩, .outOfRange name fallback hdenotes houtside⟩ rfl
  | level name fallback =>
      rw [perform, run_map, level]
      cases hvalue : env.text? (variableName name) with
      | none => exact .unset pending ⟨_, rfl, hvalue⟩ rfl
      | some value =>
          dsimp only
          by_cases hlisted : lowerAscii value ∈ levelNames
          · rw [if_pos (List.contains_iff_mem.mpr hlisted)]
            have hsame : SameUpToCase value (lowerAscii value) := (lowerAscii_levelName hlisted).symm
            exact .accepted pending ⟨value, ⟨_, rfl, hvalue⟩, .level name fallback hlisted hsame⟩
          · rw [if_neg (fun h => hlisted (List.contains_iff_mem.mp h))]
            have hnone : ¬ ∃ l ∈ levelNames, SameUpToCase value l := by
              rintro ⟨l, hl, hsame⟩
              have hlower : lowerAscii value = l := hsame.trans (lowerAscii_levelName hl)
              exact hlisted (hlower ▸ hl)
            exact .refused pending
              ⟨value, ⟨_, rfl, hvalue⟩, .invalidLogLevel name fallback hnone⟩ rfl

end

/-! ## Whole runs -/

/-- The faults of calls: one for each that is refused, in the order of the calls. -/
inductive Collected (env : Environment) : List Step → List EnvFault → Prop where
  | nil : Collected env [] []
  | refused {step : Step} {fault : EnvFault} {rest : List Step} {faults : List EnvFault}
      (refused : Refused env step fault) (collected : Collected env rest faults) :
      Collected env (step :: rest) (fault :: faults)
  | silent {step : Step} {rest : List Step} {faults : List EnvFault}
      (unrefused : ∀ fault, ¬ Refused env step fault) (collected : Collected env rest faults) :
      Collected env (step :: rest) faults

theorem Collected.append {env : Environment} {before after : List Step}
    {faults more : List EnvFault} (h : Collected env before faults) (h' : Collected env after more) :
    Collected env (before ++ after) (faults ++ more) := by
  induction h with
  | nil => exact h'
  | refused refused _ ih => exact .refused refused ih
  | silent unrefused _ ih => exact .silent unrefused ih

/-- The calls since faults were last taken. -/
def sinceTaken (steps : List Step) : List Step := steps.rtakeWhile (· != .takeFaults)

theorem sinceTaken_getter (steps : List Step) {step : Step} (getter : step ≠ .takeFaults) :
    sinceTaken (steps ++ [step]) = sinceTaken steps ++ [step] :=
  List.rtakeWhile_concat_pos _ _ _ (by simpa using getter)

theorem sinceTaken_takeFaults (steps : List Step) : sinceTaken (steps ++ [.takeFaults]) = [] :=
  List.rtakeWhile_concat_neg _ _ _ (by simp)

section

variable {env : Environment} {step : Step}

theorem not_refused_takeFaults (fault : EnvFault) : ¬ Refused env .takeFaults fault := by
  rintro ⟨value, ⟨key, hkey, -⟩, -⟩
  cases hkey

/-- What one call preserves: the faults that are pending are those of the calls since they were last
taken. -/
theorem Collected.concat {steps : List Step} {pending pending' : List EnvFault} {given : Given}
    (collected : Collected env (sinceTaken steps) pending)
    (ends : Ends env step pending given pending') :
    Collected env (sinceTaken (steps ++ [step])) pending' := by
  -- Taking faults starts anew; any other call is one more since then.
  by_cases htakes : step = .takeFaults
  · subst htakes
    rw [sinceTaken_takeFaults]
    cases ends with
    | taken => exact .nil
    | unset _ _ fallback => cases fallback
    | refused _ refused => exact absurd refused (not_refused_takeFaults _)
    | accepted _ accepted =>
        obtain ⟨value, -, haccepts⟩ := accepted
        cases haccepts
  · have hquiet : (∀ fault, ¬ Refused env step fault) →
        Collected env (sinceTaken steps ++ [step]) pending := by
      intro hsilent
      have happended := collected.append (.silent hsilent .nil)
      rwa [List.append_nil] at happended
    rw [sinceTaken_getter steps htakes]
    cases ends with
    | taken => exact absurd rfl htakes
    | unset _ unset => exact hquiet unset.not_refused
    | refused _ refused => exact collected.append (.refused refused .nil)
    | accepted _ accepted => exact hquiet accepted.not_refused

end

theorem performAll_concat (env : Environment) (steps : List Step) (step : Step)
    (pending : List EnvFault) :
    performAll env (steps ++ [step]) pending
      = ((performAll env steps pending).1
          ++ [((perform env step).run (performAll env steps pending).2).1],
        ((perform env step).run (performAll env steps pending).2).2) :=
  performAll_append env steps [step] pending

/-- What a whole run preserves. -/
theorem collected_performAll (env : Environment) (steps : List Step) :
    Collected env (sinceTaken steps) (performAll env steps []).2 := by
  induction steps using List.reverseRecOn with
  | nil => exact .nil
  | append_singleton steps step ih =>
      rw [performAll_concat]
      exact ih.concat (perform_ends env step _)

/-- **Faults are collected.** After any calls the faults that are pending are, in the order of the
calls, one for each that was refused since faults were last taken. A further call takes exactly these
and leaves none; or its variable is unset or refused, and it gives its default; or it is neither, and
the call gives what it accepts. -/
theorem faults_collected (env : Environment) (steps : List Step) (step : Step) :
    ∃ givens given pending pending',
      performAll env steps [] = (givens, pending)
        ∧ performAll env (steps ++ [step]) [] = (givens ++ [given], pending')
        ∧ Collected env (sinceTaken steps) pending
        ∧ Collected env (sinceTaken (steps ++ [step])) pending'
        ∧ (step = .takeFaults ∧ given = .faults pending ∧ pending' = []
          ∨ FallsBack env step ∧ step.fallback? = some given
          ∨ ¬ FallsBack env step ∧ Accepted env step given) := by
  refine ⟨_, _, _, _, rfl, performAll_concat env steps step [], collected_performAll env steps, ?_, ?_⟩
  · have hcollected := collected_performAll env (steps ++ [step])
    rw [performAll_concat] at hcollected
    exact hcollected
  · generalize (performAll env steps []).2 = pending
    have hends := perform_ends env step pending
    generalize (perform env step).run pending = done at hends
    obtain ⟨given, pending'⟩ := done
    cases hends with
    | taken => exact .inl ⟨rfl, rfl, rfl⟩
    | unset _ unset fallback => exact .inr (.inl ⟨.inl unset, fallback⟩)
    | refused _ refused fallback => exact .inr (.inl ⟨.inr ⟨_, refused⟩, fallback⟩)
    | accepted _ accepted => exact .inr (.inr ⟨accepted.not_fallsBack, accepted⟩)

/-- A number out of its bounds, a level in another case, and the faults taken twice. -/
example :
    performAll [("BITS_LIMIT", Utf8.encode " 500 "), ("BITS_LEVEL", Utf8.encode "Debug")]
        [.number "LIMIT" 60 1 100, .level "LEVEL" "info", .takeFaults, .takeFaults] []
      = ([.number 60, .text "debug", .faults [.outOfRange "BITS_LIMIT" 500 1 100], .faults []], []) := by
  decide +kernel

end PowerBench.EnvReader
