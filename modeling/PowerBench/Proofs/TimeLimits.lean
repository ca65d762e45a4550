import PowerBench.Proofs.EnvSettings
import PowerBench.Timeouts

set_option autoImplicit false

/-! # Time limits from the environment

Each class of operations has a variable of its own with the seconds of its limit. Reading a class looks
at this variable alone (`readOf_congr`), gives seconds that the class may have, and adds a fault exactly
if the variable is refused (`readOf_ends`). The limits are the three classes read one after the other,
so neither a limit nor a fault of one class depends on another class (`limits_read`).
-/

namespace PowerBench

/-! ## Classes and their variables -/

namespace LimitClass

/-- The classes, in the order in which their limits are read. -/
def all : List LimitClass := [.command, .transfer, .hardware]

/-- The variable of a class by the name that its reader is given. -/
def setting : LimitClass → String
  | .command => "COMMAND_TIMEOUT_SECS"
  | .transfer => "EXPORT_TIMEOUT_SECS"
  | .hardware => "HARDWARE_TIMEOUT_SECS"

/-- The seconds of a class whose variable says nothing. -/
def defaultSecs : LimitClass → Nat
  | .command => 60
  | .transfer => 600
  | .hardware => 10

/-- The most seconds that a class may have: a day, and an hour for hardware. -/
def mostSecs : LimitClass → Nat
  | .command => 86400
  | .transfer => 86400
  | .hardware => 3600

/-- The full name of the variable of a class. -/
def key (k : LimitClass) : String := EnvReader.variableName k.setting

/-- The call that reads the seconds of a class. -/
def step (k : LimitClass) : EnvReader.Step := .number k.setting k.defaultSecs 1 k.mostSecs

theorem defaultSecs_bounds (k : LimitClass) : 1 ≤ k.defaultSecs ∧ k.defaultSecs ≤ k.mostSecs := by
  cases k <;> decide

/-- No two classes share a variable. -/
theorem key_inj {k k' : LimitClass} (h : k.key = k'.key) : k = k' := by
  cases k <;> cases k' <;> first | rfl | exact absurd h (by decide)

end LimitClass

theorem Timeouts.limit_default (k : LimitClass) :
    Timeouts.default.limit k = .ofSecs k.defaultSecs := by
  cases k <;> rfl

/-- The variable that a fault is about. -/
def EnvFault.key : EnvFault → String
  | .invalidValue key _ _ => key
  | .outOfRange key _ _ _ => key
  | .invalidLogLevel key _ => key

namespace EnvReader

/-- A fault is about the variable of the call that it comes from. -/
theorem Refuses.key_eq {step : Step} {value : String} {fault : EnvFault}
    (h : Refuses step value fault) : step.key? = some fault.key := by
  cases h <;> rfl

/-- Reading a number looks at its variable alone. -/
theorem natInRange_congr {env env' : Environment} {name : String}
    (same : env.text? (variableName name) = env'.text? (variableName name))
    (fallback least most : Nat) :
    natInRange env name fallback least most = natInRange env' name fallback least most := by
  unfold natInRange
  rw [same]

/-- Faults that are pending neither change what is read nor are changed by it. -/
theorem natInRange_run (env : Environment) (name : String) (fallback least most : Nat)
    (pending : List EnvFault) :
    (natInRange env name fallback least most).run pending
      = (((natInRange env name fallback least most).run []).1,
        pending ++ ((natInRange env name fallback least most).run []).2) := by
  have hquiet : ∀ s : Sourced Nat, (pure s : EnvReader (Sourced Nat)).run pending
      = (s, pending ++ ((pure s : EnvReader (Sourced Nat)).run []).2) := by
    intro s
    exact congrArg (Prod.mk s) (List.append_nil pending).symm
  unfold natInRange
  cases env.text? (variableName name) with
  | none => exact hquiet _
  | some value =>
      dsimp only
      cases readUInt64 (trimBlanks value.toList) with
      | error e => rfl
      | ok n =>
          dsimp only
          split
          · exact hquiet _
          · rfl

end EnvReader

/-! ## Reading one class -/

namespace Timeouts

open EnvReader

/-- The variable of the class holds a number of seconds that the class may have, with no more than
blanks around it. -/
def Asks (env : Environment) (k : LimitClass) (n : Nat) : Prop :=
  ∃ text, env.text? k.key = some text ∧ DenotesUInt64 (trimBlanks text.toList) n
    ∧ 1 ≤ n ∧ n ≤ k.mostSecs

/-- What is read of a class: its seconds, and the faults of its variable. -/
def readOf (env : Environment) (k : LimitClass) : Nat × List EnvFault :=
  let done := (natInRange env k.setting k.defaultSecs 1 k.mostSecs).run []
  (done.1.value, done.2)

section

variable {env env' : Environment} {k : LimitClass}

theorem accepted_iff_asks {given : Given} :
    Accepted env k.step given ↔ ∃ n, given = .number n ∧ Asks env k n := by
  constructor
  · rintro ⟨text, ⟨key, hkey, htext⟩, haccepts⟩
    obtain rfl := Option.some.inj hkey
    cases haccepts with
    | number _ _ denotes low high => exact ⟨_, rfl, text, htext, denotes, low, high⟩
  · rintro ⟨n, rfl, text, htext, denotes, low, high⟩
    exact ⟨text, ⟨_, rfl, htext⟩, .number _ _ denotes low high⟩

theorem Asks.bounds {n : Nat} (h : Asks env k n) : 1 ≤ n ∧ n ≤ k.mostSecs := by
  obtain ⟨_, -, -, low, high⟩ := h
  exact ⟨low, high⟩

theorem Asks.unique {m n : Nat} (h : Asks env k m) (h' : Asks env k n) : m = n := by
  obtain ⟨text, htext, denotes, -, -⟩ := h
  obtain ⟨text', htext', denotes', -, -⟩ := h'
  obtain rfl := Option.some.inj (htext.symm.trans htext')
  exact denotes.unique denotes'

/-- What is read of a class depends on its variable alone. -/
theorem readOf_congr (same : env.text? k.key = env'.text? k.key) : readOf env k = readOf env' k := by
  unfold readOf
  rw [natInRange_congr same]

theorem readOf_ends (env : Environment) (k : LimitClass) :
    Ends env k.step [] (.number (readOf env k).1) (readOf env k).2 :=
  perform_ends env k.step []

/-- The seconds are those that the variable asks for; where it asks for none they are the default. -/
theorem readOf_secs (env : Environment) (k : LimitClass) :
    Asks env k (readOf env k).1
      ∨ (∀ n, ¬ Asks env k n) ∧ (readOf env k).1 = k.defaultSecs := by
  have hdefault : FallsBack env k.step → k.step.fallback? = some (.number (readOf env k).1) →
      (∀ n, ¬ Asks env k n) ∧ (readOf env k).1 = k.defaultSecs := by
    intro back hfallback
    refine ⟨fun n asks => (accepted_iff_asks.mpr ⟨n, rfl, asks⟩).not_fallsBack back, ?_⟩
    exact (Given.number.inj (Option.some.inj hfallback)).symm
  have hends := readOf_ends env k
  generalize (readOf env k).1 = secs, (readOf env k).2 = faults at hends hdefault ⊢
  cases hends with
  | unset _ unset fallback => exact .inr (hdefault (.inl unset) fallback)
  | refused _ refused fallback => exact .inr (hdefault (.inr ⟨_, refused⟩) fallback)
  | accepted _ accepted =>
      obtain ⟨n, hn, asks⟩ := accepted_iff_asks.mp accepted
      obtain rfl := Given.number.inj hn
      exact .inl asks

/-- The faults of a class are those of its call. -/
theorem collected_readOf (env : Environment) (k : LimitClass) :
    Collected env [k.step] (readOf env k).2 := by
  have hends := readOf_ends env k
  generalize (readOf env k).2 = faults at hends ⊢
  cases hends with
  | unset _ unset => exact .silent unset.not_refused .nil
  | refused _ refused => exact .refused refused .nil
  | accepted _ accepted => exact .silent accepted.not_refused .nil

/-- The faults of a class are about its variable. -/
theorem key_of_mem_readOf {fault : EnvFault} (h : fault ∈ (readOf env k).2) : fault.key = k.key := by
  have hends := readOf_ends env k
  generalize (readOf env k).2 = faults at hends h
  cases hends with
  | unset | accepted => cases h
  | refused _ refused =>
      obtain rfl := List.mem_singleton.mp h
      obtain ⟨value, -, hrefuses⟩ := refused
      exact (Option.some.inj hrefuses.key_eq).symm

end

/-! ## Reading all classes -/

/-- The limits are the classes read one after the other. -/
theorem ofEnvironment_eq (env : Environment) :
    ofEnvironment env
      = (⟨.ofSecs (readOf env .command).1, .ofSecs (readOf env .transfer).1,
          .ofSecs (readOf env .hardware).1⟩,
        (readOf env .command).2 ++ (readOf env .transfer).2 ++ (readOf env .hardware).2) := by
  let read (k : LimitClass) := natInRange env k.setting k.defaultSecs 1 k.mostSecs
  have hrun : ∀ k pending,
      (read k).run pending = (((read k).run []).1, pending ++ (readOf env k).2) := fun k pending =>
    natInRange_run env k.setting k.defaultSecs 1 k.mostSecs pending
  let first := (read .command).run []
  let second := (read .transfer).run first.2
  let third := (read .hardware).run second.2
  have hsecond : second = (((read .transfer).run []).1, first.2 ++ (readOf env .transfer).2) :=
    hrun .transfer first.2
  have hthird : third = (((read .hardware).run []).1, second.2 ++ (readOf env .hardware).2) :=
    hrun .hardware second.2
  calc ofEnvironment env
      = (⟨.ofSecs first.1.value, .ofSecs second.1.value, .ofSecs third.1.value⟩, third.2) := rfl
    _ = _ := by
      rw [hthird, hsecond]
      rfl

theorem limit_ofEnvironment (env : Environment) (k : LimitClass) :
    (ofEnvironment env).1.limit k = .ofSecs (readOf env k).1 := by
  rw [ofEnvironment_eq]
  cases k <;> rfl

theorem faults_ofEnvironment (env : Environment) :
    (ofEnvironment env).2 = LimitClass.all.flatMap fun k => (readOf env k).2 := by
  simp [ofEnvironment_eq, LimitClass.all]

/-- The faults of some classes are collected from their calls. -/
theorem collected_classes (env : Environment) (ks : List LimitClass) :
    Collected env (ks.map LimitClass.step) (ks.flatMap fun k => (readOf env k).2) := by
  induction ks with
  | nil => exact .nil
  | cons k rest ih => exact (collected_readOf env k).append ih

/-- The faults about the variable of a class are those that reading the class has added. -/
theorem faults_about (env : Environment) (k : LimitClass) :
    (ofEnvironment env).2.filter (·.key = k.key) = (readOf env k).2 := by
  have hown : (readOf env k).2.filter (·.key = k.key) = (readOf env k).2 :=
    List.filter_eq_self.mpr fun fault hfault => decide_eq_true (key_of_mem_readOf hfault)
  have hother : ∀ k', k' ≠ k → (readOf env k').2.filter (·.key = k.key) = [] := by
    intro k' hne
    refine List.filter_eq_nil_iff.mpr fun fault hfault hkey => hne ?_
    exact LimitClass.key_inj ((key_of_mem_readOf hfault).symm.trans (of_decide_eq_true hkey))
  rw [ofEnvironment_eq]
  dsimp only
  rw [List.filter_append, List.filter_append]
  cases k with
  | command => rw [hown, hother .transfer (by decide), hother .hardware (by decide)]; simp
  | transfer => rw [hown, hother .command (by decide), hother .hardware (by decide)]; simp
  | hardware => rw [hown, hother .command (by decide), hother .transfer (by decide)]; simp

/-- **The limits of an environment.** The limit of every class is a number of seconds that the class may
have: the one that its variable asks for, or the default where it asks for none. The faults are, in the
order of the classes, one for each variable that is refused. In an environment that has the same text
for the variable of a class, the limit of this class and its faults are the same. -/
theorem limits_read (env : Environment) :
    (∀ k, ∃ n, (ofEnvironment env).1.limit k = .ofSecs n ∧ 1 ≤ n ∧ n ≤ k.mostSecs
        ∧ (∀ m, Asks env k m → n = m)
        ∧ ((∀ m, ¬ Asks env k m) → (ofEnvironment env).1.limit k = default.limit k))
      ∧ Collected env (LimitClass.all.map LimitClass.step) (ofEnvironment env).2
      ∧ ∀ env' k, env.text? k.key = env'.text? k.key →
        (ofEnvironment env).1.limit k = (ofEnvironment env').1.limit k
          ∧ (ofEnvironment env).2.filter (·.key = k.key)
            = (ofEnvironment env').2.filter (·.key = k.key) := by
  refine ⟨fun k => ⟨(readOf env k).1, limit_ofEnvironment env k, ?_⟩, ?_, fun env' k same => ⟨?_, ?_⟩⟩
  · rw [limit_ofEnvironment, limit_default]
    rcases readOf_secs env k with asks | ⟨silent, hdefault⟩
    · have hbounds := asks.bounds
      exact ⟨hbounds.1, hbounds.2, fun m hm => asks.unique hm, fun silent => absurd asks (silent _)⟩
    · have hbounds := k.defaultSecs_bounds
      rw [hdefault]
      exact ⟨hbounds.1, hbounds.2, fun m hm => absurd hm (silent m), fun _ => rfl⟩
  · rw [faults_ofEnvironment]
    exact collected_classes env _
  · rw [limit_ofEnvironment, limit_ofEnvironment, readOf_congr same]
  · rw [faults_about, faults_about, readOf_congr same]

/-- The most seconds between blanks, one second more than a class may have, and no number. -/
example :
    ofEnvironment [("BITS_COMMAND_TIMEOUT_SECS", Utf8.encode " +86400\n"),
        ("BITS_EXPORT_TIMEOUT_SECS", Utf8.encode "86401"),
        ("BITS_HARDWARE_TIMEOUT_SECS", Utf8.encode "1.5")]
      = (⟨.ofSecs 86400, .ofSecs 600, .ofSecs 10⟩,
        [.outOfRange "BITS_EXPORT_TIMEOUT_SECS" 86401 1 86400,
          .invalidValue "BITS_HARDWARE_TIMEOUT_SECS" "unsigned 64-bit integer" "1.5"]) := by
  decide +kernel

end Timeouts

end PowerBench
