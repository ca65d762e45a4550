import PowerBench.Proofs.EnvSettings

set_option autoImplicit false

/-! # Where settings are said to come from

A getter gives its setting with an origin and the variable that it was read from. A setting that was
decoded from the variable is given as such, and one of an unset variable is given as the fallback
(`read_accepted`, `read_unset`). The fallback for a value that is refused has to be given as a fallback
too, which is so for a text that is no number; but a number out of range and an unknown level leave the
variable standing as the origin of the fallback (`read_refused`), and just these are the settings whose
origin is not `Honest`.
-/

namespace PowerBench

/-- A setting with its value seen in another way. -/
def Sourced.map {α β : Type} (f : α → β) (s : Sourced α) : Sourced β := ⟨f s.value, s.origin, s.key?⟩

namespace EnvReader

/-! ## Getters -/

/-- A call that reads a setting, with its parameters. -/
inductive Getter where
  | string (name fallback : String)
  | optional (name : String)
  | number (name : String) (fallback least most : Nat)
  | level (name fallback : String)
deriving DecidableEq, Repr

namespace Getter

/-- A getter as one of the calls of a reader. -/
def step : Getter → Step
  | .string name fallback => .string name fallback
  | .optional name => .optional name
  | .number name fallback least most => .number name fallback least most
  | .level name fallback => .level name fallback

def key : Getter → String
  | .string name _ => variableName name
  | .optional name => variableName name
  | .number name _ _ _ => variableName name
  | .level name _ => variableName name

/-- What is given in place of a value. -/
def fallback : Getter → Given
  | .string _ fallback => .text fallback
  | .optional _ => .optional none
  | .number _ fallback _ _ => .number fallback
  | .level _ fallback => .text fallback

/-- Reads a setting, with where it comes from. -/
def read (env : Environment) : Getter → EnvReader (Sourced Given)
  | .string name fallback => Sourced.map .text <$> EnvReader.string env name fallback
  | .optional name => Sourced.map .optional <$> EnvReader.optional env name
  | .number name fallback least most => Sourced.map .number <$> natInRange env name fallback least most
  | .level name fallback => Sourced.map .text <$> EnvReader.level env name fallback

end Getter

theorem step_key (g : Getter) : g.step.key? = some g.key := by
  cases g <;> rfl

/-- The variable of a getter is unset, refused or accepted. -/
theorem getter_cases (env : Environment) (g : Getter) :
    Unset env g.step ∨ (∃ fault, Refused env g.step fault) ∨ ∃ given, Accepted env g.step given := by
  have hends := perform_ends env g.step []
  generalize ((perform env g.step).run []).1 = given at hends
  generalize ((perform env g.step).run []).2 = pending at hends
  -- No getter takes faults, and every other call ends in one of the three ways.
  cases hstep : g.step with
  | takeFaults => cases g <;> cases hstep
  | _ =>
      rw [hstep] at hends
      cases hends with
      | unset _ unset => exact .inl unset
      | refused _ refused => exact .inr (.inl ⟨_, refused⟩)
      | accepted _ accepted => exact .inr (.inr ⟨_, accepted⟩)

section

variable {env : Environment} {g : Getter}

theorem SetTo.text_eq {value : String} (h : SetTo env g.step value) :
    env.text? g.key = some value := by
  obtain ⟨key, hkey, htext⟩ := h
  obtain rfl := Option.some.inj ((step_key g).symm.trans hkey)
  exact htext

/-- A value that is accepted is given as that of the variable. -/
theorem read_accepted {given : Given} (h : Accepted env g.step given) (pending : List EnvFault) :
    ((g.read env).run pending).1 = .ofVariable given g.key := by
  obtain ⟨value, hset, haccepts⟩ := h
  have htext := hset.text_eq
  cases g with
  | string name fallback =>
      cases haccepts
      rw [Getter.read, string, show env.text? (variableName name) = some value from htext]
      rfl
  | optional name =>
      cases haccepts with
      | empty =>
          rw [Getter.read, optional, show env.text? (variableName name) = some "" from htext]
          rfl
      | optional _ nonempty =>
          rw [Getter.read, optional, show env.text? (variableName name) = some value from htext]
          dsimp only
          rw [if_neg nonempty]
          rfl
  | number name fallback least most =>
      cases haccepts with
      | number _ _ denotes low high =>
          rw [Getter.read, natInRange, show env.text? (variableName name) = some value from htext]
          dsimp only
          rw [readUInt64_eq_ok.mpr denotes]
          dsimp only
          rw [if_pos ⟨low, high⟩]
          rfl
  | level name fallback =>
      cases haccepts with
      | level _ _ listed same =>
          have hlower := same.trans (lowerAscii_levelName listed)
          rw [Getter.read, level, show env.text? (variableName name) = some value from htext]
          dsimp only
          rw [hlower, if_pos (List.contains_iff_mem.mpr listed)]
          rfl

/-- The fallback for an unset variable is given as a fallback. -/
theorem read_unset (h : Unset env g.step) (pending : List EnvFault) :
    ((g.read env).run pending).1 = .ofDefault g.fallback := by
  obtain ⟨key, hkey, htext⟩ := h
  obtain rfl := Option.some.inj ((step_key g).symm.trans hkey)
  cases g with
  | string name fallback =>
      rw [Getter.read, string, show env.text? (variableName name) = none from htext]
      rfl
  | optional name =>
      rw [Getter.read, optional, show env.text? (variableName name) = none from htext]
      rfl
  | number name fallback least most =>
      rw [Getter.read, natInRange, show env.text? (variableName name) = none from htext]
      rfl
  | level name fallback =>
      rw [Getter.read, level, show env.text? (variableName name) = none from htext]
      rfl

end

/-- The faults after which the fallback is given as a value of the variable. -/
def Misattributed : EnvFault → Prop
  | .invalidValue _ _ _ => False
  | .outOfRange _ _ _ _ => True
  | .invalidLogLevel _ _ => True

section

variable {env : Environment} {g : Getter}

/-- The fallback for a value that is refused is given as a fallback, but for some faults as a value of
the variable. -/
theorem read_refused {fault : EnvFault} (h : Refused env g.step fault) (pending : List EnvFault) :
    (Misattributed fault ∧ ((g.read env).run pending).1 = .ofVariable g.fallback g.key)
      ∨ (¬ Misattributed fault ∧ ((g.read env).run pending).1 = .ofDefault g.fallback) := by
  obtain ⟨value, hset, hrefuses⟩ := h
  have htext := hset.text_eq
  cases g with
  | string name fallback => cases hrefuses
  | optional name => cases hrefuses
  | number name fallback least most =>
      rw [Getter.read, natInRange, show env.text? (variableName name) = some value from htext]
      cases hrefuses with
      | outOfRange _ _ denotes outside =>
          refine .inl ⟨trivial, ?_⟩
          dsimp only
          rw [readUInt64_eq_ok.mpr denotes]
          dsimp only
          rw [if_neg (by omega)]
          rfl
      | invalidValue _ _ _ _ noNumber =>
          refine .inr ⟨id, ?_⟩
          dsimp only
          cases hread : readUInt64 (trimBlanks value.toList) with
          | ok n => exact absurd ⟨n, readUInt64_eq_ok.mp hread⟩ noNumber
          | error e => rfl
  | level name fallback =>
      cases hrefuses with
      | invalidLogLevel _ _ noLevel =>
          have hunlisted : ¬ levelNames.contains (lowerAscii value) = true := by
            intro hlisted
            have hmem := List.contains_iff_mem.mp hlisted
            exact noLevel ⟨_, hmem, (lowerAscii_levelName hmem).symm⟩
          refine .inl ⟨trivial, ?_⟩
          rw [Getter.read, level, show env.text? (variableName name) = some value from htext]
          dsimp only
          rw [if_neg hunlisted]
          rfl

end

/-! ## Honesty -/

/-- A setting that tells where it comes from: it names the variable exactly if its value was decoded
from it, and a fallback is given as such. -/
structure Honest (env : Environment) (g : Getter) (s : Sourced Given) : Prop where
  decoded : s.origin = .environment ∧ s.key? = some g.key ↔ Accepted env g.step s.value
  fallback : FallsBack env g.step → s = .ofDefault g.fallback

section

variable {env : Environment} {g : Getter}

theorem honest_accepted {given : Given} (h : Accepted env g.step given) :
    Honest env g (.ofVariable given g.key) :=
  ⟨⟨fun _ => h, fun _ => ⟨rfl, rfl⟩⟩, fun back => absurd back h.not_fallsBack⟩

theorem honest_fallback (h : FallsBack env g.step) : Honest env g (.ofDefault g.fallback) := by
  refine ⟨⟨?_, fun accepted => absurd h accepted.not_fallsBack⟩, fun _ => rfl⟩
  rintro ⟨horigin, -⟩
  cases horigin

end

/-- **Where a setting comes from.** A value that is accepted is given with the variable that it was
decoded from, and the fallback of an unset variable as a fallback, as is the fallback for a text that
is no number. For a number out of range and for an unknown level the fallback is given as a value of
the variable. So a setting is honest exactly if its value was not refused for one of these two. -/
theorem origin_told (env : Environment) (g : Getter) (pending : List EnvFault) :
    ∃ s : Sourced Given, ((g.read env).run pending).1 = s
      ∧ (∀ given, Accepted env g.step given → s = .ofVariable given g.key)
      ∧ (Unset env g.step → s = .ofDefault g.fallback)
      ∧ (∀ fault, Refused env g.step fault →
        Misattributed fault ∧ s = .ofVariable g.fallback g.key
          ∨ ¬ Misattributed fault ∧ s = .ofDefault g.fallback)
      ∧ (Honest env g s ↔ ¬ ∃ fault, Refused env g.step fault ∧ Misattributed fault) := by
  refine ⟨_, rfl, fun _ h => read_accepted h pending, fun h => read_unset h pending,
    fun _ h => read_refused h pending, ?_⟩
  constructor
  · rintro honest ⟨fault, refused, misattributed⟩
    have hfallback := honest.fallback (.inr ⟨fault, refused⟩)
    rcases read_refused refused pending with ⟨-, hvariable⟩ | ⟨attributed, -⟩
    · cases hvariable.symm.trans hfallback
    · exact attributed misattributed
  · intro attributed
    rcases getter_cases env g with unset | ⟨fault, refused⟩ | ⟨given, accepted⟩
    · rw [read_unset unset]
      exact honest_fallback (.inl unset)
    · rcases read_refused refused pending with ⟨misattributed, -⟩ | ⟨-, hdefault⟩
      · exact absurd ⟨fault, refused, misattributed⟩ attributed
      · rw [hdefault]
        exact honest_fallback (.inr ⟨fault, refused⟩)
    · rw [read_accepted accepted]
      exact honest_accepted accepted

/-- The limit 500 is out of range, and the fallback 60 is given as the value of the variable. -/
theorem fallback_as_variable :
    let env : Environment := [("BITS_N", Utf8.encode "500")]
    let g : Getter := .number "N" 60 1 100
    ((g.read env).run []).1 = ⟨.number 60, .environment, some "BITS_N"⟩
      ∧ ¬ Honest env g ((g.read env).run []).1 := by
  intro env g
  have hread : ((g.read env).run []).1 = ⟨.number 60, .environment, some "BITS_N"⟩ := by
    decide +kernel
  have hdenotes : DenotesUInt64 (trimBlanks "500".toList) 500 :=
    readUInt64_eq_ok.mp (by decide +kernel)
  have hrefused : Refused env g.step (.outOfRange "BITS_N" 500 1 100) :=
    ⟨"500", ⟨"BITS_N", rfl, by decide +kernel⟩, .outOfRange "N" 60 hdenotes (.inr (by decide))⟩
  refine ⟨hread, fun honest => ?_⟩
  have hfallback := honest.fallback (.inr ⟨_, hrefused⟩)
  rw [hread] at hfallback
  cases hfallback

end EnvReader

end PowerBench
