import PowerBench.Proofs.ConfigOrigin
import PowerBench.Proofs.Entries

set_option autoImplicit false

/-! # Drafts and their last writes

A step on a draft writes one of its parts and leaves the others alone (`Draft.content?_apply`), so that
after any steps a part holds what was written to it last (`Draft.content?_steps`). A draft is nothing
but its parts (`Draft.ext_content`); what is built from it is therefore told by the last writes, and
`Outcome` says how.
-/

namespace PowerBench.ServiceConfig

/-! ## Parts of a draft -/

/-- The parts of a draft that a step can write; each setting is one by itself. -/
inductive Part where
  | virtualMetrics
  | kibbles
  | collectors
  | hvSerial
  | lvSerial
  | setting (key : String)
deriving DecidableEq, Repr

abbrev Part.Content : Part → Type
  | .virtualMetrics => Bool
  | .kibbles => Bool
  | .collectors => Bool
  | .hvSerial => String
  | .lvSerial => String
  | .setting _ => Json

/-- The part that a step writes. -/
def Setter.part : Setter → Part
  | .virtualMetrics _ => .virtualMetrics
  | .kibbles _ => .kibbles
  | .collectors _ => .collectors
  | .hvSerial _ => .hvSerial
  | .lvSerial _ => .lvSerial
  | .setting key _ => .setting key

/-- What a step writes to its part. -/
def Setter.content : (s : Setter) → s.part.Content
  | .virtualMetrics on => on
  | .kibbles on => on
  | .collectors on => on
  | .hvSerial serial => serial
  | .lvSerial serial => serial
  | .setting _ value => value

/-- What a step writes to a part, if anything. -/
def Setter.writes? (part : Part) (s : Setter) : Option part.Content :=
  if h : s.part = part then some (h ▸ s.content) else none

theorem Setter.writes?_self (s : Setter) : s.writes? s.part = some s.content := dif_pos rfl

theorem Setter.writes?_ne {part : Part} {s : Setter} (h : s.part ≠ part) : s.writes? part = none :=
  dif_neg h

def Draft.content? (d : Draft) : (part : Part) → Option part.Content
  | .virtualMetrics => some d.virtualMetrics
  | .kibbles => some d.kibbles
  | .collectors => some d.collectors
  | .hvSerial => d.hvSerial?
  | .lvSerial => d.lvSerial?
  | .setting key => d.settings.get? key

/-- **One step.** The part that it writes holds what was written, and the others what they held. -/
theorem Draft.content?_apply (s : Setter) (d : Draft) (part : Part) :
    (s.apply d).content? part = (s.writes? part).or (d.content? part) := by
  by_cases h : s.part = part
  · subst h
    rw [Setter.writes?_self, Option.some_or]
    cases s with
    | setting key value => exact (Entries.get?_insert key key value d.settings).trans (if_pos rfl)
    | _ => rfl
  · rw [Setter.writes?_ne h, Option.none_or]
    -- Two settings are different parts if their keys are different; all other parts are fields.
    cases s with
    | setting key value =>
        cases part with
        | setting key' =>
            have hne : key' ≠ key := fun heq => h (congrArg Part.setting heq.symm)
            exact (Entries.get?_insert key key' value d.settings).trans (if_neg hne)
        | _ => rfl
    | _ => cases part <;> first | rfl | exact absurd rfl h

/-! ## Last writes -/

def lastWritten? (part : Part) (steps : List Setter) : Option part.Content :=
  (steps.filterMap (Setter.writes? part)).getLast?

theorem lastWritten?_append (part : Part) (steps later : List Setter) :
    lastWritten? part (steps ++ later) = (lastWritten? part later).or (lastWritten? part steps) := by
  rw [lastWritten?, List.filterMap_append, List.getLast?_append]
  rfl

theorem lastWritten?_cons (part : Part) (s : Setter) (later : List Setter) :
    lastWritten? part (s :: later) = (lastWritten? part later).or (s.writes? part) := by
  rw [← List.singleton_append, lastWritten?_append]
  congr 1
  unfold lastWritten?
  cases hs : s.writes? part <;> simp [hs]

/-- **Any number of steps.** Each part holds what was written to it last, and what it held before if
nothing was. -/
theorem Draft.content?_steps (steps : List Setter) (d : Draft) (part : Part) :
    (steps.foldl Setter.apply d).content? part
      = (lastWritten? part steps).or (d.content? part) := by
  induction steps generalizing d with
  | nil => rfl
  | cons s later ih =>
      rw [List.foldl_cons, ih, content?_apply, lastWritten?_cons, Option.or_assoc]

/-- The settings stay in order. -/
theorem Draft.ascending_steps (steps : List Setter) {d : Draft} (ascending : d.settings.Ascending) :
    (steps.foldl Setter.apply d).settings.Ascending := by
  induction steps generalizing d with
  | nil => exact ascending
  | cons s later ih =>
      refine ih ?_
      cases s with
      | setting key value => exact Entries.ascending_insert ascending
      | _ => exact ascending

theorem Draft.ext_content {d d' : Draft} (ascending : d.settings.Ascending)
    (ascending' : d'.settings.Ascending) (h : ∀ part, d.content? part = d'.content? part) : d = d' := by
  have hvirtual : d.virtualMetrics = d'.virtualMetrics := Option.some.inj (h .virtualMetrics)
  have hkibbles : d.kibbles = d'.kibbles := Option.some.inj (h .kibbles)
  have hcollectors : d.collectors = d'.collectors := Option.some.inj (h .collectors)
  have hhv : d.hvSerial? = d'.hvSerial? := h .hvSerial
  have hlv : d.lvSerial? = d'.lvSerial? := h .lvSerial
  have hsettings : d.settings = d'.settings :=
    Entries.eq_of_get? ascending ascending' fun key => h (.setting key)
  cases d
  cases d'
  simp_all

def SameLastWrites (steps steps' : List Setter) : Prop :=
  ∀ part, lastWritten? part steps = lastWritten? part steps'

/-- Steps with the same last writes lead to the same draft. -/
theorem SameLastWrites.draft_eq {steps steps' : List Setter} (h : SameLastWrites steps steps') :
    steps.foldl Setter.apply {} = steps'.foldl Setter.apply {} := by
  refine Draft.ext_content (Draft.ascending_steps steps .nil) (Draft.ascending_steps steps' .nil) ?_
  intro part
  rw [Draft.content?_steps, Draft.content?_steps, h part]

/-- Two neighbours that write different parts can change places. -/
theorem sameLastWrites_swap (before after : List Setter) {s t : Setter} (h : s.part ≠ t.part) :
    SameLastWrites (before ++ t :: s :: after) (before ++ s :: t :: after) := by
  intro part
  simp only [lastWritten?_append, lastWritten?_cons]
  by_cases hs : s.part = part
  · have ht : t.part ≠ part := fun ht => h (hs.trans ht.symm)
    rw [Setter.writes?_ne ht, Option.or_none, Option.or_none]
  · rw [Setter.writes?_ne hs, Option.or_none, Option.or_none]

/-! ## What is built -/

/-- What is built from a new draft after steps. -/
def builtAfter (steps : List Setter) : Except ConfigFault ServiceConfig :=
  (steps.foldl Setter.apply {}).build

/-- The monitors that are set after steps: the last serial of each kind. -/
def monitorsSet (steps : List Setter) : List Monitor :=
  ((lastWritten? .hvSerial steps).map (Monitor.mk .hv)).toList
    ++ ((lastWritten? .lvSerial steps).map (Monitor.mk .lv)).toList

/-- Serials of both kinds are set. -/
def BothSet (steps : List Setter) : Prop :=
  (∃ serial, lastWritten? .hvSerial steps = some serial)
    ∧ ∃ serial, lastWritten? .lvSerial steps = some serial

/-- The collectors are enabled unless they were disabled last. -/
def collectorsAfter (steps : List Setter) : Bool := (lastWritten? .collectors steps).getD true

def HasSerial (m : Monitor) : Prop := ∃ ch ∈ m.serial.toList, isBlank ch = false

/-- A configuration that consists of the last writes. -/
structure ConsistsOf (steps : List Setter) (c : ServiceConfig) : Prop where
  virtualMetrics : c.virtualMetrics = (lastWritten? .virtualMetrics steps).getD false
  kibbles : c.kibbles = (lastWritten? .kibbles steps).getD false
  collectors : c.collectors = collectorsAfter steps
  monitor : c.monitor?.toList = monitorsSet steps
  settings : ∀ key, c.settings.get? key = lastWritten? (.setting key) steps
  ascending : c.settings.Ascending

/-- What comes of building after steps, in the order of the checks. -/
inductive Outcome (steps : List Setter) : Except ConfigFault ServiceConfig → Prop where
  | bothMonitors {m m' : Monitor} (set : monitorsSet steps = [m, m']) :
      Outcome steps (.error .bothMonitors)
  | blankSerial {m : Monitor} (set : monitorsSet steps = [m]) (blank : ¬ HasSerial m) :
      Outcome steps (.error .blankSerial)
  | collectorsDisabled {m : Monitor} (set : monitorsSet steps = [m]) (serial : HasSerial m)
      (disabled : collectorsAfter steps = false) : Outcome steps (.error .collectorsDisabled)
  | configuration {c : ServiceConfig} (consists : ConsistsOf steps c)
      (fit : ∀ m ∈ monitorsSet steps, HasSerial m ∧ collectorsAfter steps = true) :
      Outcome steps (.ok c)

section

variable {steps : List Setter}

theorem ConsistsOf.unique {c c' : ServiceConfig} (h : ConsistsOf steps c)
    (h' : ConsistsOf steps c') : c = c' := by
  have hvirtual : c.virtualMetrics = c'.virtualMetrics := h.virtualMetrics.trans h'.virtualMetrics.symm
  have hkibbles : c.kibbles = c'.kibbles := h.kibbles.trans h'.kibbles.symm
  have hcollectors : c.collectors = c'.collectors := h.collectors.trans h'.collectors.symm
  have hmonitor : c.monitor? = c'.monitor? := by
    simpa using congrArg List.head? (h.monitor.trans h'.monitor.symm)
  have hsettings : c.settings = c'.settings :=
    Entries.eq_of_get? h.ascending h'.ascending fun key =>
      (h.settings key).trans (h'.settings key).symm
  cases c
  cases c'
  simp_all

/-- The parts of a draft with the one monitor that it has, if any. -/
def Draft.withMonitor (d : Draft) (m? : Option Monitor) : ServiceConfig :=
  { virtualMetrics := d.virtualMetrics, kibbles := d.kibbles, collectors := d.collectors
    monitor? := m?, settings := d.settings }

theorem Draft.build_of_monitor {d : Draft} {m? : Option Monitor} (h : d.monitor? = .ok m?) :
    d.build = (checkMonitor d.collectors m?).map fun _ => d.withMonitor m? := by
  rw [build, h]
  show (checkMonitor d.collectors m? >>= _) = _
  cases checkMonitor d.collectors m? <;> rfl

theorem eq_getD_of_or {α : Type} {a b : α} {o : Option α} (h : some a = o.or (some b)) :
    a = o.getD b := by
  cases o <;> simpa using h

theorem collectors_steps (steps : List Setter) :
    (steps.foldl Setter.apply {} : Draft).collectors = collectorsAfter steps :=
  eq_getD_of_or (Draft.content?_steps steps {} .collectors)

theorem consistsOf_withMonitor {m? : Option Monitor} (h : m?.toList = monitorsSet steps) :
    ConsistsOf steps ((steps.foldl Setter.apply {} : Draft).withMonitor m?) where
  virtualMetrics := eq_getD_of_or (Draft.content?_steps steps {} .virtualMetrics)
  kibbles := eq_getD_of_or (Draft.content?_steps steps {} .kibbles)
  collectors := collectors_steps steps
  monitor := h
  settings key := (Draft.content?_steps steps {} (.setting key)).trans Option.or_none
  ascending := Draft.ascending_steps steps .nil

/-! ### The monitors of the draft -/

theorem bothSet_iff : BothSet steps ↔ ∃ m m', monitorsSet steps = [m, m'] := by
  unfold BothSet monitorsSet
  cases lastWritten? .hvSerial steps <;> cases lastWritten? .lvSerial steps <;> simp

theorem monitorsSet_cases (steps : List Setter) :
    (∃ m m', monitorsSet steps = [m, m']) ∨ ∃ m? : Option Monitor, m?.toList = monitorsSet steps := by
  unfold monitorsSet
  cases lastWritten? .hvSerial steps with
  | none => exact .inr ⟨_, rfl⟩
  | some serial =>
      cases lastWritten? .lvSerial steps with
      | none => exact .inr ⟨some ⟨.hv, serial⟩, rfl⟩
      | some serial' => exact .inl ⟨_, _, rfl⟩

/-- The slots of the draft hold the last serials. -/
theorem monitor?_steps (steps : List Setter) :
    (steps.foldl Setter.apply {} : Draft).monitor?
      = match monitorsSet steps with
        | [] => .ok none
        | [m] => .ok (some m)
        | _ => .error .bothMonitors := by
  have hhv : (steps.foldl Setter.apply {} : Draft).hvSerial? = lastWritten? .hvSerial steps :=
    (Draft.content?_steps steps {} .hvSerial).trans Option.or_none
  have hlv : (steps.foldl Setter.apply {} : Draft).lvSerial? = lastWritten? .lvSerial steps :=
    (Draft.content?_steps steps {} .lvSerial).trans Option.or_none
  rw [Draft.monitor?, hhv, hlv, monitorsSet]
  cases lastWritten? .hvSerial steps <;> cases lastWritten? .lvSerial steps <;> rfl

/-! ### The check of the monitor -/

theorem checkMonitor_blank {m : Monitor} (blank : ¬ HasSerial m) (collectors : Bool) :
    Draft.checkMonitor collectors (some m) = .error .blankSerial := by
  have hblank : allBlank m.serial = true := by simpa [HasSerial, allBlank] using blank
  rw [Draft.checkMonitor, if_pos hblank]

theorem checkMonitor_serial {m : Monitor} (serial : HasSerial m) (collectors : Bool) :
    Draft.checkMonitor collectors (some m)
      = if collectors then .ok () else .error .collectorsDisabled := by
  have hblank : ¬ allBlank m.serial = true := by simpa [HasSerial, allBlank] using serial
  rw [Draft.checkMonitor, if_neg hblank]
  cases collectors <;> rfl

/-! ### The outcome -/

/-- A single monitor is checked, and without one there is nothing to check. -/
theorem builtAfter_single {m? : Option Monitor} (h : m?.toList = monitorsSet steps) :
    builtAfter steps = (Draft.checkMonitor (collectorsAfter steps) m?).map fun _ =>
      (steps.foldl Setter.apply {} : Draft).withMonitor m? := by
  have hmonitor : (steps.foldl Setter.apply {} : Draft).monitor? = .ok m? := by
    rw [monitor?_steps, ← h]
    cases m? <;> rfl
  rw [builtAfter, Draft.build_of_monitor hmonitor, collectors_steps]

theorem Outcome.built {r : Except ConfigFault ServiceConfig} (h : Outcome steps r) :
    builtAfter steps = r := by
  cases h with
  | bothMonitors set =>
      rw [builtAfter, Draft.build, monitor?_steps, set]
      rfl
  | @blankSerial m set blank =>
      have hset : (some m).toList = monitorsSet steps := set.symm
      rw [builtAfter_single hset, checkMonitor_blank blank]
      rfl
  | @collectorsDisabled m set serial disabled =>
      have hset : (some m).toList = monitorsSet steps := set.symm
      rw [builtAfter_single hset, checkMonitor_serial serial, disabled]
      rfl
  | @configuration c consists fit =>
      have hcheck : Draft.checkMonitor (collectorsAfter steps) c.monitor? = .ok () := by
        cases hmonitor : c.monitor? with
        | none => rfl
        | some m =>
            have hmem : m ∈ monitorsSet steps := by simp [← consists.monitor, hmonitor]
            obtain ⟨serial, enabled⟩ := fit m hmem
            rw [checkMonitor_serial serial, enabled]
            rfl
      rw [builtAfter_single consists.monitor, hcheck,
        (consistsOf_withMonitor consists.monitor).unique consists]
      rfl

theorem exists_outcome (steps : List Setter) : ∃ r, Outcome steps r := by
  rcases monitorsSet_cases steps with ⟨m, m', hboth⟩ | ⟨_ | m, hset⟩
  · exact ⟨_, .bothMonitors hboth⟩
  · exact ⟨_, .configuration (consistsOf_withMonitor hset) (by simp [← hset])⟩
  · by_cases serial : HasSerial m
    · cases hcollectors : collectorsAfter steps with
      | false => exact ⟨_, .collectorsDisabled hset.symm serial hcollectors⟩
      | true =>
          refine ⟨_, .configuration (consistsOf_withMonitor hset) fun m' hm' => ?_⟩
          rw [← hset] at hm'
          obtain rfl := List.mem_singleton.mp hm'
          exact ⟨serial, hcollectors⟩
    · exact ⟨_, .blankSerial hset.symm serial⟩

theorem builtAfter_eq_iff {r : Except ConfigFault ServiceConfig} :
    builtAfter steps = r ↔ Outcome steps r := by
  refine ⟨?_, Outcome.built⟩
  rintro rfl
  -- What is built is an outcome because there is one, and that one is what is built.
  obtain ⟨r, houtcome⟩ := exists_outcome steps
  exact houtcome.built ▸ houtcome

/-- A build succeeds for just the monitors that fit, and at most one. -/
theorem builds_iff :
    (∃ c, builtAfter steps = .ok c) ↔
      ¬ BothSet steps ∧ ∀ m ∈ monitorsSet steps, HasSerial m ∧ collectorsAfter steps = true := by
  rw [bothSet_iff]
  constructor
  · rintro ⟨c, hbuilt⟩
    cases builtAfter_eq_iff.mp hbuilt with
    | configuration consists fit =>
        refine ⟨?_, fit⟩
        rintro ⟨m, m', hboth⟩
        have hmonitor := consists.monitor.trans hboth
        cases hm : c.monitor? <;> simp [hm] at hmonitor
  · rintro ⟨single, fit⟩
    obtain ⟨m?, hset⟩ := (monitorsSet_cases steps).resolve_left single
    exact ⟨_, builtAfter_eq_iff.mpr (.configuration (consistsOf_withMonitor hset) fit)⟩

/-- Serials stay set. -/
theorem BothSet.append (h : BothSet steps) (more : List Setter) : BothSet (steps ++ more) := by
  obtain ⟨⟨hv, hhv⟩, lv, hlv⟩ := h
  unfold BothSet
  rw [lastWritten?_append, lastWritten?_append, hhv, hlv]
  constructor
  · cases lastWritten? .hvSerial more <;> exact ⟨_, rfl⟩
  · cases lastWritten? .lvSerial more <;> exact ⟨_, rfl⟩

end

/-- **A draft is told by its last writes.** What is built after steps is the outcome that the last
write to each part tells. So it is the same after steps with the same last writes, and after two
neighbours that write different parts have changed places. It is a configuration exactly if not both
serials are set, and the serial that is set, if one is, is not blank and the collectors are enabled.
After both serials have been set no further steps change the refusal. -/
theorem build_of_last_writes (steps : List Setter) :
    (∀ r, builtAfter steps = r ↔ Outcome steps r)
      ∧ (∀ steps', SameLastWrites steps steps' → builtAfter steps' = builtAfter steps)
      ∧ (∀ before s t after, steps = before ++ s :: t :: after → s.part ≠ t.part →
        builtAfter (before ++ t :: s :: after) = builtAfter steps)
      ∧ ((∃ c, builtAfter steps = .ok c) ↔
        ¬ BothSet steps ∧ ∀ m ∈ monitorsSet steps, HasSerial m ∧ collectorsAfter steps = true)
      ∧ (BothSet steps → ∀ more, builtAfter (steps ++ more) = .error .bothMonitors) := by
  have hsame : ∀ {steps steps' : List Setter}, SameLastWrites steps' steps →
      builtAfter steps' = builtAfter steps := fun h => congrArg Draft.build h.draft_eq
  refine ⟨fun r => builtAfter_eq_iff, fun steps' h => (hsame h).symm, ?_, builds_iff, ?_⟩
  · rintro before s t after rfl apart
    exact hsame (sameLastWrites_swap before after apart)
  · intro both more
    obtain ⟨m, m', hset⟩ := bothSet_iff.mp (both.append more)
    exact builtAfter_eq_iff.mpr (.bothMonitors hset)

/-- A serial of the other kind is not taken back by setting the first kind again. -/
example : builtAfter [.hvSerial "A", .lvSerial "B", .collectors false, .hvSerial "C"]
    = .error .bothMonitors := rfl

end PowerBench.ServiceConfig
