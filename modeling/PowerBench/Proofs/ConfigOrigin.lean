import Mathlib.Data.List.Perm.Basic
import PowerBench.Control.Run
import PowerBench.Proofs.Outcome

set_option autoImplicit false

/-! # Where configurations come from

A configuration is the default one, is built from a draft, or is read from a file, and a draft can
start from a configuration that was obtained before. `Obtained sets c` says that `c` comes about in
one of these ways and that `sets` are the monitors set in the draft or file it was built from. On all
of them the last step is a build, so the monitor of `c` is what was set and has been checked
(`monitor_obtained`).
-/

namespace PowerBench.ServiceConfig

/-! ## Drafts -/

/-- A step on a draft. -/
inductive Setter where
  | virtualMetrics (on : Bool)
  | kibbles (on : Bool)
  | collectors (on : Bool)
  | hvSerial (serial : String)
  | lvSerial (serial : String)
  | setting (key : String) (value : Json)

def Setter.apply (d : Draft) : Setter → Draft
  | .virtualMetrics on => d.setVirtualMetrics on
  | .kibbles on => d.setKibbles on
  | .collectors on => d.setCollectors on
  | .hvSerial serial => d.setHvSerial serial
  | .lvSerial serial => d.setLvSerial serial
  | .setting key value => d.setSetting key value

/-- The monitor that a step sets. -/
def Setter.monitor? : Setter → Option Monitor
  | .hvSerial serial => some ⟨.hv, serial⟩
  | .lvSerial serial => some ⟨.lv, serial⟩
  | _ => none

def lastOf (kind : MonitorKind) (sets : List Monitor) : Option Monitor :=
  sets.reverse.find? fun m => m.kind = kind

/-- Of monitors set one after the other those that are still set at the end: setting a kind again
replaces what was set before. -/
def stillSet (sets : List Monitor) : List Monitor :=
  [MonitorKind.hv, .lv].filterMap fun kind => lastOf kind sets

def Draft.slot? (d : Draft) : MonitorKind → Option Monitor
  | .hv => d.hvSerial?.map fun serial => ⟨.hv, serial⟩
  | .lv => d.lvSerial?.map fun serial => ⟨.lv, serial⟩

def Draft.monitors (d : Draft) : List Monitor :=
  [MonitorKind.hv, .lv].filterMap d.slot?

/-- The slots of a draft hold what is left of the monitors set so far. -/
def Draft.Holds (d : Draft) (sets : List Monitor) : Prop := ∀ kind, d.slot? kind = lastOf kind sets

theorem Draft.Holds.monitors_eq {d : Draft} {sets : List Monitor} (h : d.Holds sets) :
    d.monitors = stillSet sets := by
  rw [monitors, stillSet, funext h]

theorem lastOf_append (kind : MonitorKind) (sets : List Monitor) (m : Monitor) :
    lastOf kind (sets ++ [m]) = if m.kind = kind then some m else lastOf kind sets := by
  rw [lastOf, List.reverse_append, List.reverse_singleton, List.singleton_append, List.find?_cons]
  by_cases h : m.kind = kind <;> simp [h, lastOf]

/-- One step keeps the record of the monitors set so far. -/
theorem Draft.Holds.step {d : Draft} {sets : List Monitor} (h : d.Holds sets) (s : Setter) :
    (s.apply d).Holds (sets ++ s.monitor?.toList) := by
  intro kind
  have hkind := h kind
  cases s with
  | hvSerial serial =>
      rw [Setter.monitor?, Option.toList_some, lastOf_append]
      cases kind with
      | hv => rfl
      | lv => exact hkind
  | lvSerial serial =>
      rw [Setter.monitor?, Option.toList_some, lastOf_append]
      cases kind with
      | hv => exact hkind
      | lv => rfl
  | _ =>
      show _ = lastOf kind (sets ++ [])
      rw [List.append_nil]
      cases kind <;> exact hkind

theorem Draft.Holds.steps {d : Draft} {sets : List Monitor} (h : d.Holds sets)
    (steps : List Setter) :
    (steps.foldl Setter.apply d).Holds (sets ++ steps.filterMap Setter.monitor?) := by
  induction steps generalizing d sets with
  | nil => rwa [List.filterMap_nil, List.append_nil]
  | cons s rest ih =>
      have hrest := ih (h.step s)
      have hsets : sets ++ s.monitor?.toList ++ rest.filterMap Setter.monitor?
          = sets ++ (s :: rest).filterMap Setter.monitor? := by
        rw [List.append_assoc]
        cases hs : s.monitor? <;> simp [hs]
      rwa [hsets] at hrest

theorem holds_new : Draft.Holds {} [] := by
  intro kind
  cases kind <;> rfl

theorem holds_toDraft (c : ServiceConfig) : c.toDraft.Holds c.monitor?.toList := by
  intro kind
  rcases hm : c.monitor? with _ | ⟨_ | _, serial⟩
  · cases kind <;> simp [toDraft, Draft.slot?, hm, lastOf]
  · cases kind <;> simp [toDraft, Draft.slot?, hm, lastOf]
  · cases kind <;> simp [toDraft, Draft.slot?, hm, lastOf]

/-! ## Builds -/

/-- What a configuration with a monitor has: a serial that is not blank, and enabled collectors. -/
structure Sound (c : ServiceConfig) : Prop where
  serial : ∀ m, c.monitor? = some m → ∃ ch ∈ m.serial.toList, isBlank ch = false
  collectors : ∀ m, c.monitor? = some m → c.collectors = true

theorem Draft.monitors_eq (d : Draft) :
    d.monitors = (d.slot? .hv).toList ++ (d.slot? .lv).toList := by
  unfold monitors
  cases hhv : d.slot? .hv <;> cases hlv : d.slot? .lv <;> simp [hhv, hlv]

/-- A draft with one monitor at most gives that monitor. -/
theorem Draft.monitor?_eq_ok {d : Draft} {m? : Option Monitor} (h : d.monitor? = .ok m?) :
    m?.toList = d.monitors := by
  rw [monitors_eq]
  unfold monitor? at h
  unfold slot?
  split at h
  · cases h
  · rename_i hhv hlv
    rw [← Except.ok.inj h, hhv, hlv]
    rfl
  · rename_i hhv hlv
    rw [← Except.ok.inj h, hhv, hlv]
    rfl
  · rename_i hhv hlv
    rw [← Except.ok.inj h, hhv, hlv]
    rfl

/-- The check of a monitor asks for a serial that is not blank and for enabled collectors. -/
theorem Draft.checkMonitor_eq_ok {collectors : Bool} {m : Monitor}
    (h : checkMonitor collectors (some m) = .ok ()) :
    (∃ ch ∈ m.serial.toList, isBlank ch = false) ∧ collectors = true := by
  unfold checkMonitor at h
  dsimp only at h
  split at h
  · cases h
  · rename_i hblank
    split at h
    · cases h
    · rename_i hcollectors
      refine ⟨?_, by simpa using hcollectors⟩
      simpa [allBlank] using hblank

/-- A build gives a sound configuration with the monitors of the draft. -/
theorem Draft.build_eq_ok {d : Draft} {c : ServiceConfig} (h : d.build = .ok c) :
    c.monitor?.toList = d.monitors ∧ Sound c := by
  obtain ⟨m?, hmonitor, h⟩ := bind_eq_ok.mp h
  obtain ⟨⟨⟩, hcheck, h⟩ := bind_eq_ok.mp h
  obtain rfl := Except.ok.inj h
  refine ⟨monitor?_eq_ok hmonitor, ?_, ?_⟩
  · rintro m rfl
    exact (checkMonitor_eq_ok hcheck).1
  · rintro m rfl
    exact (checkMonitor_eq_ok hcheck).2

/-- A draft that holds what is left of some monitors builds a configuration with just these. -/
theorem Draft.Holds.build {d : Draft} {sets : List Monitor} {c : ServiceConfig} (h : d.Holds sets)
    (built : d.build = .ok c) : c.monitor?.toList = stillSet sets ∧ Sound c := by
  obtain ⟨hmonitor, hsound⟩ := build_eq_ok built
  exact ⟨hmonitor.trans h.monitors_eq, hsound⟩

/-! ## Files -/

/-- A monitor from a file goes into the free slot of its kind. -/
theorem FileContent.addMonitor_eq_ok {d d' : Draft} {m : Monitor} (h : addMonitor d m = .ok d') :
    d'.monitors.Perm (d.monitors ++ [m]) := by
  obtain ⟨kind, serial⟩ := m
  unfold addMonitor at h
  rw [Draft.monitors_eq, Draft.monitors_eq]
  cases kind with
  | hv =>
      dsimp only at h
      split at h
      · cases h
      · rename_i hfree
        have hnone : d.hvSerial? = none := by simpa using hfree
        obtain rfl := Except.ok.inj h
        have hswap : ∀ ms : List Monitor, (Monitor.mk .hv serial :: ms).Perm (ms ++ [.mk .hv serial]) :=
          fun _ => (List.perm_append_singleton _ _).symm
        simpa [Draft.slot?, hnone] using hswap _
  | lv =>
      dsimp only at h
      split at h
      · cases h
      · rename_i hfree
        have hnone : d.lvSerial? = none := by simpa using hfree
        obtain rfl := Except.ok.inj h
        simp [Draft.slot?, hnone]

/-- The monitors of a file all have slots of their own. -/
theorem FileContent.addMonitors_eq_ok {ms : List Monitor} {d d' : Draft}
    (h : ms.foldlM addMonitor d = .ok d') : d'.monitors.Perm (d.monitors ++ ms) := by
  induction ms generalizing d with
  | nil =>
      obtain rfl := Except.ok.inj h
      rw [List.append_nil]
  | cons m rest ih =>
      rw [List.foldlM_cons] at h
      obtain ⟨next, hm, h⟩ := bind_eq_ok.mp h
      have hstep := (addMonitor_eq_ok hm).append_right rest
      rw [List.append_assoc, List.singleton_append] at hstep
      exact (ih h).trans hstep

theorem FileContent.toDraft_eq_ok {f : FileContent} {d : Draft} (h : f.toDraft = .ok d) :
    d.monitors.Perm f.monitors := by
  obtain ⟨added, hadd, h⟩ := bind_eq_ok.mp h
  obtain rfl := Except.ok.inj h
  exact addMonitors_eq_ok hadd

def declared (text : String) : List Monitor :=
  match FileContent.read text with
  | .ok f => f.monitors
  | .error _ => []

/-- A configuration that is read has the one monitor of its text, or none where there is none. -/
theorem read_eq_ok {text : String} {c : ServiceConfig} (h : read text = .ok c) :
    c.monitor?.toList = declared text ∧ Sound c := by
  obtain ⟨f, hf, h⟩ := bind_eq_ok.mp h
  obtain ⟨d, hd, h⟩ := bind_eq_ok.mp h
  obtain ⟨hmonitor, hsound⟩ := Draft.build_eq_ok h
  refine ⟨?_, hsound⟩
  -- There is at most one monitor, so that the order of the slots does not matter.
  have hslots := FileContent.toDraft_eq_ok hd
  have hdeclared : declared text = f.monitors := by rw [declared, hf]
  rw [← hmonitor] at hslots
  rw [hdeclared]
  cases hm : c.monitor? with
  | none =>
      rw [hm] at hslots
      exact hslots.nil_eq
  | some m =>
      rw [hm] at hslots
      exact (List.perm_singleton.mp hslots.symm).symm

/-- The monitors that a file declares, given what came of reading it. -/
def declaredIn (content : Except IoFault Bytes) : List Monitor :=
  match content with
  | .error _ => []
  | .ok bytes => (Utf8.decode? bytes).elim [] declared

theorem load_eq_ok {path : Path} {content : Except IoFault Bytes} {c : ServiceConfig}
    (h : load path content = .ok c) : c.monitor?.toList = declaredIn content ∧ Sound c := by
  unfold load at h
  cases content with
  | error cause => cases h
  | ok bytes =>
      dsimp only at h
      cases htext : Utf8.decode? bytes with
      | none => simp [htext] at h
      | some text =>
          rw [htext] at h
          rw [declaredIn, htext, Option.elim_some]
          exact read_eq_ok (mapError_eq_ok.mp h)

/-- The monitors declared for a run of the command line: in its configuration file, if it has one. -/
def declaredFor (files : FileTree) (a : Control.Arguments) : List Monitor :=
  match a.config? with
  | none => []
  | some path => declaredIn (files.content path)

theorem sound_default : Sound default := by
  refine ⟨fun m h => ?_, fun m h => ?_⟩
  · cases h
  · cases h

/-- A single monitor is not replaced. -/
theorem stillSet_toList (m? : Option Monitor) : stillSet m?.toList = m?.toList := by
  rcases m? with _ | ⟨_ | _, serial⟩
  · rfl
  · rfl
  · rfl

/-- Steps that set no monitor, and a build, leave a configuration with the monitor it had. -/
theorem rebuild_eq_ok {base c : ServiceConfig} {steps : List Setter}
    (unset : steps.filterMap Setter.monitor? = [])
    (h : (steps.foldl Setter.apply base.toDraft).build = .ok c) :
    c.monitor?.toList = base.monitor?.toList ∧ Sound c := by
  have hholds := (holds_toDraft base).steps steps
  rw [unset, List.append_nil] at hholds
  obtain ⟨hmonitor, hsound⟩ := hholds.build h
  exact ⟨hmonitor.trans (stillSet_toList _), hsound⟩

/-- The steps that the flags of the command line ask for. -/
def flagSteps (a : Control.Arguments) : List Setter :=
  (if a.vmFile then [.virtualMetrics true] else []) ++ if a.kibbles then [.kibbles true] else []

theorem flagSteps_monitor (a : Control.Arguments) :
    (flagSteps a).filterMap Setter.monitor? = [] := by
  unfold flagSteps
  cases a.vmFile <;> cases a.kibbles <;> rfl

/-- The configuration of a run is the one of its file or the default, built again with what the
flags add if there are any. -/
theorem serviceConfig_eq_ok {files : FileTree} {a : Control.Arguments} {c : ServiceConfig}
    (h : Control.serviceConfig files a = .ok c) :
    c.monitor?.toList = declaredFor files a ∧ Sound c := by
  have hflags : ∀ base : ServiceConfig,
      base.monitor?.toList = declaredFor files a ∧ Sound base →
      (if !a.vmFile && !a.kibbles then .ok base
        else ((flagSteps a).foldl Setter.apply base.toDraft).build.mapError fun e =>
          Control.Failure.config (.badConfig e)) = .ok c →
      c.monitor?.toList = declaredFor files a ∧ Sound c := by
    intro base hbase hrun
    split at hrun
    · obtain rfl := Except.ok.inj hrun
      exact hbase
    · obtain ⟨hmonitor, hsound⟩ := rebuild_eq_ok (flagSteps_monitor a) (mapError_eq_ok.mp hrun)
      exact ⟨hmonitor.trans hbase.1, hsound⟩
  have hdraft : ∀ base : ServiceConfig,
      (flagSteps a).foldl Setter.apply base.toDraft
        = (if a.kibbles then Draft.setKibbles true
              (if a.vmFile then Draft.setVirtualMetrics true base.toDraft else base.toDraft)
            else if a.vmFile then Draft.setVirtualMetrics true base.toDraft else base.toDraft) := by
    intro base
    unfold flagSteps
    cases a.vmFile <;> cases a.kibbles <;> rfl
  unfold Control.serviceConfig at h
  cases hconfig : a.config? with
  | none =>
      have hbase : default.monitor?.toList = declaredFor files a ∧ Sound default := by
        refine ⟨?_, sound_default⟩
        rw [declaredFor, hconfig]
        rfl
      refine hflags default hbase ?_
      rw [hdraft]
      rw [hconfig] at h
      exact h
  | some path =>
      rw [hconfig] at h
      obtain ⟨base, hload, h⟩ := bind_eq_ok.mp h
      have hbase : base.monitor?.toList = declaredFor files a ∧ Sound base := by
        rw [declaredFor, hconfig]
        exact load_eq_ok (mapError_eq_ok.mp hload)
      refine hflags base hbase ?_
      rw [hdraft]
      exact h

/-! ## Chains of constructions -/

/-- How a configuration can be obtained, with the monitors set in the draft or file that it was built
from. -/
inductive Obtained : List Monitor → ServiceConfig → Prop where
  /-- It is the default one. -/
  | default : Obtained [] .default
  /-- It is built from a new draft after some steps. -/
  | built {c : ServiceConfig} (steps : List Setter)
      (build : (steps.foldl Setter.apply {}).build = .ok c) :
      Obtained (stillSet (steps.filterMap Setter.monitor?)) c
  /-- It is built from the draft of another after some steps. -/
  | derived {sets : List Monitor} {base c : ServiceConfig} (before : Obtained sets base)
      (steps : List Setter) (build : (steps.foldl Setter.apply base.toDraft).build = .ok c) :
      Obtained (stillSet (sets ++ steps.filterMap Setter.monitor?)) c
  /-- It is read from a text. -/
  | text {c : ServiceConfig} (text : String) (read : read text = .ok c) : Obtained (declared text) c
  /-- It is loaded from a file. -/
  | file {c : ServiceConfig} (path : Path) (content : Except IoFault Bytes)
      (load : load path content = .ok c) : Obtained (declaredIn content) c
  /-- It is what the options of the command line ask for. -/
  | commandLine {c : ServiceConfig} (files : FileTree) (a : Control.Arguments)
      (run : Control.serviceConfig files a = .ok c) : Obtained (declaredFor files a) c

/-- **The monitor of a configuration.** However a configuration is obtained, its monitor is the one
and only monitor set in the draft or file it was built from, and it has none where none was set. A
monitor has a serial that is not blank, and the collectors are enabled with it. -/
theorem monitor_obtained {sets : List Monitor} {c : ServiceConfig} (h : Obtained sets c) :
    c.monitor?.toList = sets
      ∧ ∀ m, c.monitor? = some m →
        (∃ ch ∈ m.serial.toList, isBlank ch = false) ∧ c.collectors = true := by
  have hsound : c.monitor?.toList = sets ∧ Sound c := by
    induction h with
    | default => exact ⟨rfl, sound_default⟩
    | built steps build =>
        have hholds := holds_new.steps steps
        rw [List.nil_append] at hholds
        exact hholds.build build
    | @derived sets base c _ steps build ih =>
        have hholds := (holds_toDraft base).steps steps
        rw [ih.1] at hholds
        exact hholds.build build
    | text _ read => exact read_eq_ok read
    | file _ _ load => exact load_eq_ok load
    | commandLine _ _ run => exact serviceConfig_eq_ok run
  exact ⟨hsound.1, fun m hm => ⟨hsound.2.serial m hm, hsound.2.collectors m hm⟩⟩

/-- A serial that is set a second time, and a draft of the result with one more switch. -/
theorem monitor_obtained_replaced :
    let c : ServiceConfig :=
      { virtualMetrics := true, kibbles := false, collectors := true
        monitor? := some ⟨.hv, "HV-2"⟩, settings := [] }
    Obtained [⟨.hv, "HV-2"⟩] c ∧ c.monitor?.toList = [⟨.hv, "HV-2"⟩]
      ∧ ∀ m, c.monitor? = some m →
        (∃ ch ∈ m.serial.toList, isBlank ch = false) ∧ c.collectors = true := by
  intro c
  have chain : Obtained [⟨.hv, "HV-2"⟩] c :=
    .derived (.built [.hvSerial "HV-1", .hvSerial "HV-2"] rfl) [.virtualMetrics true] rfl
  exact ⟨chain, monitor_obtained chain⟩

end PowerBench.ServiceConfig
