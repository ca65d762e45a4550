import PowerBench.Proofs.LastWrites

set_option autoImplicit false

/-! # Configurations built again

The draft of a configuration holds its monitor in one of two slots, and a build puts the monitor
together again and checks it once more. Whatever way a configuration was obtained, the last step on it
was a build, so it is sound (`Obtained.sound`) and passes the check (`Sound.build_toDraft`). The flags
of the command line change nothing that is checked.
-/

namespace PowerBench.ServiceConfig

theorem Obtained.sound {sets : List Monitor} {c : ServiceConfig} (h : Obtained sets c) : Sound c := by
  cases h with
  | default => exact sound_default
  | built _ build => exact (Draft.build_eq_ok build).2
  | derived _ _ build => exact (Draft.build_eq_ok build).2
  | text _ read => exact (read_eq_ok read).2
  | file _ _ load => exact (load_eq_ok load).2
  | commandLine _ _ run => exact (serviceConfig_eq_ok run).2

section

variable {c : ServiceConfig}

/-- The slots of the draft give the monitor back. -/
theorem monitor?_toDraft (c : ServiceConfig) : c.toDraft.monitor? = .ok c.monitor? := by
  rcases hmonitor : c.monitor? with _ | ⟨_ | _, serial⟩ <;> simp [toDraft, Draft.monitor?, hmonitor]

theorem Sound.checkMonitor (h : Sound c) : Draft.checkMonitor c.collectors c.monitor? = .ok () := by
  cases hmonitor : c.monitor? with
  | none => rfl
  | some m =>
      rw [checkMonitor_serial (h.serial m hmonitor), h.collectors m hmonitor]
      rfl

/-- A sound configuration is built again from its draft. -/
theorem Sound.build_toDraft (h : Sound c) : c.toDraft.build = .ok c := by
  have hcheck : Draft.checkMonitor c.toDraft.collectors c.monitor? = .ok () := h.checkMonitor
  rw [Draft.build_of_monitor (monitor?_toDraft c), hcheck]
  rfl

/-! ## Flags of the command line -/

/-- A configuration with what the flags of the command line add. -/
def withFlags (a : Control.Arguments) (c : ServiceConfig) : ServiceConfig :=
  { c with virtualMetrics := c.virtualMetrics || a.vmFile, kibbles := c.kibbles || a.kibbles }

theorem Sound.withFlags (h : Sound c) (a : Control.Arguments) : Sound (c.withFlags a) :=
  ⟨h.serial, h.collectors⟩

/-- The configuration that the flags are added to: the one of the file that is named, or the default. -/
inductive StartsFrom (files : FileTree) (a : Control.Arguments) : ServiceConfig → Prop where
  | default (unnamed : a.config? = none) : StartsFrom files a .default
  | file {path : Path} {c : ServiceConfig} (named : a.config? = some path)
      (load : load path (files.content path) = .ok c) : StartsFrom files a c

theorem StartsFrom.sound {files : FileTree} {a : Control.Arguments} (h : StartsFrom files a c) :
    Sound c := by
  cases h with
  | default => exact sound_default
  | file _ load => exact (load_eq_ok load).2

/-- Adding the flags to the draft adds them to the configuration. -/
theorem setFlags_toDraft (a : Control.Arguments) (c : ServiceConfig) :
    (if a.kibbles then
        Draft.setKibbles true (if a.vmFile then Draft.setVirtualMetrics true c.toDraft else c.toDraft)
      else if a.vmFile then Draft.setVirtualMetrics true c.toDraft else c.toDraft)
      = (c.withFlags a).toDraft := by
  unfold withFlags
  cases a.vmFile <;> cases a.kibbles <;>
    simp [toDraft, Draft.setKibbles, Draft.setVirtualMetrics]

theorem withFlags_unset {a : Control.Arguments} (h : (!a.vmFile && !a.kibbles) = true) :
    c.withFlags a = c := by
  obtain ⟨hvm, hkibbles⟩ : a.vmFile = false ∧ a.kibbles = false := by simpa using h
  simp [withFlags, hvm, hkibbles]

/-- The flags are added, whether or not this takes another build. -/
theorem StartsFrom.serviceConfig_eq {files : FileTree} {a : Control.Arguments}
    (h : StartsFrom files a c) : Control.serviceConfig files a = .ok (c.withFlags a) := by
  have hbuild : (c.withFlags a).toDraft.build = .ok (c.withFlags a) :=
    (h.sound.withFlags a).build_toDraft
  have hflags : (if !a.vmFile && !a.kibbles then (.ok c : Except Control.Failure ServiceConfig)
      else ((c.withFlags a).toDraft.build).mapError fun e => .config (.badConfig e))
      = .ok (c.withFlags a) := by
    split
    · rename_i hunset
      rw [withFlags_unset hunset]
    · rw [hbuild]
      rfl
  rw [← setFlags_toDraft] at hflags
  unfold Control.serviceConfig
  cases h with
  | default unnamed =>
      rw [unnamed]
      exact hflags
  | file named load =>
      rw [named]
      dsimp only
      rw [load]
      exact hflags

end

/-- **Building a configuration again.** The draft of a configuration that was obtained builds just
this configuration. If it is the default or the one of a file that the options of the command line
name, then the configuration of the run is this one with the two switches on that the flags ask for:
no switch goes off, and the collectors, the monitor and the settings stay as they are. -/
theorem rebuilt {sets : List Monitor} {c : ServiceConfig} (obtained : Obtained sets c) :
    c.toDraft.build = .ok c
      ∧ ∀ files a, StartsFrom files a c →
        Control.serviceConfig files a
          = .ok { c with
              virtualMetrics := c.virtualMetrics || a.vmFile
              kibbles := c.kibbles || a.kibbles } :=
  ⟨obtained.sound.build_toDraft, fun _ _ starts => starts.serviceConfig_eq⟩

/-- A file with a monitor and settings, read by a run with one of the flags. -/
theorem rebuilt_withFlag :
    let path : Path := .ofText "bits.toml"
    let text := "kibbles = true\n[[monsoon]]\nkind = \"lv\"\nserial = \"LV-1\"\n[settings]\nrate = 5\n"
    let files : FileTree := { nodes := [([path.bytes], .file (Utf8.encode text))], here := [] }
    let a : Control.Arguments :=
      { binary := path, service := 1, config? := some path, vmFile := true, kibbles := false
        verbose := false, task := .listDevices }
    ∃ c, load path (files.content path) = .ok c ∧ c.monitor? = some ⟨.lv, "LV-1"⟩
      ∧ c.settings.length = 1 ∧ c.toDraft.build = .ok c
      ∧ Control.serviceConfig files a = .ok { c with virtualMetrics := true, kibbles := true } := by
  intro path text files a
  have hread : (load path (files.content path)).toOption.map
      (fun c => (c.virtualMetrics, c.kibbles, c.monitor?, c.settings.length))
        = some (false, true, some ⟨.lv, "LV-1"⟩, 1) := by decide +kernel
  cases hload : load path (files.content path) with
  | error cause =>
      rw [hload] at hread
      cases hread
  | ok c =>
      rw [hload] at hread
      obtain ⟨hvirtual, hkibbles, hmonitor, hsettings⟩ :
          c.virtualMetrics = false ∧ c.kibbles = true ∧ c.monitor? = some ⟨.lv, "LV-1"⟩
            ∧ c.settings.length = 1 := by
        simpa [Except.toOption] using hread
      obtain ⟨hbuild, hrun⟩ := rebuilt (.file path _ hload)
      have hconfig := hrun files a (.file rfl hload)
      rw [hvirtual, hkibbles] at hconfig
      exact ⟨c, rfl, hmonitor, hsettings, hbuild, hconfig⟩

end PowerBench.ServiceConfig
