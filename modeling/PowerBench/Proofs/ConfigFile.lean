import PowerBench.Proofs.Rebuild

set_option autoImplicit false

/-! # What configuration files declare

The entries of a file are read one after the other, each into its part (`Reads`), so that every key of
a file that is read is a documented one (`not_undocumented`). Its monitors go into the two slots of a
draft: one monitor at most leaves the draft that a builder has after the same steps (`steps_single`),
and several are refused, by a slot that is taken or by the build (`build_several`).
-/

namespace PowerBench.ServiceConfig

open Toml (Value)

/-! ## Keys -/

def monitorKeys : List String := ["kind", "serial"]

/-- A monitor that is read has no other keys than the documented ones. -/
theorem mem_monitorKeys {kind? : Option MonitorKind} {serial? : Option String}
    {entries : List (String × Value)} {m : Monitor}
    (h : readMonitorEntries kind? serial? entries = .ok m) : ∀ e ∈ entries, e.1 ∈ monitorKeys := by
  induction entries generalizing kind? serial? with
  | nil => simp
  | cons e rest ih =>
      obtain ⟨key, v⟩ := e
      rw [readMonitorEntries] at h
      rw [List.forall_mem_cons]
      split at h
      · rename_i hkey
        obtain ⟨kind, -, h⟩ := bind_eq_ok.mp h
        exact ⟨by simp [hkey, monitorKeys], ih h⟩
      · split at h
        · rename_i hkey
          obtain ⟨serial, -, h⟩ := bind_eq_ok.mp h
          exact ⟨by simp [hkey, monitorKeys], ih h⟩
        · cases h

/-- An entry of a file is read into its part. -/
inductive Reads (f : FileContent) : String → Value → FileContent → Prop where
  | virtualMetrics {v : Value} {on : Bool} (read : readSwitch v = .ok on) :
      Reads f "virtual_metrics_file" v { f with virtualMetrics := on }
  | kibbles {v : Value} {on : Bool} (read : readSwitch v = .ok on) :
      Reads f "kibbles" v { f with kibbles := on }
  | collectors {v : Value} {on : Bool} (read : readSwitch v = .ok on) :
      Reads f "collectors_enabled" v { f with collectors := on }
  | monitors {v : Value} {monitors : List Monitor} (read : readMonitors v = .ok monitors) :
      Reads f "monsoon" v { f with monitors := monitors }
  | settings {v : Value} {settings : Entries Json} (read : readSettings v = .ok settings) :
      Reads f "settings" v { f with settings := settings }

/-- **One entry.** -/
theorem ofEntries_cons {f f' : FileContent} {key : String} {v : Value}
    {rest : List (String × Value)} (h : FileContent.ofEntries f ((key, v) :: rest) = .ok f') :
    ∃ next, Reads f key v next ∧ FileContent.ofEntries next rest = .ok f' := by
  rw [FileContent.ofEntries] at h
  split at h
  · rename_i hkey
    obtain ⟨on, hread, h⟩ := bind_eq_ok.mp h
    exact ⟨_, hkey ▸ .virtualMetrics hread, h⟩
  split at h
  · rename_i hkey
    obtain ⟨on, hread, h⟩ := bind_eq_ok.mp h
    exact ⟨_, hkey ▸ .kibbles hread, h⟩
  split at h
  · rename_i hkey
    obtain ⟨on, hread, h⟩ := bind_eq_ok.mp h
    exact ⟨_, hkey ▸ .collectors hread, h⟩
  split at h
  · rename_i hkey
    obtain ⟨monitors, hread, h⟩ := bind_eq_ok.mp h
    exact ⟨_, hkey ▸ .monitors hread, h⟩
  split at h
  · rename_i hkey
    obtain ⟨settings, hread, h⟩ := bind_eq_ok.mp h
    exact ⟨_, hkey ▸ .settings hread, h⟩
  · cases h

/-- **All entries.** What holds of the content before and is kept by each entry holds at the end. -/
theorem ofEntries_keeps {P : FileContent → Prop} {f f' : FileContent}
    {entries : List (String × Value)}
    (kept : ∀ e ∈ entries, ∀ g g', Reads g e.1 e.2 g' → P g → P g') (start : P f)
    (h : FileContent.ofEntries f entries = .ok f') : P f' := by
  -- The content that is read so far changes from entry to entry.
  induction entries generalizing f with
  | nil =>
      obtain rfl := Except.ok.inj h
      exact start
  | cons e rest ih =>
      obtain ⟨next, hreads, h⟩ := ofEntries_cons h
      obtain ⟨hhead, hrest⟩ := List.forall_mem_cons.mp kept
      exact ih hrest (hhead _ _ hreads start) h

/-- Each entry of a file that is read has been read. -/
theorem reads_of_mem {f f' : FileContent} {entries : List (String × Value)}
    (h : FileContent.ofEntries f entries = .ok f') :
    ∀ e ∈ entries, ∃ g g', Reads g e.1 e.2 g' := by
  induction entries generalizing f with
  | nil => simp
  | cons e rest ih =>
      obtain ⟨next, hreads, h⟩ := ofEntries_cons h
      exact List.forall_mem_cons.mpr ⟨⟨_, _, hreads⟩, ih h⟩

/-- A document with a key that is not documented, at its top or in a monitor. -/
inductive Undocumented (entries : List (String × Value)) : Prop where
  | key {key : String} {v : Value} (mem : (key, v) ∈ entries) (unknown : key ∉ FileContent.keys)
  | monitorKey {items : List Value} {t : List (String × Value)} {key : String} {v : Value}
      (monitors : ("monsoon", .array items) ∈ entries) (item : .table t ∈ items)
      (mem : (key, v) ∈ t) (unknown : key ∉ monitorKeys)

theorem Reads.mem_keys {f f' : FileContent} {key : String} {v : Value} (h : Reads f key v f') :
    key ∈ FileContent.keys := by
  cases h <;> simp [FileContent.keys]

theorem Reads.monitors_eq {f f' : FileContent} {v : Value} (h : Reads f "monsoon" v f') :
    ∃ monitors, readMonitors v = .ok monitors := by
  generalize hkey : "monsoon" = key at h
  cases h with
  | monitors read => exact ⟨_, read⟩
  | _ => simp at hkey

/-- A document that is read has documented keys only. -/
theorem not_undocumented {f f' : FileContent} {entries : List (String × Value)}
    (h : FileContent.ofEntries f entries = .ok f') : ¬ Undocumented entries := by
  have hreads := reads_of_mem h
  rintro (⟨mem, unknown⟩ | ⟨monitors, item, mem, unknown⟩)
  · obtain ⟨g, g', hread⟩ := hreads _ mem
    exact unknown hread.mem_keys
  · obtain ⟨g, g', hread⟩ := hreads _ monitors
    obtain ⟨ms, hmonitors⟩ := hread.monitors_eq
    obtain ⟨m, hm⟩ := forall_of_mapM hmonitors _ item
    exact unknown (mem_monitorKeys hm _ mem)

/-! ## Settings -/

/-- A table of a document has its entries in key order. -/
def TablesAscend (entries : List (String × Value)) : Prop :=
  ∀ key t, (key, Value.table t) ∈ entries → Entries.Ascending t

theorem mem_finishEntries {items : Toml.Items} {key : String} {v : Value}
    (h : (key, v) ∈ Toml.finishEntries items) : ∃ i : Toml.Item, i.finish = v := by
  induction items with
  | nil => cases h
  | cons e rest ih =>
      obtain ⟨k, i⟩ := e
      rw [Toml.finishEntries] at h
      rcases List.mem_cons.mp h with heq | hmem
      · exact ⟨i, (Prod.ext_iff.mp heq).2.symm⟩
      · exact ih hmem

theorem ascending_of_finish {i : Toml.Item} {t : List (String × Value)}
    (h : i.finish = .table t) : Entries.Ascending t := by
  cases i with
  | table origin entries =>
      rw [Toml.Item.finish] at h
      obtain rfl := Value.table.inj h
      exact (Entries.mem_ofList _).1
  | _ => rw [Toml.Item.finish] at h; cases h

/-- So it is in every document. -/
theorem tablesAscend_read {text : String} {entries : Entries Value}
    (h : Toml.read? text = some entries) : TablesAscend entries := by
  intro key t hmem
  obtain ⟨d, -, rfl⟩ := Option.map_eq_some_iff.mp h
  have hlast := ((Entries.mem_ofList _).2 key (Value.table t)).mp hmem
  have hpair := mem_under.mp (List.mem_of_getLast? hlast)
  obtain ⟨i, hi⟩ := mem_finishEntries hpair
  exact ascending_of_finish hi

/-- Settings keep the keys of their table. -/
theorem keys_readSettingEntries {t : List (String × Value)} {settings : Entries Json}
    (h : readSettingEntries t = .ok settings) : settings.map Prod.fst = t.map Prod.fst := by
  induction t generalizing settings with
  | nil =>
      rw [readSettingEntries] at h
      obtain rfl := Except.ok.inj h
      rfl
  | cons e rest ih =>
      obtain ⟨k, v⟩ := e
      rw [readSettingEntries] at h
      obtain ⟨j, -, h⟩ := bind_eq_ok.mp h
      obtain ⟨js, hjs, h⟩ := bind_eq_ok.mp h
      obtain rfl := Except.ok.inj h
      rw [List.map_cons, List.map_cons, ih hjs]

theorem ascending_readSettings {v : Value} {settings : Entries Json}
    (ascends : ∀ t, v = .table t → Entries.Ascending t) (h : readSettings v = .ok settings) :
    settings.Ascending := by
  unfold readSettings at h
  split at h
  · rename_i t
    rw [Entries.ascending_iff_keys, keys_readSettingEntries h, ← Entries.ascending_iff_keys]
    exact ascends t rfl
  · obtain rfl := Except.ok.inj h
    exact List.pairwise_singleton _ _
  · obtain ⟨found, -, h⟩ := bind_eq_ok.mp h
    cases h

theorem Reads.ascending {f f' : FileContent} {key : String} {v : Value} (h : Reads f key v f')
    (ascends : ∀ t, v = .table t → Entries.Ascending t) (before : f.settings.Ascending) :
    f'.settings.Ascending := by
  cases h with
  | settings read => exact ascending_readSettings ascends read
  | _ => exact before

/-- The settings of a file stand in key order. -/
theorem ascending_settings {text : String} {f : FileContent} (h : FileContent.read text = .ok f) :
    f.settings.Ascending := by
  unfold FileContent.read at h
  cases hentries : Toml.read? text with
  | none =>
      rw [hentries] at h
      cases h
  | some entries =>
      rw [hentries] at h
      have hascends := tablesAscend_read hentries
      have hnone : (FileContent.settings {}).Ascending := .nil
      refine ofEntries_keeps (P := fun f => f.settings.Ascending) ?_ hnone h
      rintro ⟨key, v⟩ hmem g g' hreads hbefore
      exact hreads.ascending (fun t ht => hascends key t (ht ▸ hmem)) hbefore

/-! ## Monitors -/

/-- The step that sets a monitor. -/
def Setter.ofMonitor : Monitor → Setter
  | ⟨.hv, serial⟩ => .hvSerial serial
  | ⟨.lv, serial⟩ => .lvSerial serial

namespace FileContent

/-- The steps of a builder that is given what a file says. -/
def steps (f : FileContent) : List Setter :=
  [.virtualMetrics f.virtualMetrics, .kibbles f.kibbles, .collectors f.collectors]
    ++ f.monitors.map Setter.ofMonitor ++ f.settings.map fun e => .setting e.1 e.2

/-- The monitors that a service can have: none, or one with a serial if the collectors are enabled. -/
def Acceptable (f : FileContent) : Prop :=
  f.monitors = [] ∨ ∃ m, f.monitors = [m] ∧ HasSerial m ∧ f.collectors = true

/-- Why several monitors are refused: the second or the third is of a kind that has one already, or
there are just two of different kinds. -/
def severalFault (m m' : Monitor) (rest : List Monitor) : ConfigFault :=
  if m.kind = m'.kind then .repeatedKind m'.kind
  else
    match rest with
    | [] => .bothMonitors
    | m'' :: _ => .repeatedKind m''.kind

end FileContent

/-- Settings that are set one after the other. -/
theorem setting_steps (settings : Entries Json) (d : Draft) :
    (settings.map fun e => Setter.setting e.1 e.2).foldl Setter.apply d
      = { d with settings := settings.foldl (fun es e => es.insert e.1 e.2) d.settings } := by
  induction settings generalizing d with
  | nil => rfl
  | cons e rest ih =>
      rw [List.map_cons, List.foldl_cons, ih]
      rfl

/-- In key order they are all the settings of a draft that had none. -/
theorem setting_steps_new {settings : Entries Json} (ascending : settings.Ascending) {d : Draft}
    (new : d.settings = []) :
    (settings.map fun e => Setter.setting e.1 e.2).foldl Setter.apply d
      = { d with settings := settings } := by
  have hall : settings.foldl (fun (es : Entries Json) e => es.insert e.1 e.2) [] = settings :=
    Entries.ofList_of_ascending ascending
  rw [setting_steps, new, hall]

section

variable {f : FileContent}

/-- The configuration that a file with one monitor at most describes. -/
def FileContent.described (f : FileContent) (m? : Option Monitor) : ServiceConfig :=
  { virtualMetrics := f.virtualMetrics, kibbles := f.kibbles, collectors := f.collectors
    monitor? := m?, settings := f.settings }

/-- A single monitor finds its slot free. -/
theorem toDraft_single {m? : Option Monitor} (h : f.monitors = m?.toList) :
    f.toDraft = .ok (f.described m?).toDraft := by
  rw [FileContent.toDraft, h]
  rcases m? with _ | ⟨_ | _, serial⟩ <;> rfl

/-- A builder that is given what the file says has the same draft. -/
theorem steps_single {m? : Option Monitor} (h : f.monitors = m?.toList)
    (ascending : f.settings.Ascending) :
    f.steps.foldl Setter.apply {} = (f.described m?).toDraft := by
  have hbare : (f.monitors.map Setter.ofMonitor).foldl Setter.apply
      { virtualMetrics := f.virtualMetrics, kibbles := f.kibbles, collectors := f.collectors }
        = { (f.described m?).toDraft with settings := [] } := by
    rw [h]
    rcases m? with _ | ⟨_ | _, serial⟩ <;> rfl
  rw [FileContent.steps, List.foldl_append, List.foldl_append]
  refine (setting_steps_new ascending ?_).trans ?_
  · exact congrArg Draft.settings hbare
  · exact congrArg (fun d : Draft => { d with settings := f.settings }) hbare

/-- What is built from a file with one monitor at most. -/
theorem build_single {m? : Option Monitor} (h : f.monitors = m?.toList) :
    (f.toDraft >>= Draft.build)
      = (Draft.checkMonitor f.collectors m?).map fun _ => f.described m? := by
  rw [toDraft_single h]
  exact Draft.build_of_monitor (monitor?_toDraft (f.described m?))

/-- **Several monitors are refused,** whatever their kinds, serials and order. -/
theorem build_several {m m' : Monitor} {rest : List Monitor} (h : f.monitors = m :: m' :: rest) :
    (f.toDraft >>= Draft.build) = .error (FileContent.severalFault m m' rest) := by
  rw [FileContent.toDraft, h]
  -- A second or third monitor of a kind finds its slot taken; two of different kinds fill both slots,
  -- and if there is no third the build refuses them.
  obtain ⟨_ | _, serial⟩ := m
  · obtain ⟨_ | _, serial'⟩ := m'
    · rfl
    · rcases rest with _ | ⟨⟨_ | _, serial''⟩, rest⟩ <;> rfl
  · obtain ⟨_ | _, serial'⟩ := m'
    · rcases rest with _ | ⟨⟨_ | _, serial''⟩, rest⟩ <;> rfl
    · rfl

end

/-! ## Texts -/

/-- The configuration of a text; whatever is wrong with the text is an error of the configuration. -/
def ofText (text : String) : Except ClientError ServiceConfig := (read text).mapError .badConfig

theorem length_le_one_cases (ms : List Monitor) :
    (∃ m? : Option Monitor, ms = m?.toList) ∨ ∃ m m' rest, ms = m :: m' :: rest := by
  match ms with
  | [] => exact .inl ⟨none, rfl⟩
  | [m] => exact .inl ⟨some m, rfl⟩
  | m :: m' :: rest => exact .inr ⟨m, m', rest, rfl⟩

section

variable {text : String} {f : FileContent}

theorem read_of_content (h : FileContent.read text = .ok f) :
    read text = f.toDraft >>= Draft.build := by
  rw [read, h]
  rfl

/-- The text of a file with one monitor at most gives what a builder gives. -/
theorem ofText_single {m? : Option Monitor} (h : FileContent.read text = .ok f)
    (single : f.monitors = m?.toList) : ofText text = (builtAfter f.steps).mapError .badConfig := by
  rw [ofText, read_of_content h, builtAfter, steps_single single (ascending_settings h),
    toDraft_single single]
  rfl

theorem ofText_several {m m' : Monitor} {rest : List Monitor} (h : FileContent.read text = .ok f)
    (several : f.monitors = m :: m' :: rest) :
    ofText text = .error (.badConfig (FileContent.severalFault m m' rest)) := by
  rw [ofText, read_of_content h, build_several several]
  rfl

/-- A text gives a configuration for just the monitors that a service can have. -/
theorem ofText_succeeds_iff (h : FileContent.read text = .ok f) :
    (∃ c, ofText text = .ok c) ↔ f.Acceptable := by
  rcases length_le_one_cases f.monitors with ⟨m?, single⟩ | ⟨m, m', rest, several⟩
  · have hbuild : ofText text = ((Draft.checkMonitor f.collectors m?).map fun _ =>
        f.described m?).mapError .badConfig := by
      rw [ofText, read_of_content h, build_single single]
    rw [hbuild, FileContent.Acceptable, single]
    cases m? with
    | none => simp [Draft.checkMonitor, Except.map, Except.mapError]
    | some m =>
        by_cases serial : HasSerial m
        · rw [checkMonitor_serial serial]
          cases f.collectors <;> simp [Except.map, Except.mapError, serial]
        · rw [checkMonitor_blank serial]
          simp [Except.map, Except.mapError, serial]
  · rw [ofText_several h several, FileContent.Acceptable, several]
    simp

end

/-- **The configuration of a text.** A document with a key that is not documented is refused, whatever
else it says. A text that can be read gives a configuration exactly if it declares no monitor, or one
with a serial and the collectors are enabled. With one monitor at most it gives what a builder gives
that is told the same switches, the monitor and the settings, and the configuration has all the
monitors declared. Several monitors are always refused. -/
theorem text_configured (text : String) :
    (∀ entries, Toml.read? text = some entries → Undocumented entries →
        ∃ fault, ofText text = .error (.badConfig fault))
      ∧ ∀ f, FileContent.read text = .ok f →
        ((∃ c, ofText text = .ok c) ↔ f.Acceptable)
          ∧ (f.monitors.length ≤ 1 → ofText text = (builtAfter f.steps).mapError .badConfig)
          ∧ (∀ c, ofText text = .ok c → c.monitor?.toList = f.monitors)
          ∧ ∀ m m' rest, f.monitors = m :: m' :: rest →
            ofText text = .error (.badConfig (FileContent.severalFault m m' rest)) := by
  refine ⟨?_, fun f h => ⟨ofText_succeeds_iff h, ?_, ?_, fun _ _ _ => ofText_several h⟩⟩
  · intro entries hentries hundocumented
    cases hcontent : FileContent.read text with
    | error fault =>
        refine ⟨fault, ?_⟩
        rw [ofText, read, hcontent]
        rfl
    | ok f =>
        rw [FileContent.read, hentries] at hcontent
        exact absurd hundocumented (not_undocumented hcontent)
  · intro hlength
    rcases length_le_one_cases f.monitors with ⟨m?, single⟩ | ⟨m, m', rest, several⟩
    · exact ofText_single h single
    · rw [several] at hlength
      simp at hlength
  · intro c hc
    obtain ⟨hmonitor, -⟩ := read_eq_ok (mapError_eq_ok.mp hc)
    rw [hmonitor, declared, h]

end PowerBench.ServiceConfig
