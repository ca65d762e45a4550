import Mathlib.Data.List.Sort
import PowerBench.Client.Step
import PowerBench.Proofs.ByteOrder
import PowerBench.Proofs.Metrics

set_option autoImplicit false

/-! # Three views of the channels of a report

A report may hold several channels of one name. Its names are listed once each, in the order of their
bytes; a name is looked up to the first channel that has it; and a client lists the names of the report
that fetching metrics without bounds gives (`channels_listed`).
-/

namespace PowerBench

namespace Report

/-! ## Names in order -/

theorem mem_insertName {n name : String} {names : List String} :
    n ∈ insertName name names ↔ n = name ∨ n ∈ names := by
  induction names with
  | nil => simp [insertName]
  | cons m rest ih =>
      unfold insertName
      split
      · exact List.mem_cons
      · split
        · rename_i heq
          subst heq
          simp
        · rw [List.mem_cons, ih, List.mem_cons]
          tauto

/-- A name is put in its place among ascending names. -/
theorem pairwise_insertName {name : String} {names : List String} (h : names.Pairwise (· < ·)) :
    (insertName name names).Pairwise (· < ·) := by
  induction names with
  | nil => exact List.pairwise_singleton _ _
  | cons m rest ih =>
      obtain ⟨hm, hrest⟩ := List.pairwise_cons.mp h
      unfold insertName
      split
      · rename_i hlt
        refine List.pairwise_cons.mpr ⟨fun n hn => ?_, h⟩
        rcases List.mem_cons.mp hn with rfl | hn
        · exact hlt
        · exact String.lt_trans hlt (hm n hn)
      · split
        · exact h
        · rename_i hnot hne
          refine List.pairwise_cons.mpr ⟨fun n hn => ?_, ih hrest⟩
          rcases mem_insertName.mp hn with rfl | hn
          · by_contra hgt
            exact hne (String.le_antisymm (String.not_lt.mp hgt) (String.not_lt.mp hnot))
          · exact hm n hn

theorem pairwise_channelNames (r : Report) : r.channelNames.Pairwise (· < ·) := by
  unfold channelNames
  have hfold : ∀ (channels : List Channel) (names : List String), names.Pairwise (· < ·) →
      (channels.foldl (fun names c => insertName c.name names) names).Pairwise (· < ·) := by
    intro channels
    induction channels with
    | nil => exact fun _ h => h
    | cons c rest ih => exact fun names h => ih _ (pairwise_insertName h)
  exact hfold r.channels [] .nil

/-- A name is listed if it is that of a channel. -/
theorem mem_channelNames {r : Report} {name : String} :
    name ∈ r.channelNames ↔ ∃ c ∈ r.channels, c.name = name := by
  have hfold : ∀ (channels : List Channel) (names : List String),
      name ∈ channels.foldl (fun names c => insertName c.name names) names
        ↔ name ∈ names ∨ ∃ c ∈ channels, c.name = name := by
    intro channels
    induction channels with
    | nil => simp
    | cons c rest ih =>
        intro names
        rw [List.foldl_cons, ih, mem_insertName, List.exists_mem_cons_iff]
        constructor
        · rintro ((rfl | hn) | hrest)
          · exact .inr (.inl rfl)
          · exact .inl hn
          · exact .inr (.inr hrest)
        · rintro (hn | rfl | hrest)
          · exact .inl (.inr hn)
          · exact .inl (.inl rfl)
          · exact .inr hrest
  rw [channelNames, hfold]
  simp

/-- The names are the one ascending list of those that occur. -/
theorem eq_channelNames_iff {r : Report} {names : List String} :
    names = r.channelNames ↔ (names.map Utf8.encode).Pairwise (· < ·)
      ∧ ∀ name, name ∈ names ↔ ∃ c ∈ r.channels, c.name = name := by
  rw [Utf8.pairwise_encode_iff]
  constructor
  · rintro rfl
    exact ⟨pairwise_channelNames r, fun name => mem_channelNames⟩
  · rintro ⟨hascending, hnames⟩
    have hsame : ∀ name, name ∈ names ↔ name ∈ r.channelNames := by
      intro name
      rw [hnames, mem_channelNames]
    exact hascending.eq_of_mem_iff (pairwise_channelNames r) hsame

/-! ## The channel of a name -/

/-- A name is looked up to a channel if no channel before it has the name. -/
theorem channel?_eq_some_iff {r : Report} {name : String} {c : Channel} :
    r.channel? name = some c ↔ c.name = name
      ∧ ∃ before after, r.channels = before ++ c :: after ∧ ∀ d ∈ before, d.name ≠ name := by
  unfold channel?
  rw [List.find?_eq_some_iff_append]
  simp only [beq_iff_eq, Bool.not_eq_eq_eq_not, Bool.not_true, beq_eq_false_iff_ne]

/-- A name is looked up to some channel if it is listed. -/
theorem isSome_channel? {r : Report} {name : String} :
    (r.channel? name).isSome ↔ name ∈ r.channelNames := by
  rw [mem_channelNames, channel?, List.find?_isSome]
  simp only [beq_iff_eq]

end Report

namespace Client

open Operation Session

variable {σ : Type}

/-! ## Listing the channels -/

/-- Fetching without bounds makes its one call if there is a dump. -/
theorem calls_metrics (c : Client σ) (name : String) (s : Session σ) :
    (exec (c.metrics name none none) s).2.calls = s.calls ++ match s.makeScratch .dump with
      | .ok (dump, _) => [c.metricsCall name none none dump.path]
      | .error _ => [] := by
  cases hmade : s.makeScratch .dump with
  | error cause =>
      rw [c.exec_metrics name s rfl rfl, exec_withScratch, hmade]
      exact (List.append_nil _).symm
  | ok pair =>
      obtain ⟨dump, made⟩ := pair
      exact (c.metrics_called name rfl rfl hmade).1

/-- **The channels of a report.** The names listed are the ascending ones, by their bytes, of those that
occur; a name is looked up if it is listed, and then to the first channel that has it. A client that
lists channels ends as it does when it fetches the report without bounds, after the same call, but with
the names of the report. -/
theorem channels_listed :
    (∀ (r : Report) (names : List String),
        names = r.channelNames ↔ (names.map Utf8.encode).Pairwise (· < ·)
          ∧ ∀ name, name ∈ names ↔ ∃ c ∈ r.channels, c.name = name)
      ∧ (∀ (r : Report) (name : String),
        ((r.channel? name).isSome ↔ name ∈ r.channelNames)
          ∧ ∀ c, r.channel? name = some c ↔ c.name = name
            ∧ ∃ before after, r.channels = before ++ c :: after ∧ ∀ d ∈ before, d.name ≠ name)
      ∧ ∀ (c : Client σ) (name : String) (s : Session σ),
        (c.perform (.channels name) s).2 = (c.perform (.metrics name none none) s).2
          ∧ (c.perform (.channels name) s).2.calls
            = s.calls ++ (match s.makeScratch .dump with
              | .ok (dump, _) => [c.metricsCall name none none dump.path]
              | .error _ => [])
          ∧ (∀ given, (c.perform (.channels name) s).1 = .ok given
            ↔ ∃ r, (c.perform (.metrics name none none) s).1 = .ok (.report r)
              ∧ given = .names r.channelNames)
          ∧ ∀ e, (c.perform (.channels name) s).1 = .error e
            ↔ (c.perform (.metrics name none none) s).1 = .error e := by
  refine ⟨fun r names => Report.eq_channelNames_iff, fun r name =>
    ⟨Report.isSome_channel?, fun c => Report.channel?_eq_some_iff⟩, fun c name s => ?_⟩
  have hlisted : c.perform (.channels name) s
      = ((exec (c.metrics name none none) s).1.map fun r => .names r.channelNames,
        (exec (c.metrics name none none) s).2) := by
    show exec (Given.names <$> c.channels name) s = _
    rw [exec_map, exec_channels]
    cases (exec (c.metrics name none none) s).1 <;> rfl
  have hfetched : c.perform (.metrics name none none) s
      = ((exec (c.metrics name none none) s).1.map .report,
        (exec (c.metrics name none none) s).2) := exec_map _ _ s
  rw [hlisted, hfetched]
  refine ⟨rfl, c.calls_metrics name s, ?_, ?_⟩
  · intro given
    cases (exec (c.metrics name none none) s).1 with
    | error e => simp [Except.map]
    | ok r =>
        simp only [Except.map, Except.ok.injEq, Given.report.injEq]
        exact ⟨fun h => ⟨r, rfl, h.symm⟩, fun ⟨_, hr, h⟩ => by rw [h, hr]⟩
  · intro e
    cases (exec (c.metrics name none none) s).1 <;> simp [Except.map]

end Client

end PowerBench
