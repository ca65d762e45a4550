import Mathlib.Data.List.Forall2
import PowerBench.Proofs.Transcript

set_option autoImplicit false

/-! # Markers are added in the order of time

All times are read before the first call, so one bad time anywhere means that nothing is called
(`firstBad_or_dated`). The calls then follow the markers in the order of `sortMarkers`, which is
ascending and stable (`stablyOrdered_sortMarkers`), up to the first call that fails
(`addEach_follows`).
-/

namespace PowerBench.Client

open Operation

variable {σ : Type}

/-! ## Reading the times -/

/-- `d` is the marker `m` with its time in nanoseconds. -/
def Dates (m : Timestamp × String) (d : Marker) : Prop :=
  m.1.normalize = .ok d.time ∧ d.text = m.2

theorem Dates.unique {m : Timestamp × String} {d d' : Marker} (h : Dates m d) (h' : Dates m d') :
    d = d' := by
  obtain ⟨htime, htext⟩ := h
  obtain ⟨htime', htext'⟩ := h'
  have : d.time = d'.time := Except.ok.inj (htime.symm.trans htime')
  rw [Marker.mk.injEq]
  exact ⟨this, htext.trans htext'.symm⟩

/-- `m` is the first of the markers without a time in nanoseconds, for the reason `bad`. -/
def FirstBad (markers : List (Timestamp × String)) (m : Timestamp × String) (bad : BadTimestamp) :
    Prop :=
  ∃ before after, markers = before ++ m :: after
    ∧ (∀ m' ∈ before, ∃ n, m'.1.normalize = .ok n) ∧ m.1.normalize = .error bad

theorem firstBad_or_dated (markers : List (Timestamp × String)) :
    (∃ m bad, FirstBad markers m bad
        ∧ markers.mapM Marker.ofTimestamp = .error (.badTimestamp bad))
      ∨ ∃ dated, List.Forall₂ Dates markers dated
        ∧ markers.mapM Marker.ofTimestamp = .ok dated := by
  induction markers with
  | nil => exact .inr ⟨[], .nil, rfl⟩
  | cons m rest ih =>
      rw [List.mapM_cons]
      cases hm : m.1.normalize with
      | error bad =>
          refine .inl ⟨m, bad, ⟨[], rest, rfl, by simp, hm⟩, ?_⟩
          simp [Marker.ofTimestamp, hm, bind, Except.bind]
      | ok n =>
          have hfirst : Marker.ofTimestamp m = .ok ⟨n, m.2⟩ := by simp [Marker.ofTimestamp, hm]
          rcases ih with ⟨m', bad, ⟨before, after, rfl, good, hbad⟩, hmap⟩ | ⟨dated, hdated, hmap⟩
          · refine .inl ⟨m', bad, ⟨m :: before, after, rfl, ?_, hbad⟩, ?_⟩
            · intro m'' hm''
              rcases List.mem_cons.mp hm'' with rfl | hm''
              · exact ⟨n, hm⟩
              · exact good m'' hm''
            · simp [hfirst, hmap, bind, Except.bind]
          · refine .inr ⟨⟨n, m.2⟩ :: dated, .cons ⟨hm, rfl⟩ hdated, ?_⟩
            simp [hfirst, hmap, bind, Except.bind, pure, Except.pure]

/-! ## The order of the calls -/

/-- `ordered` holds the markers in ascending order of time, and those of one time in the order they
came in. -/
structure StablyOrdered (markers ordered : List Marker) : Prop where
  ascending : ordered.Pairwise fun a b => a.time ≤ b.time
  perm : ordered.Perm markers
  stable : ∀ t, ordered.filter (fun m => m.time = t) = markers.filter fun m => m.time = t

theorem stablyOrdered_sortMarkers (markers : List Marker) :
    StablyOrdered markers (sortMarkers markers) := by
  have trans : ∀ a b c : Marker, decide (a.time ≤ b.time) → decide (b.time ≤ c.time) →
      decide (a.time ≤ c.time) := by
    intro a b c hab hbc
    simp only [decide_eq_true_eq] at *
    omega
  have total : ∀ a b : Marker, (decide (a.time ≤ b.time) || decide (b.time ≤ a.time)) := by
    intro a b
    simp only [Bool.or_eq_true, decide_eq_true_eq]
    omega
  have hperm : (sortMarkers markers).Perm markers := List.mergeSort_perm _ _
  refine ⟨?_, hperm, fun t => ?_⟩
  · exact (List.pairwise_mergeSort trans total markers).imp (by simp)
  · -- The markers of one time are sorted as they stand, so sorting keeps them as a sublist.
    have hsorted : (markers.filter fun m => m.time = t).Pairwise
        fun a b => decide (a.time ≤ b.time) := by
      refine List.pairwise_of_forall_mem_list fun a ha b hb => ?_
      simp only [List.mem_filter, decide_eq_true_eq] at *
      omega
    have hsub : (markers.filter fun m => m.time = t).Sublist (sortMarkers markers) :=
      List.sublist_mergeSort trans total hsorted List.filter_sublist
    have hfilter := hsub.filter fun m => decide (m.time = t)
    rw [List.filter_filter] at hfilter
    simp only [Bool.and_self] at hfilter
    exact (hfilter.eq_of_length (hperm.filter _).length_eq.symm).symm

/-- Two ascending lists with the same markers of each time, in the same order, are equal. -/
theorem eq_of_filter_eq {l l' : List Marker} (h : l.Pairwise fun a b => a.time ≤ b.time)
    (h' : l'.Pairwise fun a b => a.time ≤ b.time)
    (same : ∀ t, l.filter (fun m => m.time = t) = l'.filter fun m => m.time = t) : l = l' := by
  induction l generalizing l' with
  | nil =>
      cases l' with
      | nil => rfl
      | cons b r' => simpa using same b.time
  | cons a r ih =>
      cases l' with
      | nil => simpa using same a.time
      | cons b r' =>
          rw [List.pairwise_cons] at h h'
          have ha : a ∈ (b :: r').filter fun m => m.time = a.time := by
            rw [← same]
            simp
          have hb : b ∈ (a :: r).filter fun m => m.time = b.time := by
            rw [same]
            simp
          have hab : a.time = b.time := by
            have hba : b.time ≤ a.time := by
              rcases List.mem_cons.mp (List.mem_filter.mp ha).1 with rfl | hmem
              · exact Int.le_refl _
              · exact h'.1 a hmem
            have hab : a.time ≤ b.time := by
              rcases List.mem_cons.mp (List.mem_filter.mp hb).1 with rfl | hmem
              · exact Int.le_refl _
              · exact h.1 b hmem
            omega
          have hhead : a = b := by
            have := same a.time
            simp only [List.filter_cons, hab, decide_true, if_true] at this
            exact (List.cons.inj this).1
          subst hhead
          congr 1
          refine ih h.2 h'.2 fun t => ?_
          have := same t
          by_cases ht : a.time = t
          · simpa [List.filter_cons, ht] using this
          · simpa [List.filter_cons, ht] using this

/-- There is only one such order. -/
theorem StablyOrdered.unique {markers ordered ordered' : List Marker}
    (h : StablyOrdered markers ordered) (h' : StablyOrdered markers ordered') :
    ordered = ordered' :=
  eq_of_filter_eq h.ascending h'.ascending fun t => (h.stable t).trans (h'.stable t).symm

/-! ## Calls -/

def markerCall (c : Client σ) (name : String) (m : Marker) : Call where
  program := c.binary
  args :=
    ["--port", toString c.service, "--name", name, "--log_ts", toString m.time, "--log", m.text]
  limit := c.limits.command

theorem addEach_follows (c : Client σ) (name : String) (markers : List Marker) (s : Session σ) :
    ∃ xs, Follows c.instrument (c.addEach name markers) s (markers.map (c.markerCall name)) xs
      ∧ (∀ x ∈ xs, x.seen = s.files)
      ∧ ∀ e, (exec (c.addEach name markers) s).1 = .error e →
          ∃ x ∈ xs, x.reply.result = .error e := by
  induction markers generalizing s with
  | nil => exact ⟨[], follows_nil rfl rfl, by simp, fun e he => by cases he⟩
  | cons m rest ih =>
      let op : Operation σ Unit :=
        discard (c.runWith none ((Request.marker name m.time m.text).tokens c.config)
          c.limits.command)
      have hstep : c.addEach name (m :: rest) = op >>= fun _ => c.addEach name rest := rfl
      have hfirst : Follows c.instrument op s [c.markerCall name m]
          [⟨s.files, c.markerCall name m, s.answer c.instrument (c.markerCall name m)⟩] :=
        (follows_runWith c none _ _ s).map fun _ => ()
      have hexec : exec op s
          = ((s.answer c.instrument (c.markerCall name m)).result.map fun _ => (),
          (s.asked c.instrument none (c.markerCall name m)).noted
            (c.exitNotes (s.answer c.instrument (c.markerCall name m)).result)) :=
        c.exec_discard_runWith none _ _ s
      rw [hstep, List.map_cons]
      cases hr : (s.answer c.instrument (c.markerCall name m)).result with
      | error e =>
          -- The calls of the rest are planned and not made.
          rw [hr] at hexec
          refine ⟨_, hfirst.bind_error hexec (.inr ⟨_, List.mem_singleton_self _, hr⟩), by simp, ?_⟩
          intro e' he'
          rw [exec_bind, hexec] at he'
          exact ⟨_, List.mem_singleton_self _, hr.trans (by cases he'; rfl)⟩
      | ok f =>
          rw [hr] at hexec
          obtain ⟨ys, hys, hseen, hfails⟩ := ih (exec op s).2
          rw [hexec] at hys hseen hfails
          refine ⟨_, hfirst.bind_ok hexec hys, ?_, ?_⟩
          · intro x hx
            rcases List.mem_append.mp hx with hx | hx
            · rw [List.mem_singleton.mp hx]
            · exact hseen x hx
          · intro e' he'
            rw [exec_bind, hexec] at he'
            obtain ⟨x, hx, hxr⟩ := hfails e' he'
            exact ⟨x, List.mem_append_right _ hx, hxr⟩

/-- With a marker that has no time in nanoseconds nothing happens. -/
theorem exec_addMarkers_bad (c : Client σ) (name : String) {markers : List (Timestamp × String)}
    {bad : BadTimestamp} (hmap : markers.mapM Marker.ofTimestamp = .error (.badTimestamp bad))
    (s : Session σ) : exec (c.addMarkers name markers) s = (.error (.badTimestamp bad), s) := by
  rw [addMarkers, exec_bind, exec_give, hmap]

/-- With the times in nanoseconds the calls are made, and the number of markers is noted before. -/
theorem exec_addMarkers_dated (c : Client σ) (name : String)
    {markers : List (Timestamp × String)} {dated : List Marker}
    (hmap : markers.mapM Marker.ofTimestamp = .ok dated) (s : Session σ) :
    exec (c.addMarkers name markers) s = exec (c.addEach name (sortMarkers dated))
      (s.noted [entry .debug "adding markers"
        [("collection", .text name), ("count", .number dated.length)]]) := by
  rw [addMarkers, exec_bind, exec_give, hmap]
  dsimp only
  rw [exec_bind, exec_record]

/-- **Adding markers.** Either some marker has no time in nanoseconds; then the first such decides
the error, and the session is as it was. Or the calls made are those of the markers in ascending
and stable order of time, up to the first that fails; its error is the result, and there is no
error without a failed call. -/
theorem addMarkers_in_order (c : Client σ) (name : String) (markers : List (Timestamp × String))
    (s : Session σ) :
    (∃ m bad, FirstBad markers m bad
        ∧ exec (c.addMarkers name markers) s = (.error (.badTimestamp bad), s))
      ∨ ∃ dated ordered xs, List.Forall₂ Dates markers dated ∧ StablyOrdered dated ordered
        ∧ Transcript c.instrument s.state xs (exec (c.addMarkers name markers) s).2.state
        ∧ (∀ x ∈ xs, x.seen = s.files)
        ∧ (exec (c.addMarkers name markers) s).2.calls = s.calls ++ xs.map Exchange.call
        ∧ xs.map Exchange.call <+: ordered.map (c.markerCall name)
        ∧ ((exec (c.addMarkers name markers) s).1 = .ok () ↔
            xs.map Exchange.call = ordered.map (c.markerCall name) ∧ ∀ x ∈ xs, x.Succeeded)
        ∧ ∀ e, (exec (c.addMarkers name markers) s).1 = .error e ↔
            ∃ earlier x, xs = earlier ++ [x] ∧ (∀ y ∈ earlier, y.Succeeded)
              ∧ x.reply.result = .error e := by
  rcases firstBad_or_dated markers with ⟨m, bad, hbad, hmap⟩ | ⟨dated, hdated, hmap⟩
  · refine .inl ⟨m, bad, hbad, ?_⟩
    simp only [addMarkers, exec_bind, exec_give, hmap]
  · let noted := s.noted [entry .debug "adding markers"
      [("collection", .text name), ("count", .number dated.length)]]
    have hexec : exec (c.addMarkers name markers) s
        = exec (c.addEach name (sortMarkers dated)) noted := by
      simp only [addMarkers, exec_bind, exec_give, hmap, exec_record]
      rfl
    obtain ⟨xs, h, hseen, hfails⟩ := c.addEach_follows name (sortMarkers dated) noted
    have hok := h.ok_iff hfails
    rw [hexec]
    refine .inr ⟨dated, sortMarkers dated, xs, hdated, stablyOrdered_sortMarkers dated, h.replies,
      hseen, h.recorded, h.planned, ?_, fun e => h.error_iff (hfails e)⟩
    rw [← hok]
    exact ⟨fun h => ⟨(), h⟩, fun ⟨_, h⟩ => h⟩

end PowerBench.Client
