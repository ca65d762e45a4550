import PowerBench.Log.Directive
import PowerBench.Proofs.Markers
import PowerBench.Proofs.Printing
import PowerBench.Proofs.Tasks
import PowerBench.Proofs.TimestampText

set_option autoImplicit false

/-! # Markers given on the command line

A marker is a time, an equals sign and a text; the first equals sign divides them
(`readMarker_eq_ok`). All markers are read before the log is set up, and all times counted in
nanoseconds before the first call, so a run that calls the instrument at all has nothing left to
refuse (`markers_added`).
-/

namespace PowerBench

namespace CommandLine

/-! ## Reading a marker -/

theorem readTime_eq_ok {s : String} {t : Timestamp} :
    readTime s = .ok t ↔ Timestamp.read s = .ok t := mapError_eq_ok

/-- What follows the characters before a mark begins with the mark. -/
theorem eq_of_drop_takeWhile {α : Type} [BEq α] [LawfulBEq α] {mark x : α} {xs rest : List α}
    (h : xs.drop (xs.takeWhile (· != mark)).length = x :: rest) :
    xs = xs.takeWhile (· != mark) ++ mark :: rest := by
  induction xs with
  | nil => cases h
  | cons y ys ih =>
      by_cases hy : y = mark
      · rw [List.takeWhile_cons_of_neg (by simp [hy])] at h ⊢
        obtain ⟨-, rfl⟩ := List.cons.inj h
        rw [hy, List.nil_append]
      · rw [List.takeWhile_cons_of_pos (by simp [hy])] at h ⊢
        rw [List.cons_append, ← ih h]

theorem readMarker_eq_ok {s : String} {m : Timestamp × String} :
    readMarker s = .ok m ↔ ∃ time, '=' ∉ time ∧ s.toList = time ++ '=' :: m.2.toList
      ∧ Timestamp.read (String.ofList time) = .ok m.1 := by
  unfold readMarker
  dsimp only
  constructor
  · intro h
    split at h
    · cases h
    · rename_i c text hdrop
      obtain ⟨t, ht, h⟩ := bind_eq_ok.mp h
      obtain rfl := Except.ok.inj h
      refine ⟨s.toList.takeWhile (· != '='), ?_, ?_, ?_⟩
      · intro hmem
        simpa using List.mem_takeWhile_imp hmem
      · rw [String.toList_ofList]
        exact eq_of_drop_takeWhile hdrop
      · exact Timestamp.read_trimBlanks.mp (readTime_eq_ok.mp ht)
  · rintro ⟨time, hmark, hs, hread⟩
    have htake : s.toList.takeWhile (· != '=') = time := by
      rw [hs]
      exact takeWhile_ne_append hmark _
    rw [htake, hs, List.drop_left]
    dsimp only
    rw [readTime_eq_ok.mpr (Timestamp.read_trimBlanks.mpr hread)]
    show Except.ok (m.1, String.ofList m.2.toList) = _
    rw [String.ofList_toList]

/-- The bytes are a time that is accepted, an equals sign and a text; the first equals sign divides
them, and the text is what stands behind it. -/
def ReadsMarker (raw : Bytes) (m : Timestamp × String) : Prop :=
  ∃ time, '=' ∉ time ∧ Utf8.decode? raw = some (String.ofList (time ++ '=' :: m.2.toList))
    ∧ Timestamp.read (String.ofList time) = .ok m.1

theorem readsMarker_iff {raw : Bytes} {m : Timestamp × String} :
    ReadsMarker raw m ↔ ∃ s, Utf8.decode? raw = some s ∧ readMarker s = .ok m := by
  constructor
  · rintro ⟨time, hmark, hraw, hread⟩
    exact ⟨_, hraw, readMarker_eq_ok.mpr ⟨time, hmark, String.toList_ofList, hread⟩⟩
  · rintro ⟨s, hraw, hs⟩
    obtain ⟨time, hmark, hs, hread⟩ := readMarker_eq_ok.mp hs
    exact ⟨time, hmark, by rw [← hs, String.ofList_toList]; exact hraw, hread⟩

/-- The bytes of a marker say all about it. -/
theorem ReadsMarker.unique {raw : Bytes} {m m' : Timestamp × String} (h : ReadsMarker raw m)
    (h' : ReadsMarker raw m') : m = m' := by
  obtain ⟨s, hs, hm⟩ := readsMarker_iff.mp h
  obtain ⟨s', hs', hm'⟩ := readsMarker_iff.mp h'
  obtain rfl : s = s' := Option.some.inj (hs.symm.trans hs')
  exact Except.ok.inj (hm.symm.trans hm')

/-- A value of the kind is a marker, or there is a fault. -/
theorem readValue_marker (label : String) (raw : Bytes) :
    (∃ m, ReadsMarker raw m ∧ Level.readValue label .marker raw = .ok (.marker m.1 m.2))
      ∨ (¬ ∃ m, ReadsMarker raw m) ∧ ∃ f, Level.readValue label .marker raw = .error (.fault f) := by
  cases hraw : Utf8.decode? raw with
  | none =>
      refine .inr ⟨?_, .ofValue label .marker .notText, ?_⟩
      · rintro ⟨m, hm⟩
        obtain ⟨s, hs, -⟩ := readsMarker_iff.mp hm
        rw [hraw] at hs
        cases hs
      · unfold Level.readValue ValueKind.read
        rw [hraw]
        rfl
  | some s =>
      have hvalue : Level.readValue label .marker raw
          = (((fun m => Value.marker m.1 m.2) <$> readMarker s).mapError (.refused s)).mapError
            fun e => .fault (.ofValue label .marker e) := by
        unfold Level.readValue ValueKind.read
        rw [hraw]
        rfl
      cases hs : readMarker s with
      | ok m =>
          refine .inl ⟨m, readsMarker_iff.mpr ⟨s, hraw, hs⟩, ?_⟩
          rw [hvalue, hs]
          rfl
      | error reason =>
          refine .inr ⟨?_, .ofValue label .marker (.refused s reason), ?_⟩
          · rintro ⟨m, hm⟩
            obtain ⟨s', hraw', hs'⟩ := readsMarker_iff.mp hm
            obtain rfl : s = s' := Option.some.inj (hraw.symm.trans hraw')
            rw [hs] at hs'
            cases hs'
          · rw [hvalue, hs]
            rfl

/-- All values of the kind are markers, or there is a fault and one of them is none. -/
theorem mapM_readValue_marker (label : String) (raws : List Bytes) :
    (∃ ms, List.Forall₂ ReadsMarker raws ms
        ∧ raws.mapM (Level.readValue label .marker) = .ok (ms.map fun m => .marker m.1 m.2))
      ∨ (∃ raw ∈ raws, ¬ ∃ m, ReadsMarker raw m)
        ∧ ∃ f, raws.mapM (Level.readValue label .marker) = .error (.fault f) := by
  cases h : raws.mapM (Level.readValue label .marker) with
  | error e =>
      obtain ⟨raw, hmem, hraw⟩ := exists_of_mapM_error h
      rcases readValue_marker label raw with ⟨m, -, hok⟩ | ⟨hnone, f, hf⟩
      · rw [hraw] at hok
        cases hok
      · obtain rfl := Except.error.inj (hraw.symm.trans hf)
        exact .inr ⟨⟨raw, hmem, hnone⟩, f, rfl⟩
  | ok vs =>
      refine .inl ?_
      have hall := mapM_eq_ok h
      clear h
      induction hall with
      | nil => exact ⟨[], .nil, rfl⟩
      | @cons raw v raws vs hv _ ih =>
          obtain ⟨ms, hms, hvs⟩ := ih
          rcases readValue_marker label raw with ⟨m, hm, hok⟩ | ⟨-, f, hf⟩
          · obtain rfl := Except.ok.inj (hv.symm.trans hok)
            exact ⟨m :: ms, .cons hm hms, by rw [Except.ok.inj hvs, List.map_cons]⟩
          · rw [hv] at hf
            cases hf

end CommandLine

namespace Control

open CommandLine Operation

/-! ## The command line -/

/-- The arguments that add markers to a collection, some before its name and some behind it. -/
def markersArguments (name : String) (before after : List Bytes) : List Bytes :=
  before.map (joined marker.long) ++ Utf8.encode name :: after.map (joined marker.long)

def markersCommand : Command :=
  command "markers" "Add timestamped markers to a collection" [marker] [name]

theorem command?_markers : grammar.command? (Utf8.encode "markers") = some markersCommand := by
  decide

theorem offers_marker : Offers markersCommand marker := ⟨rfl, by decide, by decide⟩

/-- Wherever the name stands, the markers are read in order. -/
theorem readAll_markers {name : String} (undashed : Undashed (Utf8.encode name))
    (before after : List Bytes) :
    (Level.start.readAll grammar markersCommand (markersArguments name before after)).map Level.given
      = ((before ++ after).mapM (Level.readValue marker.label .marker)).map fun values =>
          ⟨[], values.map fun v => (marker.long, v), [.text name]⟩ := by
  rw [markersArguments, Level.readAll_joined_append offers_marker rfl Level.idle_start,
    List.mapM_append]
  have hkind : marker.kind = .marker := rfl
  rw [hkind]
  cases before.mapM (Level.readValue marker.label .marker) with
  | error e => rfl
  | ok values =>
      let l : Level := { Level.start with given := Level.start.given.withValues marker values }
      let named : Level :=
        { l with pending? := some (.operand Control.name (Utf8.encode name)), next := 1 }
      -- The name stays pending until the next marker or the end.
      have hname : l.readArgument grammar markersCommand false (Utf8.encode name) = .ok named :=
        Level.readArgument_operand undashed rfl
      have hresolve : named.resolve = .ok { named with
          given := ⟨[], (l.given.settings), [.text name]⟩, pending? := none } := by
        show (Level.readValue _ .text (Utf8.encode name) >>= _) = _
        rw [Level.readValue, ValueKind.read_encode]
        rfl
      show (l.readAll grammar markersCommand (Utf8.encode name :: _)).map Level.given = _
      rw [Level.readAll, hname]
      show (named.readAll grammar markersCommand _).map Level.given = _
      rw [Level.readAll_joined offers_marker rfl rfl hresolve, hkind]
      cases after.mapM (Level.readValue marker.label .marker) with
      | error e => rfl
      | ok more =>
          show Except.ok (Given.withValues _ marker more) = Except.ok _
          simp [Given.withValues, l, Level.start]

/-- What the arguments give when all markers are read. -/
def markersGiven (name : String) (markers : List (Timestamp × String)) : Given :=
  { flags := [], settings := markers.map fun m => (marker.long, .marker m.1 m.2)
    operands := [.text name] }

theorem task?_markers (name : String) (markers : List (Timestamp × String)) :
    task? markersCommand.name (markersGiven name markers) = some (.markers name markers) := by
  have hvalues : ((markersGiven name markers).values "marker").filterMap marker? = markers := by
    have hall : ∀ e ∈ (markersGiven name markers).settings, (e.1 == "marker") = true := by
      intro e he
      obtain ⟨m, -, rfl⟩ := List.mem_map.mp he
      rfl
    rw [Given.values, List.filter_eq_self.mpr hall, markersGiven, List.map_map, List.filterMap_map]
    exact List.filterMap_some
  have htask : task? markersCommand.name (markersGiven name markers)
      = some (.markers name (((markersGiven name markers).values "marker").filterMap marker?)) :=
    rfl
  rw [htask, hvalues]

section

variable {filters : Log.FilterLanguage} {env : Environment} {front : List Bytes} {program : Given}

/-- Either some value is no marker, which is a fault, or the line is in order. -/
theorem parse_markers (opens : Opens env grammar front program) {name : String}
    (undashed : Undashed (Utf8.encode name)) {before after : List Bytes}
    (nonempty : before ++ after ≠ []) :
    (∃ ms, List.Forall₂ ReadsMarker (before ++ after) ms
        ∧ parse env grammar (front ++ Utf8.encode "markers" :: markersArguments name before after)
          = .ok ⟨program, markersCommand, markersGiven name ms⟩)
      ∨ (∃ raw ∈ before ++ after, ¬ ∃ m, ReadsMarker raw m)
        ∧ ∃ f, parse env grammar
            (front ++ Utf8.encode "markers" :: markersArguments name before after)
          = .error (.fault f) := by
  rw [parse_command opens command?_markers (by decide), readAll_markers undashed]
  rcases mapM_readValue_marker marker.label (before ++ after) with ⟨ms, hms, hok⟩ | ⟨hnone, f, hf⟩
  · refine .inl ⟨ms, hms, ?_⟩
    have hgiven : ((before ++ after).mapM (Level.readValue marker.label .marker)).map
        (fun values => ⟨[], values.map fun v => (marker.long, v), [.text name]⟩)
          = .ok (markersGiven name ms) := by
      rw [hok, Except.map, List.map_map]
      rfl
    have hcomplete : wantComplete markersCommand (markersGiven name ms) = .ok () := by
      cases ms with
      | nil => exact absurd (List.forall₂_nil_right_iff.mp hms) nonempty
      | cons m ms => rfl
    rw [hgiven]
    show (wantComplete markersCommand _ >>= _) = _
    rw [hcomplete]
    rfl
  · refine .inr ⟨hnone, f, ?_⟩
    rw [hf]
    rfl

/-! ## The calls -/

/-- The call of a marker, in a run that reaches the instrument as its own arguments say. -/
def markerCallOf (env : Environment) (program : Given) (service : Nat) (name : String)
    (m : Client.Marker) : Call where
  program := ((program.value? "binary").bind path?).getD (.ofText "bits_client")
  args := ["--port", toString service, "--name", name, "--log_ts", toString m.time, "--log", m.text]
  limit := (Timeouts.ofEnvironment env).1.command

/-- The run makes the calls of `plan` up to the first that fails, and all of them where it is ready
and none fails. Then its exit code is 0 and it prints `report`; else it has another exit code and
prints nothing. -/
structure Carries {σ : Type} (i : Instrument σ) (state : σ) (ready : Prop) (plan : List Call)
    (report : String) (o : Outcome (List Call × σ)) (xs : List Exchange) : Prop where
  replies : Transcript i state xs o.state.2
  calls : o.state.1 = xs.map Exchange.call
  planned : xs.map Exchange.call <+: plan
  stops : ∀ earlier x later e, xs = earlier ++ x :: later → x.reply.result = .error e → later = []
  complete : ready → (∀ x ∈ xs, x.Succeeded) → xs.map Exchange.call = plan
  returned : xs.map Exchange.call = plan → (∀ x ∈ xs, x.Succeeded) →
    o.exitCode = 0 ∧ o.stdout = report
  failed : ¬ (xs.map Exchange.call = plan ∧ ∀ x ∈ xs, x.Succeeded) →
    o.exitCode ≠ 0 ∧ o.stdout = ""

variable {σ : Type} {i : Instrument σ} {state : σ} {files : FileTree}

/-- A run that comes to nothing carries out a plan that it has not begun. -/
theorem Fruitless.carries {o : Outcome (List Call × σ)} {ready : Prop} {plan : List Call}
    (h : Fruitless ([], state) o) (notReady : ¬ ready) (nonempty : plan ≠ []) (report : String) :
    Carries i state ready plan report o [] where
  replies := by
    rw [h.state]
    exact .nil _
  calls := by rw [h.state]; rfl
  planned := List.nil_prefix
  stops := by
    intro earlier x later e hxs
    simp at hxs
  complete := fun hready => absurd hready notReady
  returned := fun hplan => absurd hplan.symm nonempty
  failed := fun _ => ⟨h.exit, h.stdout⟩

/-- A run whose task follows a plan, and fails by its calls alone, carries it out. -/
theorem Carries.of_follows {o : Outcome (List Call × σ)} {ready : Prop} {plan : List Call}
    {report : String} {α : Type} {op : Operation (List Call × σ) α} {s : Session (List Call × σ)}
    {xs : List Exchange} (h : Follows i.recording op s plan xs)
    (fails : ∀ e, (exec op s).1 = .error e → ∃ x ∈ xs, x.reply.result = .error e)
    (fresh : s.state = ([], state)) (left : o.state = (exec op s).2.state)
    (good : ∀ a, (exec op s).1 = .ok a → o.exitCode = 0 ∧ o.stdout = report)
    (bad : ∀ e, (exec op s).1 = .error e → o.exitCode ≠ 0 ∧ o.stdout = "") :
    Carries i state ready plan report o xs := by
  -- The recorded calls are those of the exchanges, and the replies are the instrument's own.
  obtain ⟨hcalls, hreplies⟩ := h.replies.of_recording
  rw [fresh, ← left] at hcalls hreplies
  refine ⟨hreplies, by rw [hcalls, List.nil_append], h.planned, ?_, fun _ => h.complete, ?_, ?_⟩
  · intro earlier x later e hxs hr
    exact (h.stops earlier x later e hxs hr).1
  · intro hplan all
    obtain ⟨a, ha⟩ := (h.ok_iff fails).mpr ⟨hplan, all⟩
    exact good a ha
  · intro hnot
    cases hr : (exec op s).1 with
    | ok a => exact absurd ((h.ok_iff fails).mp ⟨a, hr⟩) hnot
    | error e => exact bad e hr

/-- What is asked of the instrument when all markers are read. -/
def markersTask (program : Given) (service : Nat) (name : String)
    (markers : List (Timestamp × String)) : Arguments :=
  reaching program service false (.markers name markers)

/-- A time that is none in nanoseconds ends the run without a call. -/
theorem runArguments_undated {program : Given} {service : Nat} {name : String}
    {ms : List (Timestamp × String)} {bad : BadTimestamp}
    (hmap : ms.mapM Client.Marker.ofTimestamp = .error (.badTimestamp bad)) (i : Instrument σ)
    (state : σ) (files : FileTree) :
    Fruitless ([], state) (runArguments filters env i.recording ([], state) files
      (markersTask program service name ms)) := by
  let a := markersTask program service name ms
  rcases ready_or_fruitless i.recording ([], state) a with ⟨config, files', ready⟩ | hnot
  · obtain ⟨fresh, alike, -, hrun⟩ := runArguments_ready ready i.recording ([], state)
    have hexec := execTask_markers (client env i.recording a config) name ms fresh
    rw [Client.exec_addMarkers_bad _ name hmap] at hexec
    obtain ⟨hleft, hprinted, -, hfails⟩ := hrun _ _ hexec
    have hexit := hfails _ rfl
    exact ⟨by rw [hexit]; exact Nat.one_ne_zero, hprinted.trans alike.printed.symm,
      hleft.trans alike.state⟩
  · exact hnot

/-- With all times in nanoseconds a run that is ready carries out the calls in the order of time. -/
theorem runArguments_dated {program : Given} {service : Nat} {name : String}
    {ms : List (Timestamp × String)} {dated : List Client.Marker}
    (hmap : ms.mapM Client.Marker.ofTimestamp = .ok dated) {config : ServiceConfig}
    {files' : FileTree}
    (ready : Ready filters env files (markersTask program service name ms) config files')
    (i : Instrument σ) (state : σ) (begun : Prop) :
    ∃ xs, Carries i state begun
      ((Client.sortMarkers dated).map (markerCallOf env program service name))
      ("added " ++ toString ms.length ++ " marker(s) to " ++ name ++ "\n")
      (runArguments filters env i.recording ([], state) files
        (markersTask program service name ms)) xs := by
  obtain ⟨fresh, alike, -, hrun⟩ := runArguments_ready ready i.recording ([], state)
  let c := client env i.recording (markersTask program service name ms) config
  let noted := fresh.noted [Client.entry .debug "adding markers"
    [("collection", .text name), ("count", .number dated.length)]]
  obtain ⟨xs, hfollows, -, hfails⟩ := c.addEach_follows name (Client.sortMarkers dated) noted
  have hquiet : (exec (c.addEach name (Client.sortMarkers dated)) noted).2.printed = "" :=
    (c.mute_addEach name _ noted).trans alike.printed.symm
  have hexec := execTask_markers c name ms fresh
  rw [Client.exec_addMarkers_dated c name hmap fresh] at hexec
  rcases hstep : exec (c.addEach name (Client.sortMarkers dated)) noted with ⟨e | done, s⟩
  · rw [hstep] at hexec hquiet
    obtain ⟨hleft, hprinted, -, hbad⟩ := hrun _ _ hexec
    have hexit := hbad _ rfl
    refine ⟨xs, .of_follows hfollows hfails alike.state ?_ ?_ ?_⟩
    · rw [hleft, hstep]
    · intro done hdone
      rw [hstep] at hdone
      cases hdone
    · exact fun _ _ => ⟨by rw [hexit]; exact Nat.one_ne_zero, hprinted.trans hquiet⟩
  · rw [hstep] at hexec hquiet
    obtain ⟨hleft, hprinted, hgood, -⟩ := hrun _ _ hexec
    refine ⟨xs, .of_follows hfollows hfails alike.state ?_ ?_ ?_⟩
    · rw [hleft, hstep]
      rfl
    · refine fun _ _ => ⟨hgood rfl, hprinted.trans ?_⟩
      show s.printed ++ _ = _
      rw [hquiet, String.empty_append]
    · intro e he
      rw [hstep] at he
      cases he

/-- A run with markers that are read: a time that is none in nanoseconds ends it, and else it carries
out the calls of the markers in the order of time. -/
theorem runArguments_markers {program : Given} {service : Nat} {name : String}
    {ms : List (Timestamp × String)} (nonempty : ms ≠ []) (i : Instrument σ) (state : σ)
    (files : FileTree) {o : Outcome (List Call × σ)}
    (ho : o = runArguments filters env i.recording ([], state) files
      (markersTask program service name ms)) :
    (∃ m ∈ ms, ¬ ∃ n, m.1.normalize = .ok n) ∧ Fruitless ([], state) o
      ∨ ∃ dated ordered xs, List.Forall₂ Client.Dates ms dated
        ∧ Client.StablyOrdered dated ordered
        ∧ Carries i state
            (∃ config files',
              Ready filters env files (markersTask program service name ms) config files')
            (ordered.map (markerCallOf env program service name))
            ("added " ++ toString ms.length ++ " marker(s) to " ++ name ++ "\n") o xs := by
  subst ho
  rcases Client.firstBad_or_dated ms with
    ⟨m, bad, ⟨before, after, hsplit, -, hbad⟩, hmap⟩ | ⟨dated, hdated, hmap⟩
  · refine .inl ⟨⟨m, by simp [hsplit], ?_⟩, runArguments_undated hmap i state files⟩
    rintro ⟨n, hn⟩
    rw [hbad] at hn
    cases hn
  · have hordered : Client.StablyOrdered dated (Client.sortMarkers dated) :=
      Client.stablyOrdered_sortMarkers dated
    refine .inr ⟨dated, Client.sortMarkers dated, ?_⟩
    by_cases hready :
        ∃ config files', Ready filters env files (markersTask program service name ms) config files'
    · obtain ⟨config, files', ready⟩ := hready
      obtain ⟨xs, hxs⟩ := runArguments_dated hmap ready i state _
      exact ⟨xs, hdated, hordered, hxs⟩
    · have hnot := (ready_or_fruitless i.recording ([], state)
        (markersTask program service name ms)).resolve_left hready
      -- Nothing has been called, which is not the whole plan: there is a marker.
      refine ⟨[], hdated, hordered, hnot.carries hready ?_ _⟩
      intro hnil
      have hlength : (Client.sortMarkers dated).length = ms.length :=
        hordered.perm.length_eq.trans hdated.length_eq.symm
      rw [List.map_eq_nil_iff.mp hnil] at hlength
      exact nonempty (List.length_eq_zero_iff.mp hlength.symm)

/-- **Adding markers from the command line.** A value that is no marker, or else a time that is none
in nanoseconds, ends the run with a failure and without a call. Otherwise the calls are those of the
markers in ascending and stable order of time, up to the first that fails, each with its text as it
was given; and the number of markers is printed with exit code 0 exactly when all calls have been
made and none has failed. -/
theorem markers_added (opens : Opens env grammar front program) {service : Nat}
    (hservice : program.value? "port" = some (.number service)) {name : String}
    (undashed : Undashed (Utf8.encode name)) {before after : List Bytes}
    (nonempty : before ++ after ≠ []) (i : Instrument σ) (state : σ) (files : FileTree) :
    let o := run filters env (front ++ Utf8.encode "markers" :: markersArguments name before after)
      i.recording ([], state) files
    (∃ raw ∈ before ++ after, ¬ ∃ m, ReadsMarker raw m) ∧ Fruitless ([], state) o
      ∨ ∃ ms, List.Forall₂ ReadsMarker (before ++ after) ms
        ∧ ((∃ m ∈ ms, ¬ ∃ n, m.1.normalize = .ok n) ∧ Fruitless ([], state) o
          ∨ ∃ dated ordered xs, List.Forall₂ Client.Dates ms dated
            ∧ Client.StablyOrdered dated ordered
            ∧ Carries i state
                (∃ config files',
                  Ready filters env files (markersTask program service name ms) config files')
                (ordered.map (markerCallOf env program service name))
                ("added " ++ toString (before ++ after).length ++ " marker(s) to " ++ name ++ "\n")
                o xs) := by
  intro o
  rcases parse_markers opens undashed nonempty with ⟨ms, hms, hparse⟩ | ⟨hnone, f, hparse⟩
  · have hlength : (before ++ after).length = ms.length := hms.length_eq
    have hms' : ms ≠ [] := by
      rintro rfl
      exact nonempty (List.forall₂_nil_right_iff.mp hms)
    have hrun := run_parsed filters i.recording ([], state) files hparse
      (arguments?_eq hservice (task?_markers name ms))
    rw [hlength]
    exact .inr ⟨ms, hms, runArguments_markers hms' i state files hrun⟩
  · exact .inl ⟨hnone, (run_fault filters i.recording ([], state) files hparse).2.2⟩

def quiet : Instrument Unit := fun _ _ _ =>
  ({ result := .ok ⟨"", some 0⟩, file := .keep, log := [] }, ())

/-- Two markers, the later one first; the text of the other holds an equals sign. -/
theorem markers_added_two :
    ∃ xs, Carries quiet ()
      (∃ config files', Ready Log.Directives.language [] ⟨[], []⟩
        (markersTask (portGiven [] 7) 7 "run" [(.nanos 5, "late"), (.nanos 3, "a = b")]) config files')
      ([⟨3, "a = b"⟩, ⟨5, "late"⟩].map (markerCallOf [] (portGiven [] 7) 7 "run"))
      "added 2 marker(s) to run\n"
      (run Log.Directives.language [] (["--port", "7"].map Utf8.encode ++ Utf8.encode "markers" ::
          markersArguments "run" [Utf8.encode "5=late"] [Utf8.encode " 3 =a = b"])
        quiet.recording ([], ()) ⟨[], []⟩) xs := by
  have hlate : ReadsMarker (Utf8.encode "5=late") (.nanos 5, "late") :=
    ⟨['5'], by decide, Utf8.decode?_encode _, by decide⟩
  have hspaced : ReadsMarker (Utf8.encode " 3 =a = b") (.nanos 3, "a = b") :=
    ⟨[' ', '3', ' '], by decide, Utf8.decode?_encode _, by decide⟩
  have hopens : Opens [] grammar (["--port", "7"].map Utf8.encode) (portGiven [] 7) :=
    opens_port (by decide) (by decide) (by decide)
  have hname : Undashed (Utf8.encode "run") := undashed_encode (by decide)
  have hnonempty : [Utf8.encode "5=late"] ++ [Utf8.encode " 3 =a = b"] ≠ [] := by simp
  rcases markers_added hopens rfl hname hnonempty quiet () ⟨[], []⟩ with
    ⟨⟨raw, hmem, hnone⟩, -⟩ | ⟨ms, hms, h⟩
  · simp only [List.cons_append, List.nil_append, List.mem_cons, List.not_mem_nil, or_false] at hmem
    rcases hmem with rfl | rfl
    · exact absurd ⟨_, hlate⟩ hnone
    · exact absurd ⟨_, hspaced⟩ hnone
  · rcases hms with _ | ⟨h1, _ | ⟨h2, _ | _⟩⟩
    obtain rfl := hlate.unique h1
    obtain rfl := hspaced.unique h2
    rcases h with ⟨⟨m, hmem, hnone⟩, -⟩ | ⟨dated, ordered, xs, hdated, hordered, hxs⟩
    · simp only [List.mem_cons, List.not_mem_nil, or_false] at hmem
      rcases hmem with rfl | rfl
      · exact absurd ⟨5, rfl⟩ hnone
      · exact absurd ⟨3, rfl⟩ hnone
    · rcases hdated with _ | ⟨h1, _ | ⟨h2, _ | _⟩⟩
      have hfive : Client.Dates (.nanos 5, "late") ⟨5, "late"⟩ := ⟨rfl, rfl⟩
      have hthree : Client.Dates (.nanos 3, "a = b") ⟨3, "a = b"⟩ := ⟨rfl, rfl⟩
      obtain rfl := hfive.unique h1
      obtain rfl := hthree.unique h2
      have hsorted : ordered = [⟨3, "a = b"⟩, ⟨5, "late"⟩] :=
        (hordered.unique (Client.stablyOrdered_sortMarkers _)).trans
          (by simp [Client.sortMarkers, List.mergeSort])
      rw [hsorted] at hxs
      exact ⟨xs, hxs⟩

end

end Control

end PowerBench
