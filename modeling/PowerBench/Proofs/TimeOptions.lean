import PowerBench.Proofs.MarkerOptions
import PowerBench.Proofs.Metrics

set_option autoImplicit false

/-! # Times given on the command line

A time stands behind `--start`, `--end` or, with an equals sign and a text, `--marker`. Any text that
is a time can stand there in the same argument; in an argument of its own it is taken as a value
unless it begins with a dash, as the times before 1970 do (`time_options`).
-/

namespace PowerBench.Control

open CommandLine Operation

/-! ## One setting behind a name -/

/-- The name of a collection is read and not yet looked at. -/
def nameRead (name : String) : Level :=
  { Level.start with pending? := some (.operand Control.name (Utf8.encode name)), next := 1 }

theorem resolve_nameRead (name : String) :
    (nameRead name).resolve
      = .ok { Level.start with given := ⟨[], [], [.text name]⟩, next := 1 } := by
  show (Level.readValue _ .text (Utf8.encode name) >>= _) = _
  rw [Level.readValue, ValueKind.read_encode]
  rfl

theorem readAll_name {c : Command} (hc : c.operands = [Control.name]) {name : String}
    (undashed : Undashed (Utf8.encode name)) (rest : List Bytes) :
    Level.start.readAll grammar c (Utf8.encode name :: rest)
      = (nameRead name).readAll grammar c rest := by
  rw [Level.readAll, Level.readArgument_operand undashed rfl, Level.readOperand, hc]
  rfl

theorem addSetting_first {s : Setting} {value : Bytes} {v : Value}
    (hvalue : Level.readValue s.label s.kind value = .ok v) (operands : List Value) :
    Level.addSetting s (some value) ⟨[], [], operands⟩ = .ok ⟨[], [(s.long, v)], operands⟩ := by
  unfold Level.addSetting
  dsimp only
  rw [if_neg (by simp [Given.value?]), hvalue]
  rfl

section

variable {env : Environment} {front : List Bytes} {program : Given} {word : Bytes} {c : Command}
  {s : Setting} {name : String} {value : Bytes}

/-- A value that is read, in the argument of its setting or, without a dash, in its own. -/
theorem parse_setting (opens : Opens env grammar front program)
    (found : grammar.command? word = some c) (own : c.name ≠ helpCommand.name)
    (hc : c.operands = [Control.name]) (offers : Offers c s)
    (undashed : Undashed (Utf8.encode name)) {v : Value}
    (hvalue : Level.readValue s.label s.kind value = .ok v)
    (complete : wantComplete c ⟨[], [(s.long, v)], [.text name]⟩ = .ok ()) {rest : List Bytes}
    (hrest : rest = [joined s.long value] ∨ rest = [bare s.long, value] ∧ Undashed value) :
    parse env grammar (front ++ word :: Utf8.encode name :: rest)
      = .ok ⟨program, c, ⟨[], [(s.long, v)], [.text name]⟩⟩ := by
  have hread : ((nameRead name).readAll grammar c rest).map Level.given
      = .ok ⟨[], [(s.long, v)], [.text name]⟩ := by
    rcases hrest with rfl | ⟨rfl, hundashed⟩
    · rw [Level.readAll_joined_last offers value rfl (resolve_nameRead name)]
      exact addSetting_first hvalue _
    · rw [Level.readAll_bare_last offers hundashed rfl (resolve_nameRead name)]
      exact addSetting_first hvalue _
  rw [parse_command opens found own, readAll_name hc undashed, hread]
  show (wantComplete c _ >>= _) = _
  rw [complete]
  rfl

/-- A value in its own argument that begins with a dash is taken for letters. -/
theorem parse_letter (opens : Opens env grammar front program)
    (found : grammar.command? word = some c) (own : c.name ≠ helpCommand.name)
    (hc : c.operands = [Control.name]) (offers : Offers c s)
    (undashed : Undashed (Utf8.encode name)) {letter : Char} (hletter : letter ≠ '-')
    (unknown : c.withShort? letter = none) (rest : List Char) :
    parse env grammar (front ++ word :: Utf8.encode name ::
        [bare s.long, Utf8.encode (String.ofList ('-' :: letter :: rest))])
      = .error (.fault (.unknownArgument (String.ofList ['-', letter]))) := by
  rw [parse_command opens found own, readAll_name hc undashed,
    Level.readAll_bare_letter offers rfl (resolve_nameRead name) hletter unknown]
  rfl

end

/-! ## Times -/

def metricsCommand : Command :=
  command "metrics" "Print aggregate metrics" [startBound, endBound, format] [Control.name]

theorem command?_metrics : grammar.command? (Utf8.encode "metrics") = some metricsCommand := by
  decide

theorem offers_startBound : Offers metricsCommand startBound := ⟨rfl, by decide, by decide⟩

theorem offers_endBound : Offers metricsCommand endBound := ⟨rfl, by decide, by decide⟩

theorem readValue_time {s : String} {t : Timestamp} (h : Timestamp.read s = .ok t) (label : String) :
    Level.readValue label .time (Utf8.encode s) = .ok (.time t) := by
  rw [Level.readValue, ValueKind.read_encode]
  show Except.mapError _ (Except.mapError _ (Value.time <$> readTime s)) = _
  rw [readTime_eq_ok.mpr h]
  rfl

/-- A time that is accepted, an equals sign and a text are a marker. -/
theorem readsMarker_time {s : String} {t : Timestamp} (h : Timestamp.read s = .ok t)
    (text : String) : ReadsMarker (Utf8.encode (s ++ "=" ++ text)) (t, text) := by
  refine ⟨s.toList, Timestamp.notMem_of_read h, ?_, ?_⟩
  · have hlist : (s ++ "=" ++ text).toList = s.toList ++ '=' :: text.toList := by
      simp [String.toList_append]
    rw [Utf8.decode?_encode, ← hlist, String.ofList_toList]
  · rw [String.ofList_toList]
    exact h

/-- No letter of a command is a digit or a point. -/
theorem withShort?_eq_none {settings : List Setting} {operands : List Operand} {word about : String}
    {c : Char} (hc : isDecimalDigit c = true ∨ c = '.') :
    (command word about settings operands).withShort? c = none := by
  have hv : c ≠ 'v' := by
    rintro rfl
    rcases hc with hc | hc <;> exact absurd hc (by decide)
  have hh : c ≠ 'h' := by
    rintro rfl
    rcases hc with hc | hc <;> exact absurd hc (by decide)
  refine List.find?_eq_none.mpr fun choice hchoice => ?_
  rw [beq_iff_eq]
  rcases List.mem_append.mp hchoice with hsetting | hflag
  · obtain ⟨s, -, rfl⟩ := List.mem_map.mp hsetting
    exact nofun
  · rcases List.mem_cons.mp hflag with rfl | hflag
    · exact fun h => hv (Option.some.inj h).symm
    · obtain rfl := List.mem_singleton.mp hflag
      exact fun h => hh (Option.some.inj h).symm

/-- The texts of times that begin with a dash go on with a digit or a point. -/
theorem signed_of_dashed {s : String} {t : Timestamp} (h : Timestamp.read s = .ok t)
    (dashed : Dashed s) :
    ∃ c rest, s = String.ofList ('-' :: c :: rest) ∧ (isDecimalDigit c = true ∨ c = '.') := by
  unfold Dashed at dashed
  cases hs : s.toList with
  | nil => rw [hs] at dashed; cases dashed
  | cons d rest =>
      rw [hs, List.head?_cons] at dashed
      obtain rfl := Option.some.inj dashed
      obtain ⟨c, rest', rfl, hc⟩ := Timestamp.signed_of_read hs h
      exact ⟨c, rest', by rw [← hs, String.ofList_toList], hc⟩

/-! ## Runs -/

section

variable {filters : Log.FilterLanguage} {σ : Type} {env : Environment} {files : FileTree}
  {service : Nat} {name : String}

/-- The instrument client that the variable of the program names. -/
def clientBinary (env : Environment) (service : Nat) : Path :=
  (((portGiven env service).value? "binary").bind path?).getD (.ofText "bits_client")

/-- The call that fetches metrics with some bounds into a dump. -/
def metricsCallOf (env : Environment) (service : Nat) (name : String) (dump : Path)
    (bounds : List String) : Call where
  program := clientBinary env service
  args := ["--port", toString service, "--name", name, "--ignore_gaps", "--aggregates_yaml_path",
    dump.shown] ++ bounds
  limit := (Timeouts.ofEnvironment env).1.command

/-- A run that is ready and can make its dump makes the one call of its bounds. -/
theorem runArguments_metrics {guards : Log.Guards} {logging : Log.Logging}
    (hlog : Log.setUp filters env { (Log.Config.ofEnvironment env "info").1 with stderr := true }
      { subscriber? := none, files := files } = (.ok guards, logging))
    {dump : Session.Scratch}
    (there : logging.files.node? Session.scratchDirectory = some .directory)
    (hfresh : Session.freshScratch? logging.files .dump Session.scratchTries 0 = some dump)
    {start? stop? : Option Timestamp} {a b : Option Int} (hstart : Client.bound start? = .ok a)
    (hstop : Client.bound stop? = .ok b) (format : ReportFormat) (i : Instrument σ) (state : σ) :
    (runArguments filters env i.recording ([], state) files
        (reaching (portGiven env service) service false (.metrics name start? stop? format))).state.1
      = [metricsCallOf env service name dump.path
          (Request.optional "--abs_start_time" a ++ Request.optional "--abs_stop_time" b)] := by
  have ready := ready_port hlog service (.metrics name start? stop? format)
  obtain ⟨fresh, alike, -, hrun⟩ := runArguments_ready ready i.recording ([], state)
  obtain ⟨hleft, -⟩ := hrun _ _ rfl
  let task : Task := .metrics name start? stop? format
  let c := client env i.recording (reaching (portGiven env service) service false task) .default
  have hmade : fresh.makeScratch .dump = .ok (dump, { fresh with
      files := fresh.files.put dump.address (.file []), scratch := dump.number + 1 }) := by
    unfold Session.makeScratch
    have hfiles : fresh.files = logging.files := alike.files.symm
    have hscratch : fresh.scratch = 0 := alike.scratch.symm
    rw [hfiles, there]
    dsimp only
    rw [hscratch, hfresh]
  obtain ⟨-, hcalled, -⟩ := c.metrics_called name hstart hstop hmade
  have hcall : c.metricsCall name a b dump.path = metricsCallOf env service name dump.path
      (Request.optional "--abs_start_time" a ++ Request.optional "--abs_stop_time" b) := by
    have hargs : ["--port", toString service]
          ++ (Request.metrics name a b dump.path).tokens ServiceConfig.default
        = ["--port", toString service, "--name", name, "--ignore_gaps", "--aggregates_yaml_path",
            dump.path.shown]
          ++ (Request.optional "--abs_start_time" a ++ Request.optional "--abs_stop_time" b) := by
      have hplain : Request.virtualMetricsTokens ServiceConfig.default = [] := rfl
      rw [Request.tokens, hplain, List.append_nil, ← List.append_assoc, ← List.append_assoc]
      rfl
    unfold metricsCallOf
    rw [← hargs]
    rfl
  rw [hleft]
  show (execTask c task fresh).2.state.1 = _
  have hstep : (exec (c.perform task.step) fresh).2 = (exec (c.metrics name start? stop?) fresh).2 :=
    congrArg Prod.snd (exec_map _ _ fresh)
  have hstate : fresh.state = ([], state) := alike.state
  rw [execTask_state, hstep, hcalled, hcall, hstate]
  rfl

/-- A plan of one call that can be begun is carried out. -/
theorem Carries.single {i : Instrument σ} {state : σ} {ready : Prop} {call : Call} {report : String}
    {o : Outcome (List Call × σ)} {xs : List Exchange}
    (h : Carries i state ready [call] report o xs) (hready : ready) : o.state.1 = [call] := by
  rw [h.calls]
  cases xs with
  | nil => exact absurd (h.complete hready (by simp)) (by simp)
  | cons x xs =>
      obtain ⟨rest, hrest⟩ := h.planned
      rw [List.map_cons, List.cons_append] at hrest
      obtain ⟨rfl, hnil⟩ := List.cons.inj hrest
      rw [List.map_cons, (List.append_eq_nil_iff.mp hnil).1]

/-- A run that is ready makes the call of its one marker. -/
theorem runArguments_marker {guards : Log.Guards} {logging : Log.Logging}
    (hlog : Log.setUp filters env { (Log.Config.ofEnvironment env "info").1 with stderr := true }
      { subscriber? := none, files := files } = (.ok guards, logging))
    {t : Timestamp} {n : Int} (hnormal : t.normalize = .ok n) (text : String) (i : Instrument σ)
    (state : σ) :
    (runArguments filters env i.recording ([], state) files
        (reaching (portGiven env service) service false (.markers name [(t, text)]))).state.1
      = [markerCallOf env (portGiven env service) service name ⟨n, text⟩] := by
  rcases runArguments_markers (List.cons_ne_nil (t, text) []) i state files rfl with
    ⟨⟨m, hm, hbad⟩, -⟩ | ⟨dated, ordered, xs, hdated, hordered, hxs⟩
  · obtain rfl := List.mem_singleton.mp hm
    exact absurd ⟨n, hnormal⟩ hbad
  · rcases hdated with _ | ⟨hdate, _ | _⟩
    have hthis : Client.Dates (t, text) ⟨n, text⟩ := ⟨hnormal, rfl⟩
    obtain rfl := hthis.unique hdate
    obtain rfl := List.perm_singleton.mp hordered.perm
    exact hxs.single ⟨_, _, ready_port hlog service _⟩

end

/-! ## Options that take a time -/

/-- An option that takes a time, a marker with its text. -/
inductive TimeOption where
  | start
  | stop
  | marker (text : String)

namespace TimeOption

def word : TimeOption → String
  | .marker _ => "markers"
  | _ => "metrics"

def flag : TimeOption → String
  | .start => "--start"
  | .stop => "--end"
  | .marker _ => "--marker"

def value (s : String) : TimeOption → String
  | .marker text => s ++ "=" ++ text
  | _ => s

/-- The call that the option leads to, for a time in nanoseconds. -/
def call (env : Environment) (service : Nat) (name : String) (dump : Path) (n : Int) :
    TimeOption → Call
  | .start => metricsCallOf env service name dump ["--abs_start_time", toString n]
  | .stop => metricsCallOf env service name dump ["--abs_stop_time", toString n]
  | .marker text => markerCallOf env (portGiven env service) service name ⟨n, text⟩

def setting : TimeOption → Setting
  | .start => startBound
  | .stop => endBound
  | .marker _ => Control.marker

def command : TimeOption → Command
  | .marker _ => markersCommand
  | _ => metricsCommand

def read (t : Timestamp) : TimeOption → Value
  | .marker text => .marker t text
  | _ => .time t

def task (name : String) (t : Timestamp) : TimeOption → Task
  | .start => .metrics name (some t) none .yaml
  | .stop => .metrics name none (some t) .yaml
  | .marker text => .markers name [(t, text)]

variable (o : TimeOption)

theorem command?_word : grammar.command? (Utf8.encode o.word) = some o.command := by
  cases o with
  | marker text => exact command?_markers
  | start => exact command?_metrics
  | stop => exact command?_metrics

theorem offers_setting : Offers o.command o.setting := by
  cases o with
  | marker text => exact offers_marker
  | start => exact offers_startBound
  | stop => exact offers_endBound

theorem encode_flag : Utf8.encode o.flag = bare o.setting.long := by
  cases o with
  | marker text =>
      show Utf8.encode "--marker" = bare "marker"
      decide
  | start => decide
  | stop => decide

theorem encode_flag_value (v : String) :
    Utf8.encode (o.flag ++ "=" ++ v) = joined o.setting.long (Utf8.encode v) := by
  have hmark : Utf8.encode "=" = [61] := by decide
  rw [Utf8.encode_append, Utf8.encode_append, encode_flag, hmark, bare, joined, List.append_assoc]
  rfl

theorem readValue_value {s : String} {t : Timestamp} (h : Timestamp.read s = .ok t) :
    Level.readValue o.setting.label o.setting.kind (Utf8.encode (o.value s)) = .ok (o.read t) := by
  cases o with
  | marker text =>
      rcases readValue_marker Control.marker.label (Utf8.encode (s ++ "=" ++ text)) with
        ⟨m, hm, hok⟩ | ⟨hnone, -⟩
      · obtain rfl := (readsMarker_time h text).unique hm
        exact hok
      · exact absurd ⟨_, readsMarker_time h text⟩ hnone
  | start => exact readValue_time h _
  | stop => exact readValue_time h _

theorem task?_read (name : String) (t : Timestamp) :
    task? o.command.name ⟨[], [(o.setting.long, o.read t)], [.text name]⟩ = some (o.task name t) := by
  cases o with
  | marker text => exact task?_markers name [(t, text)]
  | start => rfl
  | stop => rfl

theorem name_ne_help : o.command.name ≠ helpCommand.name := by
  cases o with
  | marker text => exact (by decide : markersCommand.name ≠ helpCommand.name)
  | start => decide
  | stop => decide

theorem operands_eq : o.command.operands = [Control.name] := by cases o <;> rfl

theorem complete (t : Timestamp) (name : String) :
    wantComplete o.command ⟨[], [(o.setting.long, o.read t)], [.text name]⟩ = .ok () := by
  cases o <;> rfl

theorem withShort?_eq_none {c : Char} (hc : isDecimalDigit c = true ∨ c = '.') :
    o.command.withShort? c = none := by
  cases o with
  | marker text => exact Control.withShort?_eq_none hc
  | start => exact Control.withShort?_eq_none hc
  | stop => exact Control.withShort?_eq_none hc

theorem toList_value (s : String) : ∃ rest, (o.value s).toList = s.toList ++ rest := by
  cases o with
  | marker text => exact ⟨'=' :: text.toList, by simp [value, String.toList_append]⟩
  | start => exact ⟨[], (List.append_nil _).symm⟩
  | stop => exact ⟨[], (List.append_nil _).symm⟩

theorem undashed_value {s : String} {t : Timestamp} (h : Timestamp.read s = .ok t)
    (undashed : ¬ Dashed s) : Undashed (Utf8.encode (o.value s)) := by
  refine undashed_encode fun hdash => undashed ?_
  obtain ⟨rest, hvalue⟩ := o.toList_value s
  unfold Dashed at hdash ⊢
  cases hs : s.toList with
  | nil =>
      -- There is no time in no text.
      obtain rfl := String.toList_eq_nil_iff.mp hs
      have hempty : Timestamp.read "" = .error ⟨.string, ""⟩ := by decide
      rw [hempty] at h
      cases h
  | cons c cs =>
      rw [hvalue, hs] at hdash
      exact hdash

theorem value_of_dashed {s : String} {t : Timestamp} (h : Timestamp.read s = .ok t)
    (dashed : Dashed s) : ∃ c rest, s.toList[1]? = some c
      ∧ o.value s = String.ofList ('-' :: c :: rest) ∧ (isDecimalDigit c = true ∨ c = '.') := by
  obtain ⟨c, rest, rfl, hc⟩ := signed_of_dashed h dashed
  obtain ⟨more, hvalue⟩ := o.toList_value (String.ofList ('-' :: c :: rest))
  rw [String.toList_ofList, List.cons_append, List.cons_append] at hvalue
  refine ⟨c, rest ++ more, by rw [String.toList_ofList]; rfl, ?_, hc⟩
  rw [← hvalue, String.ofList_toList]

/-- What the call of the option needs of the files: metrics are written to a dump, which can be made;
markers are written to no file. -/
def HasRoom (files : FileTree) (dump : Session.Scratch) : TimeOption → Prop
  | .marker _ => True
  | _ => files.node? Session.scratchDirectory = some .directory
    ∧ Session.freshScratch? files .dump Session.scratchTries 0 = some dump

/-- A run that is ready makes the call of its option. -/
theorem runArguments_task {filters : Log.FilterLanguage} {σ : Type} {env : Environment}
    {files : FileTree} {service : Nat} {guards : Log.Guards} {logging : Log.Logging}
    (hlog : Log.setUp filters env { (Log.Config.ofEnvironment env "info").1 with stderr := true }
      { subscriber? := none, files := files } = (.ok guards, logging))
    {dump : Session.Scratch} (room : o.HasRoom logging.files dump)
    {t : Timestamp} {n : Int} (hnormal : t.normalize = .ok n) (name : String) (i : Instrument σ)
    (state : σ) :
    (runArguments filters env i.recording ([], state) files
        (reaching (portGiven env service) service false (o.task name t))).state.1
      = [o.call env service name dump.path n] := by
  have hbound : Client.bound (some t) = .ok (some n) := by simp [Client.bound, hnormal]
  have hnone : Client.bound none = .ok none := rfl
  cases o with
  | marker text => exact runArguments_marker hlog hnormal text i state
  | start => exact runArguments_metrics hlog room.1 room.2 hbound hnone .yaml i state
  | stop => exact runArguments_metrics hlog room.1 room.2 hnone hbound .yaml i state

end TimeOption

/-- **Times on the command line.** Every text that is a time leads to the call of its nanoseconds
when it stands in the argument of its option, and so it does in an argument of its own, unless it
begins with a dash: then the dash and the character behind it are taken for an option that there is
not, and the run ends with exit code 2 and without a call. -/
theorem time_options {s : String} {t : Timestamp} {n : Int} (hread : Timestamp.read s = .ok t)
    (hnormal : t.normalize = .ok n) {filters : Log.FilterLanguage} {env : Environment}
    {port : String} {service : Nat}
    (hport : ¬ Dashed port) (hnumber : readNumber 65535 port = .ok service)
    (hbinary : env.lookup "BITS_CLIENT_BINARY" ≠ some []) {name : String} (hname : ¬ Dashed name)
    {files : FileTree} {guards : Log.Guards} {logging : Log.Logging}
    (hlog : Log.setUp filters env { (Log.Config.ofEnvironment env "info").1 with stderr := true }
      { subscriber? := none, files := files } = (.ok guards, logging))
    (option : TimeOption) (dump : Session.Scratch) (room : option.HasRoom logging.files dump)
    {σ : Type} (i : Instrument σ) (state : σ) :
    let go (rest : List String) := run filters env
      ((["--port", port, option.word, name] ++ rest).map Utf8.encode) i.recording ([], state) files
    let call := option.call env service name dump.path n
    (go [option.flag ++ "=" ++ option.value s]).state.1 = [call]
      ∧ (¬ Dashed s → (go [option.flag, option.value s]).state.1 = [call])
      ∧ (Dashed s → Fruitless ([], state) (go [option.flag, option.value s])
        ∧ (go [option.flag, option.value s]).exitCode = 2
        ∧ ∃ c, s.toList[1]? = some c ∧ (go [option.flag, option.value s]).complaint?
          = some (.usage (usageText (.unknownArgument (String.ofList ['-', c]))))) := by
  intro go call
  have opens := opens_port hport hnumber hbinary
  have undashed := undashed_encode hname
  -- The two forms that are read differ in the arguments only.
  have hcalls : ∀ rest, rest.map Utf8.encode
          = [joined option.setting.long (Utf8.encode (option.value s))]
        ∨ rest.map Utf8.encode = [bare option.setting.long, Utf8.encode (option.value s)]
          ∧ Undashed (Utf8.encode (option.value s)) →
      (go rest).state.1 = [call] := by
    intro rest hrest
    have hparse := parse_setting opens option.command?_word option.name_ne_help option.operands_eq
      option.offers_setting undashed (option.readValue_value hread) (option.complete t name) hrest
    have hrun := run_parsed filters i.recording ([], state) files hparse
      (arguments?_eq rfl (option.task?_read name t))
    refine (congrArg (fun o => o.state.1) hrun).trans ?_
    exact option.runArguments_task hlog room hnormal name i state
  have hflag : ([option.flag, option.value s].map Utf8.encode)
      = [bare option.setting.long, Utf8.encode (option.value s)] := by
    rw [← option.encode_flag]
    rfl
  refine ⟨hcalls _ (.inl ?_), ?_, ?_⟩
  · rw [List.map_cons, List.map_nil, option.encode_flag_value]
  · intro hundashed
    exact hcalls _ (.inr ⟨hflag, option.undashed_value hread hundashed⟩)
  · intro hdashed
    obtain ⟨c, rest, hsecond, hvalue, hc⟩ := option.value_of_dashed hread hdashed
    have hletter : c ≠ '-' := by
      rintro rfl
      rcases hc with hc | hc <;> exact absurd hc (by decide)
    have hparse := parse_letter opens option.command?_word option.name_ne_help option.operands_eq
      option.offers_setting undashed hletter (option.withShort?_eq_none hc) rest
    rw [← hvalue, ← hflag] at hparse
    obtain ⟨hexit, htold, hfruitless⟩ := run_fault filters i.recording ([], state) files hparse
    exact ⟨hfruitless, hexit, c, hsecond, htold⟩

/-! ## A time before 1970 -/

/-- Files with nothing but the directory of scratch files. -/
def scratchOnly : FileTree := { nodes := [(Session.scratchDirectory, .directory)], here := [] }

/-- Five nanoseconds before 1970 are a bound in the argument of the option, and none in their own; a
marker at that time needs no file at all. -/
theorem time_options_before1970 :
    (run Log.Directives.language [] ((["--port", "1", "metrics", "c1"] ++ ["--start=-5"]).map
        Utf8.encode) quiet.recording ([], ()) scratchOnly).state.1
      = [metricsCallOf [] 1 "c1" (Session.Scratch.path ⟨.dump, 0⟩) ["--abs_start_time", "-5"]]
    ∧ Fruitless ([], ()) (run Log.Directives.language []
        ((["--port", "1", "metrics", "c1"] ++ ["--start", "-5"]).map Utf8.encode) quiet.recording
        ([], ()) scratchOnly)
    ∧ (run Log.Directives.language [] ((["--port", "1", "markers", "c1"] ++ ["--marker=-5=x"]).map
        Utf8.encode) quiet.recording ([], ()) ⟨[], []⟩).state.1
      = [markerCallOf [] (portGiven [] 1) 1 "c1" ⟨-5, "x"⟩] := by
  obtain ⟨guards, logging, hlog, hfiles⟩ := setUp_bare Log.Directives.language scratchOnly
  obtain ⟨_, _, hlog', -⟩ := setUp_bare Log.Directives.language ⟨[], []⟩
  have hread : Timestamp.read "-5" = .ok (.nanos (-5)) := by decide
  have hport : ¬ Dashed "1" := by decide
  have hnumber : readNumber 65535 "1" = .ok 1 := by decide
  have hbinary : List.lookup "BITS_CLIENT_BINARY" ([] : Environment) ≠ some [] := by decide
  have hname : ¬ Dashed "c1" := by decide
  have hroom : TimeOption.start.HasRoom logging.files ⟨.dump, 0⟩ := by
    rw [hfiles]
    exact ⟨rfl, rfl⟩
  have hstart := time_options hread rfl hport hnumber hbinary hname hlog .start _ hroom quiet ()
  have hmarker := time_options hread rfl hport hnumber hbinary hname hlog' (.marker "x")
    ⟨.dump, 0⟩ trivial quiet ()
  exact ⟨hstart.1, (hstart.2.2 (by decide)).1, hmarker.1⟩

/-- That text is a time, its nanoseconds fit, and the two arguments make no call of it. -/
theorem dashed_time_uncalled :
    Timestamp.read "-5" = .ok (.nanos (-5)) ∧ (Timestamp.nanos (-5)).normalize = .ok (-5)
      ∧ (run Log.Directives.language [] (["--port", "1", "metrics", "c1", "--start", "-5"].map
        Utf8.encode) quiet.recording ([], ()) scratchOnly).state.1 = [] := by
  refine ⟨by decide, rfl, ?_⟩
  have hport : Opens [] grammar (["--port", "1"].map Utf8.encode) (portGiven [] 1) :=
    opens_port (by decide) (by decide) (by decide)
  have hname : Undashed (Utf8.encode "c1") := undashed_encode (by decide)
  have hparse := parse_letter hport command?_metrics (by decide) rfl offers_startBound hname
    (by decide : '5' ≠ '-') (by decide) []
  obtain ⟨-, -, hfruitless⟩ :=
    run_fault Log.Directives.language quiet.recording ([], ()) scratchOnly hparse
  exact congrArg Prod.fst hfruitless.state

end PowerBench.Control
