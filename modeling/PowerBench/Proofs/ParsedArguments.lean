import PowerBench.Control.Arguments
import PowerBench.Proofs.CommandLine

set_option autoImplicit false

/-! # What has been read is complete

Reading keeps a command line to its grammar: every setting that was given is one of the command, with
a value of its kind, and the operands stand in their places (`Given.Typed`). A level counts its places
with what is pending (`Level.Sound`), which every argument preserves (`sound_readArgument`), so a line
that has been read is typed and complete (`parse_kept`). Hence every line of the program that has
been read asks for a task (`arguments?_of_parse`).
-/

namespace PowerBench

namespace CommandLine

/-! ## Values of a kind -/

def ValueKind.Holds : ValueKind → Value → Prop
  | .text, .text _ => True
  | .path, .path _ => True
  | .number most, .number n => n ≤ most
  | .choice words, .choice word => word ∈ words
  | .time, .time _ => True
  | .marker, .marker _ _ => True
  | _, _ => False

theorem le_of_readNumber {most n : Nat} {s : String} (h : readNumber most s = .ok n) : n ≤ most := by
  unfold readNumber at h
  split at h
  · cases h
  · split at h
    · rename_i hbounds
      obtain rfl := Except.ok.inj h
      omega
    · cases h

theorem ValueKind.holds_of_readText {kind : ValueKind} {s : String} {v : Value}
    (h : kind.readText s = .ok v) : kind.Holds v := by
  cases kind with
  | text =>
      obtain rfl := Except.ok.inj h
      exact trivial
  | path =>
      dsimp only [readText] at h
      split at h
      · cases h
      · obtain rfl := Except.ok.inj h
        exact trivial
  | number most =>
      obtain ⟨n, hn, rfl⟩ := map_eq_ok.mp (mapError_eq_ok.mp h)
      exact le_of_readNumber hn
  | choice words =>
      dsimp only [readText] at h
      split at h
      · cases h
      · split at h
        · rename_i hlisted
          obtain rfl := Except.ok.inj h
          exact List.contains_iff_mem.mp hlisted
        · cases h
  | time =>
      obtain ⟨t, -, rfl⟩ := map_eq_ok.mp (mapError_eq_ok.mp h)
      exact trivial
  | marker =>
      obtain ⟨m, -, rfl⟩ := map_eq_ok.mp (mapError_eq_ok.mp h)
      exact trivial

theorem ValueKind.holds_of_read {kind : ValueKind} {bytes : Bytes} {v : Value}
    (h : kind.read bytes = .ok v) : kind.Holds v := by
  unfold read at h
  split at h
  · obtain rfl := Except.ok.inj h
    exact trivial
  · cases h
  · cases h
  · exact holds_of_readText h

/-! ## What has been given -/

/-- The values stand in the places of the operands, each of its kind. -/
abbrev Fill (operands : List Operand) (values : List Value) : Prop :=
  List.Forall₂ (fun o v => o.kind.Holds v) operands values

/-- Every setting given is one of the command with a value of its kind, and the operands given are
the first ones of the command. -/
structure Given.Typed (c : Command) (given : Given) : Prop where
  settings : ∀ entry ∈ given.settings, ∃ s ∈ c.settings, s.long = entry.1 ∧ s.kind.Holds entry.2
  operands : Fill (c.operands.take given.operands.length) given.operands

namespace Given

variable {c : Command} {given : Given}

theorem Typed.addSetting (h : given.Typed c) {s : Setting} (own : s ∈ c.settings) {v : Value}
    (kind : s.kind.Holds v) :
    Typed c { given with settings := given.settings ++ [(s.long, v)] } := by
  refine ⟨fun entry hentry => ?_, h.operands⟩
  rcases List.mem_append.mp hentry with hentry | hentry
  · exact h.settings entry hentry
  · obtain rfl := List.mem_singleton.mp hentry
    exact ⟨s, own, rfl, kind⟩

theorem Typed.addOperand (h : given.Typed c) {o : Operand}
    (place : c.operands[given.operands.length]? = some o) {v : Value} (kind : o.kind.Holds v) :
    Typed c { given with operands := given.operands ++ [v] } := by
  refine ⟨h.settings, ?_⟩
  show Fill (c.operands.take (given.operands ++ [v]).length) (given.operands ++ [v])
  rw [List.length_append, List.length_singleton, List.take_add_one, place]
  exact List.rel_append h.operands (.cons kind .nil)

/-- The value of a setting that no other of the command is named like. -/
theorem Typed.value? (h : given.Typed c) {s : Setting}
    (unique : ∀ s' ∈ c.settings, s'.long = s.long → s' = s) (there : (given.value? s.long).isSome) :
    ∃ v, given.value? s.long = some v ∧ s.kind.Holds v := by
  obtain ⟨v, hv⟩ := Option.isSome_iff_exists.mp there
  obtain ⟨before, after, hsplit, -⟩ := List.lookup_eq_some_iff.mp hv
  obtain ⟨s', hs', hlong, hkind⟩ := h.settings (s.long, v) (by rw [hsplit]; simp)
  obtain rfl := unique s' hs' hlong
  exact ⟨v, hv, hkind⟩

theorem Typed.all_operands (h : given.Typed c) (complete : missingLabels c given = []) :
    Fill c.operands given.operands := by
  have hdrop : c.operands.drop given.operands.length = [] :=
    List.map_eq_nil_iff.mp (List.append_eq_nil_iff.mp complete).2
  have htake : c.operands.take given.operands.length = c.operands :=
    List.take_of_length_le (List.drop_eq_nil_iff.mp hdrop)
  have hall := h.operands
  rw [htake] at hall
  exact hall

/-- Where nothing is missing, the settings that are required have been given. -/
theorem there_of_required {s : Setting} (complete : missingLabels c given = [])
    (own : s ∈ c.settings) (required : s.required = true) : (given.value? s.long).isSome := by
  have hnone := List.map_eq_nil_iff.mp (List.append_eq_nil_iff.mp complete).1
  by_contra hgone
  have hmem : s ∈ c.settings.filter fun s => s.required && (given.value? s.long).isNone := by
    rw [List.mem_filter, required]
    exact ⟨own, by simpa using hgone⟩
  rw [hnone] at hmem
  cases hmem

end Given

/-! ## Levels -/

namespace Level

variable {g : Grammar} {c : Command} {isRoot : Bool} {l l' : Level}

/-- What is pending belongs to the command, and the next place counts it. -/
def Placed (c : Command) (l : Level) : Prop :=
  match l.pending? with
  | none => l.next = l.given.operands.length
  | some (.setting s _) => s ∈ c.settings ∧ l.next = l.given.operands.length
  | some (.operand o _) =>
    c.operands[l.given.operands.length]? = some o ∧ l.next = l.given.operands.length + 1

/-- Without anything pending, the next place is the first that is free. -/
theorem placed_iff (pending : l.pending? = none) :
    l.Placed c ↔ l.next = l.given.operands.length := by
  unfold Placed
  rw [pending]

/-- What has been given keeps to the command, and so does what is pending. -/
structure Sound (c : Command) (l : Level) : Prop where
  typed : l.given.Typed c
  placed : l.Placed c

theorem sound_start (c : Command) : start.Sound c := by
  refine ⟨⟨fun _ hentry => ?_, .nil⟩, rfl⟩
  cases hentry

theorem holds_of_readValue {label : String} {kind : ValueKind} {bytes : Bytes} {v : Value}
    (h : readValue label kind bytes = .ok v) : kind.Holds v :=
  ValueKind.holds_of_read (mapError_eq_ok.mp h)

theorem typed_addSetting {s : Setting} {value? : Option Bytes} {given given' : Given}
    (typed : given.Typed c) (own : s ∈ c.settings) (h : addSetting s value? given = .ok given') :
    given'.Typed c ∧ given'.operands = given.operands := by
  unfold addSetting at h
  split at h
  · cases h
  · split at h
    · cases h
    · obtain ⟨v, hv, h⟩ := bind_eq_ok.mp h
      obtain rfl := Except.ok.inj h
      exact ⟨typed.addSetting own (holds_of_readValue hv), rfl⟩

/-- Looking at what is pending keeps a level sound. -/
theorem sound_resolve (sound : l.Sound c) (h : l.resolve = .ok l') : l'.Sound c := by
  have typed := sound.typed
  have placed := sound.placed
  unfold resolve at h
  unfold Placed at placed
  split at h
  · obtain rfl := Except.ok.inj h
    exact sound
  -- A setting takes no place.
  · rename_i s value? hpending
    rw [hpending] at placed
    obtain ⟨given, hgiven, h⟩ := bind_eq_ok.mp h
    obtain rfl := Except.ok.inj h
    obtain ⟨typed', operands⟩ := typed_addSetting typed placed.1 hgiven
    refine ⟨typed', ?_⟩
    show l.next = given.operands.length
    rw [operands, placed.2]
  -- An operand fills the place that was counted for it when it came.
  · rename_i o bytes hpending
    rw [hpending] at placed
    obtain ⟨v, hv, h⟩ := bind_eq_ok.mp h
    obtain rfl := Except.ok.inj h
    refine ⟨typed.addOperand placed.1 (holds_of_readValue hv), ?_⟩
    show l.next = (l.given.operands ++ [v]).length
    rw [List.length_append, List.length_singleton, placed.2]

theorem Sound.next_eq (sound : l.Sound c) (pending : l.pending? = none) :
    l.next = l.given.operands.length :=
  (placed_iff pending).mp sound.placed

theorem sound_addFlag {f : Flag} (sound : l.Sound c) (h : l.addFlag c f isRoot = .ok l') :
    l'.Sound c := by
  unfold addFlag at h
  obtain ⟨mid, hmid, h⟩ := bind_eq_ok.mp h
  have sound := sound_resolve sound hmid
  have pending := resolve_pending hmid
  split at h
  · cases h
  · cases h
  · split at h
    · cases h
    · obtain rfl := Except.ok.inj h
      refine ⟨⟨sound.typed.settings, sound.typed.operands⟩, ?_⟩
      exact (placed_iff pending).mpr (sound.next_eq pending)

theorem setting_mem {name : String} {s : Setting} (h : c.withLong? name = some (.setting s)) :
    s ∈ c.settings :=
  List.mem_filterMap.mpr ⟨.setting s, List.mem_of_find?_eq_some h, rfl⟩

theorem sound_readLong {body : Bytes} (sound : l.Sound c) (h : l.readLong c isRoot body = .ok l') :
    l'.Sound c := by
  unfold readLong at h
  dsimp only at h
  split at h
  · cases h
  · split at h
    · cases h
    · exact sound_addFlag sound h
  · rename_i s hfound
    obtain ⟨text, -, hfound⟩ := Option.bind_eq_some_iff.mp hfound
    have hown : s ∈ c.settings := setting_mem hfound
    obtain ⟨mid, hmid, h⟩ := bind_eq_ok.mp h
    have sound := sound_resolve sound hmid
    have pending := resolve_pending hmid
    -- The value stands behind an equals sign, or is waited for.
    split at h
    · obtain ⟨given, hgiven, h⟩ := bind_eq_ok.mp h
      obtain rfl := Except.ok.inj h
      obtain ⟨typed, operands⟩ := typed_addSetting sound.typed hown hgiven
      have hnext : mid.next = given.operands.length := by
        rw [operands, sound.next_eq pending]
      have hidle : ({ mid with given := given, awaiting := false } : Level).pending? = none := pending
      exact ⟨typed, (placed_iff hidle).mpr hnext⟩
    · obtain rfl := Except.ok.inj h
      exact ⟨sound.typed, hown, sound.next_eq pending⟩

theorem sound_readShort {pieces : List Utf8.Piece} (sound : l.Sound c)
    (h : readShort c isRoot pieces l = .ok l') : l'.Sound c := by
  induction pieces generalizing l with
  | nil =>
      obtain rfl := Except.ok.inj h
      exact sound
  | cons p rest ih =>
      unfold readShort at h
      split at h
      · cases h
      · split at h
        · obtain ⟨mid, hmid, h⟩ := bind_eq_ok.mp h
          exact ih (sound_addFlag sound hmid) h
        · cases h

theorem sound_readOperand {bytes : Bytes} (sound : l.Sound c)
    (h : l.readOperand g c isRoot bytes = .ok l') : l'.Sound c := by
  unfold readOperand at h
  split at h
  · rename_i o hplace
    obtain ⟨mid, hmid, h⟩ := bind_eq_ok.mp h
    obtain rfl := Except.ok.inj h
    have sound' := sound_resolve sound hmid
    have pending := resolve_pending hmid
    have hnext : mid.next = l.next := resolve_next hmid
    refine ⟨sound'.typed, ?_, ?_⟩
    · rw [← sound'.next_eq pending, hnext]
      exact hplace
    · show mid.next + 1 = _
      rw [sound'.next_eq pending]
  · split at h
    · cases h
    · cases h

/-- **One argument keeps a level sound.** -/
theorem sound_readArgument {bytes : Bytes} (sound : l.Sound c)
    (h : l.readArgument g c isRoot bytes = .ok l') : l'.Sound c := by
  unfold readArgument at h
  split at h
  · exact sound_readOperand sound h
  · split at h
    · obtain rfl := Except.ok.inj h
      exact ⟨sound.typed, sound.placed⟩
    · exact sound_readLong sound h
    · exact sound_readShort sound h
    · split at h
      · rename_i s value? hpending
        obtain rfl := Except.ok.inj h
        have placed := sound.placed
        unfold Placed at placed
        rw [hpending] at placed
        exact ⟨sound.typed, placed⟩
      · exact sound_readOperand sound h

theorem sound_readAll {args : List Bytes} (sound : l.Sound c) (h : l.readAll g c args = .ok l') :
    l'.Sound c := by
  induction args generalizing l with
  | nil => exact sound_resolve sound h
  | cons a rest ih =>
      unfold readAll at h
      obtain ⟨mid, hmid, h⟩ := bind_eq_ok.mp h
      exact ih (sound_readArgument sound hmid) h

/-- So do the program's own arguments; the command behind them is one of all. -/
theorem sound_readRoot {args : List Bytes} {found? : Option (Command × List Bytes)}
    (sound : l.Sound g.root) (h : l.readRoot g args = .ok (l', found?)) :
    l'.Sound g.root ∧ ∀ c rest, found? = some (c, rest) → c ∈ g.allCommands := by
  induction args generalizing l with
  | nil =>
      obtain ⟨rfl, rfl⟩ := Prod.mk.inj (Except.ok.inj h)
      exact ⟨sound, nofun⟩
  | cons a rest ih =>
      unfold readRoot at h
      split at h
      · rename_i c hfound
        obtain ⟨rfl, rfl⟩ := Prod.mk.inj (Except.ok.inj h)
        refine ⟨sound, fun c' rest' heq => ?_⟩
        obtain ⟨rfl, -⟩ := Prod.mk.inj (Option.some.inj heq)
        split at hfound
        · cases hfound
        · exact List.mem_of_find?_eq_some hfound
      · obtain ⟨mid, hmid, h⟩ := bind_eq_ok.mp h
        exact ih (sound_readArgument sound hmid) h

end Level

/-! ## The whole line -/

theorem typed_addVariables {env : Environment} {c : Command} {settings : List Setting}
    {given given' : Given} (own : ∀ s ∈ settings, s ∈ c.settings) (typed : given.Typed c)
    (h : addVariables env settings given = .ok given') : given'.Typed c := by
  induction settings generalizing given with
  | nil =>
      obtain rfl := Except.ok.inj h
      exact typed
  | cons s rest ih =>
      have hrest : ∀ s ∈ rest, s ∈ c.settings := fun s hs => own s (List.mem_cons_of_mem _ hs)
      unfold addVariables at h
      split at h
      · split at h
        · exact ih hrest typed h
        · obtain ⟨mid, hmid, h⟩ := bind_eq_ok.mp h
          exact ih hrest (Level.typed_addSetting typed (own s List.mem_cons_self) hmid).1 h
      · exact ih hrest typed h

theorem complete_of_wantComplete {c : Command} {given : Given}
    (h : wantComplete c given = .ok ()) : missingLabels c given = [] := by
  unfold wantComplete at h
  split at h
  · assumption
  · cases h

/-- What was given to the program and to the command keeps to both, and nothing is missing. -/
structure Parsed.Kept (g : Grammar) (p : Parsed) : Prop where
  command : p.command ∈ g.commands
  given : p.given.Typed p.command
  givenComplete : missingLabels p.command p.given = []
  program : p.program.Typed g.root
  programComplete : missingLabels g.root p.program = []

/-- **A line that has been read keeps to the grammar.** -/
theorem parse_kept {env : Environment} {g : Grammar} {args : List Bytes} {p : Parsed}
    (h : parse env g args = .ok p) : p.Kept g := by
  unfold parse at h
  obtain ⟨⟨l, found?⟩, hroot, h⟩ := bind_eq_ok.mp h
  obtain ⟨sound, hcommand⟩ := Level.sound_readRoot (Level.sound_start g.root) hroot
  cases found? with
  | none =>
      -- Without a command reading ends in a halt, whatever was given.
      obtain ⟨l', -, h⟩ := bind_eq_ok.mp h
      obtain ⟨program, -, h⟩ := bind_eq_ok.mp h
      split at h
      · cases h
      · cases h
  | some found =>
      obtain ⟨c, rest⟩ := found
      dsimp only at h
      split at h
      · cases h
      · rename_i hname
        obtain ⟨level, hlevel, h⟩ := bind_eq_ok.mp h
        obtain ⟨⟨⟩, hgiven, h⟩ := bind_eq_ok.mp h
        obtain ⟨l', hl', h⟩ := bind_eq_ok.mp h
        obtain ⟨program, hprogram, h⟩ := bind_eq_ok.mp h
        obtain ⟨⟨⟩, hcomplete, h⟩ := bind_eq_ok.mp h
        obtain rfl := Except.ok.inj h
        have hmem : c ∈ g.commands := by
          rcases List.mem_append.mp (hcommand c rest rfl) with hmem | hmem
          · exact hmem
          · exact absurd (congrArg Command.name (List.mem_singleton.mp hmem)) hname
        exact
          { command := hmem
            given := (Level.sound_readAll (Level.sound_start c) hlevel).typed
            givenComplete := complete_of_wantComplete hgiven
            program := typed_addVariables (fun _ hs => hs) (Level.sound_resolve sound hl').typed hprogram
            programComplete := complete_of_wantComplete hcomplete }

end CommandLine

namespace Control

open CommandLine

/-! ## What the program is asked for -/

section

variable {v : Value}

theorem eq_text (h : ValueKind.text.Holds v) : ∃ s, v = .text s := by
  cases v with
  | text s => exact ⟨s, rfl⟩
  | _ => exact h.elim

theorem eq_path (h : ValueKind.path.Holds v) : ∃ p, v = .path p := by
  cases v with
  | path p => exact ⟨p, rfl⟩
  | _ => exact h.elim

theorem eq_number {most : Nat} (h : (ValueKind.number most).Holds v) : ∃ n, v = .number n := by
  cases v with
  | number n => exact ⟨n, rfl⟩
  | _ => exact h.elim

theorem eq_choice {words : List String} (h : (ValueKind.choice words).Holds v) :
    ∃ word ∈ words, v = .choice word := by
  cases v with
  | choice word => exact ⟨word, h, rfl⟩
  | _ => exact h.elim

end

/-- Every word that can be given names an action. -/
theorem action?_of_mem {word : String} (h : ValueKind.Holds action.kind (.choice word)) :
    ∃ a, action? word = some a := by
  have hcases : word = "acquire" ∨ word = "release" ∨ word = "usb-connect" ∨ word = "usb-disconnect" := by
    simpa [action, ValueKind.Holds] using h
  rcases hcases with rfl | rfl | rfl | rfl
  · exact ⟨.acquire, rfl⟩
  · exact ⟨.release, rfl⟩
  · exact ⟨.usbConnect, rfl⟩
  · exact ⟨.usbDisconnect, rfl⟩

theorem fill_name {values : List Value} (h : Fill [name] values) : ∃ s, values = [.text s] := by
  obtain ⟨v, rest, hv, hrest, rfl⟩ := List.forall₂_cons_left_iff.mp h
  obtain rfl := List.forall₂_nil_left_iff.mp hrest
  obtain ⟨s, rfl⟩ := eq_text hv
  exact ⟨s, rfl⟩

theorem fill_dest {values : List Value} (h : Fill [dest] values) : ∃ p, values = [.path p] := by
  obtain ⟨v, rest, hv, hrest, rfl⟩ := List.forall₂_cons_left_iff.mp h
  obtain rfl := List.forall₂_nil_left_iff.mp hrest
  obtain ⟨p, rfl⟩ := eq_path hv
  exact ⟨p, rfl⟩

theorem fill_name_dest {values : List Value} (h : Fill [name, dest] values) :
    ∃ s p, values = [.text s, .path p] := by
  obtain ⟨v, rest, hv, hrest, rfl⟩ := List.forall₂_cons_left_iff.mp h
  obtain ⟨p, rfl⟩ := fill_dest hrest
  obtain ⟨s, rfl⟩ := eq_text hv
  exact ⟨s, p, rfl⟩

/-- The operands of a command, all given, make a task. -/
theorem task?_of_fill {c : Command} (hc : c ∈ grammar.commands) {given : Given}
    (fill : Fill c.operands given.operands) : ∃ t, task? c.name given = some t := by
  obtain ⟨flags, settings, values⟩ := given
  dsimp only at fill
  simp only [grammar, List.mem_cons, List.not_mem_nil, or_false] at hc
  rcases hc with rfl | rfl | rfl | rfl | rfl | rfl | rfl | rfl | rfl | rfl
  -- No operands, the name alone, or the name and a destination.
  · exact ⟨_, rfl⟩
  · obtain ⟨s, rfl⟩ := fill_name fill
    exact ⟨_, rfl⟩
  · obtain ⟨s, rfl⟩ := fill_name fill
    exact ⟨_, rfl⟩
  · obtain ⟨s, p, rfl⟩ := fill_name_dest fill
    exact ⟨_, rfl⟩
  · obtain ⟨s, p, rfl⟩ := fill_name_dest fill
    exact ⟨_, rfl⟩
  · obtain ⟨s, rfl⟩ := fill_name fill
    exact ⟨_, rfl⟩
  · obtain ⟨s, rfl⟩ := fill_name fill
    exact ⟨_, rfl⟩
  · obtain ⟨s, rfl⟩ := fill_name fill
    exact ⟨_, rfl⟩
  -- A trace has a pattern between them, and the power monitor an action.
  · obtain ⟨v, rest, hv, hrest, rfl⟩ := List.forall₂_cons_left_iff.mp fill
    obtain ⟨s, rfl⟩ := eq_text hv
    obtain ⟨w, last, hw, hlast, rfl⟩ := List.forall₂_cons_left_iff.mp hrest
    obtain ⟨channel, rfl⟩ := eq_text hw
    obtain ⟨p, rfl⟩ := fill_dest hlast
    exact ⟨_, rfl⟩
  · obtain ⟨v, rest, hv, hrest, rfl⟩ := List.forall₂_cons_left_iff.mp fill
    obtain rfl := List.forall₂_nil_left_iff.mp hrest
    obtain ⟨word, hword, rfl⟩ := eq_choice hv
    obtain ⟨a, ha⟩ := action?_of_mem hword
    refine ⟨.monitor a, ?_⟩
    show Task.monitor <$> action? word = _
    rw [ha]
    rfl

/-- **A line that has been read asks for a task.** -/
theorem arguments?_of_parse {env : Environment} {args : List Bytes} {p : Parsed}
    (h : parse env grammar args = .ok p) : ∃ a, arguments? p = some a := by
  have kept := parse_kept h
  -- The port is required, and no other setting of the program has its name.
  have hport : Control.service ∈ grammar.root.settings := by decide
  have hunique : ∀ s ∈ grammar.root.settings, s.long = Control.service.long → s = Control.service := by
    decide
  have hthere := Given.there_of_required kept.programComplete hport rfl
  obtain ⟨v, hv, hkind⟩ := kept.program.value? hunique hthere
  obtain ⟨service, rfl⟩ := eq_number hkind
  obtain ⟨t, ht⟩ := task?_of_fill kept.command (kept.given.all_operands kept.givenComplete)
  have hservice : (p.program.value? "port").bind number? = some service := by
    rw [show p.program.value? "port" = _ from hv]
    rfl
  unfold arguments?
  rw [hservice, ht]
  exact ⟨_, rfl⟩

end Control

end PowerBench
