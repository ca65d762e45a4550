import Mathlib.Data.List.TakeWhile
import PowerBench.CommandLine.Parse
import PowerBench.Proofs.Outcome
import PowerBench.Proofs.Utf8RoundTrip

set_option autoImplicit false

/-! # Reading the arguments of a command

The value of a setting can stand behind an equals sign, and is then taken whatever it is
(`readArgument_joined`), or in an argument of its own, and is then only taken when that argument does
not begin with a dash (`readArgument_value`): behind a dash letters are looked for
(`readArgument_letter`). What is pending is looked at before the next option, so reading only depends
on a level through what it resolves to (`readAll_joined`).
-/

namespace PowerBench

/-! ## Cutting at a mark -/

theorem ne_of_notMem {α : Type} [BEq α] [LawfulBEq α] {mark : α} {xs : List α} (h : mark ∉ xs) :
    ∀ x ∈ xs, (x != mark) = true := by
  intro x hx
  rw [bne_iff_ne]
  rintro rfl
  exact h hx

theorem takeWhile_ne_append {α : Type} [BEq α] [LawfulBEq α] {mark : α} {xs : List α}
    (h : mark ∉ xs) (rest : List α) : (xs ++ mark :: rest).takeWhile (· != mark) = xs := by
  rw [List.takeWhile_append_of_pos (ne_of_notMem h), List.takeWhile_cons]
  simp

namespace CommandLine

/-! ## Dashes -/

/-- A text that begins with a dash. -/
def Dashed (s : String) : Prop := s.toList.head? = some '-'

instance (s : String) : Decidable (Dashed s) := inferInstanceAs (Decidable (_ = _))

/-- An argument with no dash in front of anything; a lone dash is one. -/
def Undashed (bytes : Bytes) : Prop := ∀ b rest, bytes ≠ 45 :: b :: rest

theorem undashed_of_head {bytes : Bytes} (h : bytes.head? ≠ some 45) : Undashed bytes := by
  rintro b rest rfl
  exact h rfl

theorem head_encode_ne {s : String} (h : ¬ Dashed s) : (Utf8.encode s).head? ≠ some 45 := by
  unfold Utf8.encode
  unfold Dashed at h
  cases hs : s.toList with
  | nil => simp [Utf8.encodeChars]
  | cons c rest =>
      rw [hs, List.head?_cons] at h
      have hc : c.toNat ≠ 45 := by
        intro hdash
        refine h (congrArg some ?_)
        rw [← Char.ofNat_toNat c, hdash]
      obtain ⟨first, tail, hform, hfront⟩ := Utf8.front_encodeChar c []
      have hbytes : Utf8.encodeChars (c :: rest) = first :: (tail ++ Utf8.encodeChars rest) := by
        show Utf8.encodeChar c ++ Utf8.encodeChars rest = _
        rw [hform, List.cons_append]
      rw [hbytes, List.head?_cons]
      intro hdash
      obtain rfl := Option.some.inj hdash
      -- A dash at the front of a byte string is the character of that name.
      have hpiece : Utf8.front 45 (tail ++ []) = ⟨some '-', 0⟩ := rfl
      rw [hpiece] at hfront
      exact hc (congrArg Char.toNat (Option.some.inj (congrArg Utf8.Piece.char? hfront)).symm)

theorem undashed_encode {s : String} (h : ¬ Dashed s) : Undashed (Utf8.encode s) :=
  undashed_of_head (head_encode_ne h)

/-! ## Settings -/

/-- The name of a setting as an argument. -/
def bare (long : String) : Bytes := 45 :: 45 :: Utf8.encode long

/-- A setting and its value as one argument. -/
def joined (long : String) (value : Bytes) : Bytes := 45 :: 45 :: (Utf8.encode long ++ 61 :: value)

/-- A command has a setting whose name holds no equals sign. -/
structure Offers (c : Command) (s : Setting) : Prop where
  found : c.withLong? s.long = some (.setting s)
  named : 61 ∉ Utf8.encode s.long
  nonempty : Utf8.encode s.long ≠ []

theorem ValueKind.read_encode (kind : ValueKind) (s : String) :
    kind.read (Utf8.encode s) = kind.readText s := by
  unfold ValueKind.read
  rw [Utf8.decode?_encode]
  cases kind <;> rfl

/-- What has been given, and more values of a setting. -/
def Given.withValues (given : Given) (s : Setting) (values : List Value) : Given :=
  { given with settings := given.settings ++ values.map fun v => (s.long, v) }

namespace Given

@[simp] theorem withValues_nil (given : Given) (s : Setting) : given.withValues s [] = given := by
  simp [withValues]

@[simp] theorem withValues_withValues (given : Given) (s : Setting) (values more : List Value) :
    (given.withValues s values).withValues s more = given.withValues s (values ++ more) := by
  simp [withValues]

end Given

namespace Level

variable {g : Grammar} {c : Command} {isRoot : Bool}

/-! ## One argument -/

/-- The value of a setting in an argument of its own. -/
theorem readArgument_value {l : Level} {s : Setting} {bytes : Bytes} (undashed : Undashed bytes)
    (free : l.trailing = false) (awaiting : l.awaiting = true)
    (pending : l.pending? = some (.setting s none)) :
    l.readArgument g c isRoot bytes
      = .ok { l with pending? := some (.setting s (some bytes)), awaiting := false } := by
  unfold readArgument
  rw [free, if_neg (by simp)]
  split
  · exact absurd rfl (undashed _ _)
  · exact absurd rfl (undashed _ _)
  · exact absurd rfl (undashed _ _)
  · rw [awaiting, pending]

theorem readArgument_operand {l : Level} {bytes : Bytes} (undashed : Undashed bytes)
    (idle : l.awaiting = false) :
    l.readArgument g c isRoot bytes = l.readOperand g c isRoot bytes := by
  unfold readArgument
  split
  · rfl
  · split
    · exact absurd rfl (undashed _ _)
    · exact absurd rfl (undashed _ _)
    · exact absurd rfl (undashed _ _)
    · rw [idle]

/-- A letter behind a dash that is the name of no option. -/
theorem readArgument_letter {l : Level} {letter : Char} {rest : List Char}
    (free : l.trailing = false) (hletter : letter ≠ '-') (unknown : c.withShort? letter = none) :
    l.readArgument g c isRoot (Utf8.encode (String.ofList ('-' :: letter :: rest)))
      = .error (.fault (.unknownArgument (String.ofList ['-', letter]))) := by
  obtain ⟨first, tail, hform, -⟩ := Utf8.front_encodeChar letter (Utf8.encodeChars rest)
  have hbytes : Utf8.encode (String.ofList ('-' :: letter :: rest))
      = 45 :: first :: (tail ++ Utf8.encodeChars rest) := by
    rw [Utf8.encode, String.toList_ofList]
    show 45 :: (Utf8.encodeChar letter ++ Utf8.encodeChars rest) = _
    rw [hform, List.cons_append]
  have hfirst : first ≠ 45 := by
    have hundashed : ¬ Dashed (String.ofList [letter]) := by
      unfold Dashed
      rw [String.toList_ofList]
      exact fun h => hletter (Option.some.inj h)
    have hhead := head_encode_ne hundashed
    rw [Utf8.encode, String.toList_ofList] at hhead
    have hone : Utf8.encodeChars [letter] = first :: tail := by
      show Utf8.encodeChar letter ++ [] = _
      rw [List.append_nil, hform]
    rw [hone] at hhead
    exact fun h => hhead (congrArg some h)
  -- With a second byte that is no dash, the bytes behind the first are taken for letters.
  obtain ⟨p, hp, hpieces⟩ := Utf8.pieces_encodeChar letter (Utf8.encodeChars rest)
  rw [hform, List.cons_append] at hpieces
  rw [hbytes]
  unfold readArgument
  rw [free, if_neg (by simp)]
  split
  · rename_i heq
    obtain ⟨-, heq⟩ := List.cons.inj heq
    exact absurd (List.cons.inj heq).1 hfirst
  · rename_i heq
    obtain ⟨-, heq⟩ := List.cons.inj heq
    exact absurd (List.cons.inj heq).1 hfirst
  · rename_i heq
    obtain ⟨-, heq⟩ := List.cons.inj heq
    obtain ⟨rfl, rfl⟩ := List.cons.inj heq
    rw [hpieces, readShort, hp]
    dsimp only
    rw [unknown]
  · rename_i hnot
    exact absurd rfl (hnot _ _)

/-! ## Options -/

/-- What stands behind two dashes is a long name, whatever it is. -/
theorem readArgument_long {l : Level} {body : Bytes} (free : l.trailing = false)
    (nonempty : body ≠ []) : l.readArgument g c isRoot (45 :: 45 :: body) = l.readLong c isRoot body := by
  unfold readArgument
  rw [free, if_neg (by simp)]
  split
  · rename_i heq
    obtain ⟨-, heq⟩ := List.cons.inj heq
    exact absurd (List.cons.inj heq).2 nonempty
  · rename_i heq
    obtain ⟨-, heq⟩ := List.cons.inj heq
    obtain ⟨-, rfl⟩ := List.cons.inj heq
    rfl
  · rename_i hlong heq
    obtain ⟨-, heq⟩ := List.cons.inj heq
    exact (hlong (List.cons.inj heq).1.symm).elim
  · rename_i hlong _
    exact absurd rfl (hlong _)

/-- A setting behind two dashes without a value waits for one. -/
theorem readArgument_bare {l l' : Level} {s : Setting} (offers : Offers c s)
    (free : l.trailing = false) (resolved : l.resolve = .ok l') :
    l.readArgument g c isRoot (bare s.long)
      = .ok { l' with pending? := some (.setting s none), awaiting := true } := by
  have htake : (Utf8.encode s.long).takeWhile (· != 61) = Utf8.encode s.long :=
    List.takeWhile_eq_self_iff.mpr (ne_of_notMem offers.named)
  rw [bare, readArgument_long free offers.nonempty]
  simp only [readLong, htake, List.drop_length, Utf8.decode?_encode, Option.bind_some, offers.found,
    resolved]
  rfl

/-- A setting and its value in one argument: the value is looked at at once, whatever it begins
with. -/
theorem readArgument_joined {l l' : Level} {s : Setting} (offers : Offers c s) (value : Bytes)
    (free : l.trailing = false) (resolved : l.resolve = .ok l') :
    l.readArgument g c isRoot (joined s.long value)
      = (addSetting s (some value) l'.given).map fun given =>
          { l' with given := given, awaiting := false } := by
  have htake : (Utf8.encode s.long ++ 61 :: value).takeWhile (· != 61) = Utf8.encode s.long :=
    takeWhile_ne_append offers.named value
  rw [joined, readArgument_long free (by simp)]
  simp only [readLong, htake, List.drop_left, Utf8.decode?_encode, Option.bind_some, offers.found,
    resolved]
  rfl

/-! ## All arguments of a command -/

/-- Looking at what is pending changes nothing but what has been given. -/
theorem resolve_eq {l l' : Level} (h : l.resolve = .ok l') :
    l' = { l with given := l'.given, pending? := none } := by
  unfold resolve at h
  split at h
  · rename_i hnone
    obtain rfl := Except.ok.inj h
    rw [← hnone]
  · obtain ⟨given, -, h⟩ := bind_eq_ok.mp h
    obtain rfl := Except.ok.inj h
    rfl
  · obtain ⟨value, -, h⟩ := bind_eq_ok.mp h
    obtain rfl := Except.ok.inj h
    rfl

theorem resolve_pending {l l' : Level} (h : l.resolve = .ok l') : l'.pending? = none := by
  rw [resolve_eq h]

theorem resolve_trailing {l l' : Level} (h : l.resolve = .ok l') : l'.trailing = l.trailing := by
  rw [resolve_eq h]

theorem resolve_next {l l' : Level} (h : l.resolve = .ok l') : l'.next = l.next := by
  rw [resolve_eq h]

theorem resolve_idle {l : Level} (h : l.pending? = none) : l.resolve = .ok l := by
  rw [resolve, h]

theorem addSetting_repeatable {s : Setting} (repeatable : s.repeatable = true) (raw : Bytes)
    (given : Given) :
    addSetting s (some raw) given
      = (readValue s.label s.kind raw).map fun v => given.withValues s [v] := by
  unfold addSetting
  rw [repeatable]
  dsimp only
  rw [if_neg (by simp)]
  cases readValue s.label s.kind raw with
  | error e => rfl
  | ok v => rfl

/-- Nothing is pending, and the next argument is an option, an operand, or the end of options. -/
structure Idle (l : Level) : Prop where
  pending : l.pending? = none
  awaiting : l.awaiting = false
  free : l.trailing = false

theorem idle_start : Idle start := ⟨rfl, rfl, rfl⟩

/-- The values of a setting that can be repeated are read in order. -/
theorem readAll_joined_append {l : Level} {s : Setting} (offers : Offers c s)
    (repeatable : s.repeatable = true) (idle : l.Idle) (raws rest : List Bytes) :
    readAll g c l (raws.map (joined s.long) ++ rest)
      = raws.mapM (readValue s.label s.kind) >>= fun values =>
          readAll g c { l with given := l.given.withValues s values } rest := by
  -- Each value leaves the level idle, with one more value given.
  induction raws generalizing l with
  | nil =>
      simp only [List.map_nil, List.nil_append, List.mapM_nil, pure_bind, Given.withValues_nil]
  | cons raw raws ih =>
      rw [List.map_cons, List.cons_append, readAll,
        readArgument_joined offers raw idle.free (resolve_idle idle.pending),
        addSetting_repeatable repeatable, List.mapM_cons]
      cases readValue s.label s.kind raw with
      | error e => rfl
      | ok v =>
          have hnext : ({ l with given := l.given.withValues s [v], awaiting := false } : Level).Idle :=
            ⟨idle.pending, rfl, idle.free⟩
          refine (ih hnext).trans ?_
          cases raws.mapM (readValue s.label s.kind) with
          | error e => rfl
          | ok values =>
              show readAll g c { l with given := _, awaiting := false } rest = _
              rw [Given.withValues_withValues, ← idle.awaiting]
              rfl

/-- So they are behind whatever is pending. -/
theorem readAll_joined {l l' : Level} {s : Setting} (offers : Offers c s)
    (repeatable : s.repeatable = true) (free : l.trailing = false) (resolved : l.resolve = .ok l')
    (raws : List Bytes) :
    (readAll g c l (raws.map (joined s.long))).map Level.given
      = (raws.mapM (readValue s.label s.kind)).map (l'.given.withValues s) := by
  -- The first value, or the end, resolves what is pending; from there on the level is idle.
  cases raws with
  | nil =>
      rw [List.map_nil, readAll, resolved, List.mapM_nil]
      show Except.ok l'.given = .ok (l'.given.withValues s [])
      rw [Given.withValues_nil]
  | cons raw raws =>
      rw [List.map_cons, readAll, readArgument_joined offers raw free resolved,
        addSetting_repeatable repeatable, List.mapM_cons]
      cases readValue s.label s.kind raw with
      | error e => rfl
      | ok v =>
          have hpending : l'.pending? = none := resolve_pending resolved
          have hfree : l'.trailing = false := (resolve_trailing resolved).trans free
          have hnext :
              ({ l' with given := l'.given.withValues s [v], awaiting := false } : Level).Idle :=
            ⟨hpending, rfl, hfree⟩
          have hrest := readAll_joined_append (g := g) offers repeatable hnext raws []
          rw [List.append_nil] at hrest
          show (readAll g c _ _).map Level.given = _
          rw [hrest]
          cases raws.mapM (readValue s.label s.kind) with
          | error e => rfl
          | ok values =>
              show (resolve _).map Level.given = _
              rw [resolve_idle (by exact hpending), Given.withValues_withValues]
              rfl

/-! ## A setting at the end -/

section

variable {l l' : Level} {s : Setting}

theorem readAll_joined_last (offers : Offers c s) (value : Bytes) (free : l.trailing = false)
    (resolved : l.resolve = .ok l') :
    (l.readAll g c [joined s.long value]).map Level.given
      = addSetting s (some value) l'.given := by
  have hpending : l'.pending? = none := resolve_pending resolved
  rw [readAll, readArgument_joined offers value free resolved]
  cases addSetting s (some value) l'.given with
  | error e => rfl
  | ok given =>
      show (resolve _).map Level.given = _
      rw [resolve_idle (by exact hpending)]
      rfl

/-- A value of its own argument gives the same, unless it begins with a dash. -/
theorem readAll_bare_last (offers : Offers c s) {value : Bytes} (undashed : Undashed value)
    (free : l.trailing = false) (resolved : l.resolve = .ok l') :
    (l.readAll g c [bare s.long, value]).map Level.given = addSetting s (some value) l'.given := by
  have hfree : l'.trailing = false := (resolve_trailing resolved).trans free
  rw [readAll, readArgument_bare offers free resolved]
  show (readAll g c { l' with pending? := some (.setting s none), awaiting := true } [value]).map
    Level.given = _
  rw [readAll, readArgument_value undashed (by exact hfree) rfl rfl]
  show (addSetting s (some value) l'.given >>= _).map Level.given = _
  cases addSetting s (some value) l'.given with
  | error e => rfl
  | ok given => rfl

/-- Then a letter is looked for, and if there is none the value is no argument. -/
theorem readAll_bare_letter (offers : Offers c s) {letter : Char} {rest : List Char}
    (free : l.trailing = false) (resolved : l.resolve = .ok l') (hletter : letter ≠ '-')
    (unknown : c.withShort? letter = none) :
    l.readAll g c [bare s.long, Utf8.encode (String.ofList ('-' :: letter :: rest))]
      = .error (.fault (.unknownArgument (String.ofList ['-', letter]))) := by
  have hfree : l'.trailing = false := (resolve_trailing resolved).trans free
  rw [readAll, readArgument_bare offers free resolved]
  show readAll g c { l' with pending? := some (.setting s none), awaiting := true } _ = _
  rw [readAll, readArgument_letter (by exact hfree) hletter unknown]
  rfl

end

/-! ## The program's own arguments -/

/-- An argument that names no command, or stands where a value does. -/
theorem readRoot_cons {l next : Level} {a : Bytes} (own : l.awaiting = true ∨ g.command? a = none)
    (h : l.readArgument g g.root true a = .ok next) (rest : List Bytes) :
    l.readRoot g (a :: rest) = next.readRoot g rest := by
  have hnone : (if (l.trailing || l.awaiting) = true then none else g.command? a) = none := by
    rcases own with hawaiting | hcommand
    · rw [hawaiting, Bool.or_true, if_pos rfl]
    · rw [hcommand, ite_self]
  rw [readRoot, hnone]
  dsimp only
  rw [h]
  rfl

theorem readRoot_append {l l' : Level} {front : List Bytes}
    (h : l.readRoot g front = .ok (l', none)) (rest : List Bytes) :
    l.readRoot g (front ++ rest) = l'.readRoot g rest := by
  induction front generalizing l with
  | nil =>
      obtain ⟨rfl, -⟩ := Prod.mk.inj (Except.ok.inj h)
      rfl
  | cons a front ih =>
      rw [readRoot] at h
      rw [List.cons_append, readRoot]
      split at h
      · cases h
      · obtain ⟨next, hnext, h⟩ := bind_eq_ok.mp h
        rw [hnext]
        exact ih h

end Level

/-! ## The whole line -/

/-- The program's own arguments `front` are in order and complete with the variables of `env`; they
give `program`. -/
structure Opens (env : Environment) (g : Grammar) (front : List Bytes) (program : Given) : Prop where
  read : ∃ l l', Level.start.readRoot g front = .ok (l, none) ∧ l.trailing = false
    ∧ l.awaiting = false ∧ l.resolve = .ok l'
    ∧ addVariables env g.root.settings l'.given = .ok program
  complete : wantComplete g.root program = .ok ()

/-- Behind them, all depends on the command. -/
theorem parse_command {env : Environment} {g : Grammar} {front : List Bytes} {program : Given}
    (opens : Opens env g front program) {name : Bytes} {c : Command}
    (found : g.command? name = some c) (own : c.name ≠ helpCommand.name) (rest : List Bytes) :
    parse env g (front ++ name :: rest)
      = ((Level.start.readAll g c rest).map Level.given >>= fun given => do
          wantComplete c given
          pure ⟨program, c, given⟩) := by
  obtain ⟨l, l', hread, free, awaiting, resolved, hvariables⟩ := opens.read
  have hroot : Level.start.readRoot g (front ++ name :: rest) = .ok (l, some (c, rest)) := by
    rw [Level.readRoot_append hread, Level.readRoot, free, awaiting]
    simp only [Bool.or_self, Bool.false_eq_true, if_false, found]
  unfold parse
  rw [hroot]
  dsimp only [bind, Except.bind]
  rw [if_neg own]
  cases Level.start.readAll g c rest with
  | error h => rfl
  | ok level =>
      dsimp only [Except.map]
      cases wantComplete c level.given with
      | error h => rfl
      | ok done =>
          dsimp only
          rw [resolved]
          dsimp only
          rw [hvariables]
          dsimp only
          rw [opens.complete]

end CommandLine

end PowerBench
