import PowerBench.Proofs.DecimalText
import PowerBench.Proofs.FractionalTime
import PowerBench.Proofs.TimestampText

set_option autoImplicit false

/-! # Integer texts as times

An integer, with blanks around it, is a time as long as it has 64 bits. Beyond them it is tried as a
fractional number, which is rounded to a value before it is compared with the range. Above the range
every value is out of it, but the 1024 integers just below the range are rounded to its lower end, which
is a value, and so they are taken for it (`integer_time`).
-/

namespace PowerBench

/-- The text denotes the integer: it is decimal digits, as many as there are, behind at most one sign. -/
inductive DenotesInteger : List Char → Int → Prop
  | unsigned {ds : List Char} (nonempty : ds ≠ []) (digits : ∀ c ∈ ds, c.isDigit = true) :
      DenotesInteger ds (Nat.ofDigitChars 10 ds 0)
  | plus {ds : List Char} (nonempty : ds ≠ []) (digits : ∀ c ∈ ds, c.isDigit = true) :
      DenotesInteger ('+' :: ds) (Nat.ofDigitChars 10 ds 0)
  | minus {ds : List Char} (nonempty : ds ≠ []) (digits : ∀ c ∈ ds, c.isDigit = true) :
      DenotesInteger ('-' :: ds) (-Nat.ofDigitChars 10 ds 0)

/-- The text denotes the integer, and there may be blanks before and behind it. -/
def IntegerText (s : String) (z : Int) : Prop :=
  ∃ front body back, s.toList = front ++ (body ++ back) ∧ (∀ c ∈ front, isBlank c = true)
    ∧ (∀ c ∈ back, isBlank c = true) ∧ DenotesInteger body z

/-! ## Read as an integer -/

/-- Digits are read exactly if their number stays within the limit. -/
theorem accumulateDigits_eq_ok_iff {limit n : Nat} {overflow : NumeralError} {ds : List Char}
    (digits : ∀ c ∈ ds, c.isDigit = true) :
    accumulateDigits limit overflow 0 ds = .ok n
      ↔ n = Nat.ofDigitChars 10 ds 0 ∧ Nat.ofDigitChars 10 ds 0 ≤ limit := by
  constructor
  · intro h
    obtain ⟨-, rfl, hle⟩ := of_accumulateDigits (Nat.zero_le limit) h
    exact ⟨rfl, hle⟩
  · rintro ⟨rfl, hle⟩
    exact accumulateDigits_eq_ok digits hle

/-- An integer is read exactly if it is in the range. -/
theorem readInteger_eq_ok_iff {below : Nat} (above : Nat) (hbelow : below ≠ 0) {cs : List Char} {z n : Int}
    (h : DenotesInteger cs z) :
    readInteger below above cs = .ok n ↔ n = z ∧ -(below : Int) ≤ z ∧ z ≤ above := by
  cases h with
  | unsigned nonempty digits =>
      rw [readInteger_of_digits nonempty digits, map_eq_ok]
      simp only [accumulateDigits_eq_ok_iff digits]
      constructor
      · rintro ⟨m, ⟨rfl, hle⟩, rfl⟩
        exact ⟨rfl, by omega, by omega⟩
      · rintro ⟨rfl, -, hle⟩
        exact ⟨_, ⟨rfl, by omega⟩, rfl⟩
  | plus nonempty digits =>
      rw [readInteger, if_neg (by simpa using nonempty), map_eq_ok]
      simp only [accumulateDigits_eq_ok_iff digits]
      constructor
      · rintro ⟨m, ⟨rfl, hle⟩, rfl⟩
        exact ⟨rfl, by omega, by omega⟩
      · rintro ⟨rfl, -, hle⟩
        exact ⟨_, ⟨rfl, by omega⟩, rfl⟩
  | minus nonempty digits =>
      rw [readInteger, if_neg (by simpa [hbelow] using nonempty), map_eq_ok]
      simp only [accumulateDigits_eq_ok_iff digits]
      constructor
      · rintro ⟨m, ⟨rfl, hle⟩, rfl⟩
        exact ⟨rfl, by omega, by omega⟩
      · rintro ⟨rfl, hle, -⟩
        exact ⟨_, ⟨rfl, by omega⟩, rfl⟩

theorem readInt64_eq_ok_iff {cs : List Char} {z n : Int} (h : DenotesInteger cs z) :
    readInt64 cs = .ok n ↔ n = z ∧ -2 ^ 63 ≤ z ∧ z < 2 ^ 63 := by
  have hread := readInteger_eq_ok_iff (n := n) (Nat.pow 2 63 - 1)
    (by decide : Nat.pow 2 63 ≠ 0) h
  rw [readInt64, hread]
  simp only [Nat.pow_eq]
  omega

/-! ## Read as a number -/

namespace Binary64

/-- An integer that is not zero is read as the value nearest to it, if that is finite. -/
theorem readFinite?_of_integer {cs : List Char} {z : Int} (h : DenotesInteger cs z) (hz : z ≠ 0) :
    readFinite? cs = (some (ofInt z)).filter isFinite := by
  have hread : ∀ {cs ds : List Char} {negative : Bool}, ds ≠ [] → (∀ c ∈ ds, c.isDigit = true) →
      splitSign cs = (negative, ds) →
      read? cs = some (ofRatio negative (Nat.ofDigitChars 10 ds 0) 1) := by
    intro cs ds negative nonempty digits hsign
    have hdecimal : ∀ c ∈ ds, isDecimalDigit c = true :=
      fun c hc => isDecimalDigit_of_isDigit (digits c hc)
    obtain ⟨d, rest, rfl⟩ := List.exists_cons_of_ne_nil nonempty
    rw [read?_of_digit hsign (hdecimal d List.mem_cons_self),
      Decimal.readUnsigned?_of_digits negative nonempty hdecimal, Option.map_some, toBinary64_whole]
  rw [readFinite?]
  congr 1
  cases h with
  | unsigned nonempty digits =>
      have hsign : splitSign cs = (false, cs) := by
        obtain ⟨d, rest, rfl⟩ := List.exists_cons_of_ne_nil nonempty
        exact splitSign_of_digit (isDecimalDigit_of_isDigit (digits d List.mem_cons_self))
      rw [hread nonempty digits hsign, ofInt, decide_eq_false (by omega), Int.natAbs_natCast]
  | plus nonempty digits =>
      rw [hread nonempty digits rfl, ofInt, decide_eq_false (by omega), Int.natAbs_natCast]
  | minus nonempty digits =>
      rw [hread nonempty digits rfl, ofInt, decide_eq_true (by omega), Int.natAbs_neg,
        Int.natAbs_natCast]

/-- What a finite value near an integer is rounded to. -/
theorem roundToInt_ofInt {z : Int} (finite : (ofInt z).isFinite = true) :
    (ofInt z).roundToInt
      = if z < 0 then
          -(roundHalfUp (unitsOfCode (nearestCode (z.natAbs * unitsPerOne) 1)) unitsPerOne : ℤ)
        else roundHalfUp (unitsOfCode (nearestCode (z.natAbs * unitsPerOne) 1)) unitsPerOne := by
  have hcode : nearestCode (z.natAbs * unitsPerOne) 1 < infinityCode := by
    by_contra hlarge
    have hcode : (ofInt z).code = infinityCode := by
      rw [ofInt, ofRatio, Nat.min_eq_right (by omega), code_ofCode _ infinityCode_lt]
    simp [isFinite, hcode] at finite
  have hlt := hcode.trans infinityCode_lt
  rw [roundToInt, units, ofInt, ofRatio, Nat.min_eq_left hcode.le, isNegative_ofCode _ hlt,
    code_ofCode _ hlt]
  simp only [decide_eq_true_eq]

section

variable {z : Int} (finite : (ofInt z).isFinite = true)

include finite

/-- An integer above the range is rounded to one above the range. -/
theorem roundToInt_above (h : 2 ^ 63 ≤ z) : 2 ^ 63 ≤ (ofInt z).roundToInt := by
  have hedge : edgeCode ≤ nearestCode (z.natAbs * unitsPerOne) 1 := by
    apply le_nearestCode Nat.one_pos
    rw [unitsOfCode_edge, Nat.mul_one]
    exact Nat.mul_le_mul_right _ (by omega)
  have hround := roundHalfUp_mono unitsPerOne (unitsOfCode_mono hedge)
  rw [unitsOfCode_edge, roundHalfUp_self unitsPerOne_pos] at hround
  rw [roundToInt_ofInt finite, if_neg (by omega)]
  exact_mod_cast hround

/-- An integer far enough below the range is rounded to one below the range. -/
theorem roundToInt_below (h : z < -2 ^ 63 - 1024) : (ofInt z).roundToInt < -2 ^ 63 := by
  have hedge : edgeCode + 1 ≤ nearestCode (z.natAbs * unitsPerOne) 1 :=
    edge_lt_nearestCode (by omega)
  have hround := roundHalfUp_mono unitsPerOne (unitsOfCode_mono hedge)
  rw [unitsOfCode_edge_next, roundHalfUp_self unitsPerOne_pos] at hround
  rw [roundToInt_ofInt finite, if_pos (by omega)]
  generalize roundHalfUp _ unitsPerOne = n at hround
  omega

end

/-- An integer just below the range is rounded to the lower end of the range. -/
theorem roundToInt_edge {z : Int} (low : -2 ^ 63 - 1024 ≤ z) (high : z ≤ -2 ^ 63) :
    (ofInt z).isFinite = true ∧ (ofInt z).roundToInt = -2 ^ 63 := by
  have hedge : nearestCode (z.natAbs * unitsPerOne) 1 = edgeCode :=
    nearestCode_edge (by omega) (by omega)
  have hfinite : (ofInt z).isFinite = true := by
    rw [ofInt_edge (by omega) (by omega)]
    exact isFinite_ofCode edgeCode_lt_infinity _
  refine ⟨hfinite, ?_⟩
  rw [roundToInt_ofInt hfinite, if_pos (by omega), hedge, unitsOfCode_edge,
    roundHalfUp_self unitsPerOne_pos]
  rfl

end Binary64

/-! ## Not read as a date -/

namespace Timestamp

theorem literal_eq_none {c : Char} {cs : List Char} (h : c ∉ cs) : literal c cs = none := by
  cases cs with
  | nil => rfl
  | cons d ds =>
      rw [literal, if_neg]
      rintro rfl
      exact h List.mem_cons_self

theorem mem_of_number_rest {least most n : Nat} {cs rest : List Char} {c : Char}
    (h : number least most cs = some (n, rest)) (hc : c ∈ rest) : c ∈ cs := by
  unfold number at h
  dsimp only at h
  split at h
  · cases h
  · obtain ⟨-, rfl⟩ := Prod.mk.inj (Option.some.inj h)
    exact List.mem_of_mem_drop hc

theorem readWithOffset?_eq_none {cs : List Char}
    (h : ∀ y rest, number 4 4 cs = some (y, rest) → '-' ∉ rest) : readWithOffset? cs = none := by
  rw [readWithOffset?]
  cases hyear : number 4 4 cs with
  | none => rfl
  | some p =>
      show (literal '-' p.2 >>= _) = none
      rw [literal_eq_none (h p.1 p.2 hyear)]
      rfl

theorem readWithoutOffset?_eq_none (divider : List Char → Option (List Char)) {cs : List Char}
    (h : ∀ y rest, looseYear cs = some (y, rest) → '-' ∉ rest) :
    readWithoutOffset? divider cs = none := by
  rw [readWithoutOffset?]
  cases hyear : looseYear cs with
  | none => rfl
  | some p =>
      show (literal '-' p.2 >>= _) = none
      rw [literal_eq_none (h p.1 p.2 hyear)]
      rfl

/-- Behind its sign an integer has no dash, and a date has one behind its year. -/
theorem readInstant?_of_integer {cs : List Char} {z : Int} (h : DenotesInteger cs z) :
    readInstant? cs = none := by
  have hdash : ∀ {ds : List Char}, (∀ c ∈ ds, c.isDigit = true) → '-' ∉ ds :=
    fun digits hmem => absurd (digits _ hmem) (by decide)
  have hmap : ∀ {least most : Nat} {ds rest : List Char} {y : Int} (f : Nat → Int),
      (∀ c ∈ ds, c.isDigit = true) →
      (number least most ds).map (fun p => (f p.1, p.2)) = some (y, rest) → '-' ∉ rest := by
    intro least most ds rest y f digits h hmem
    obtain ⟨⟨n, left⟩, hnumber, hpair⟩ := Option.map_eq_some_iff.mp h
    obtain ⟨-, rfl⟩ := Prod.mk.inj hpair
    exact hdash digits (mem_of_number_rest hnumber hmem)
  have hparts : (∀ y rest, number 4 4 cs = some (y, rest) → '-' ∉ rest)
      ∧ ∀ y rest, looseYear cs = some (y, rest) → '-' ∉ rest := by
    cases h with
    | unsigned nonempty digits =>
        refine ⟨fun y rest hnumber hmem => hdash digits (mem_of_number_rest hnumber hmem), ?_⟩
        intro y rest hyear
        obtain ⟨d, ds, rfl⟩ := List.exists_cons_of_ne_nil nonempty
        rw [looseYear_of_digit ds (digits d List.mem_cons_self)] at hyear
        exact hmap Int.ofNat digits hyear
    | plus nonempty digits =>
        refine ⟨nofun, fun y rest hyear => ?_⟩
        exact hmap Int.ofNat digits hyear
    | minus nonempty digits =>
        refine ⟨nofun, fun y rest hyear => ?_⟩
        exact hmap (fun n => -Int.ofNat n) digits hyear
  rw [readInstant?, readWithOffset?_eq_none hparts.1, readWithoutOffset?_eq_none _ hparts.2,
    readWithoutOffset?_eq_none _ hparts.2]
  rfl

/-! ## Times -/

theorem trimBlanks_of_integer {cs : List Char} {z : Int} (h : DenotesInteger cs z) :
    trimBlanks cs = cs := by
  have hall : ∀ c ∈ cs, isBlank c = false := by
    have hdigits : ∀ {ds : List Char}, (∀ c ∈ ds, c.isDigit = true) →
        ∀ c ∈ ds, isBlank c = false := fun digits c hc => isBlank_of_isDigit (digits c hc)
    cases h with
    | unsigned nonempty digits => exact hdigits digits
    | plus nonempty digits => exact List.forall_mem_cons.mpr ⟨rfl, hdigits digits⟩
    | minus nonempty digits => exact List.forall_mem_cons.mpr ⟨rfl, hdigits digits⟩
  exact trimEnds_of_ends (fun c hc => hall c (List.mem_of_mem_head? hc))
    fun c hc => hall c (List.mem_of_mem_getLast? hc)

theorem trimBlanks_denotes {s : String} {z : Int} (h : IntegerText s z) :
    DenotesInteger (trimBlanks s.toList) z := by
  obtain ⟨front, body, back, hs, hfront, hback, hbody⟩ := h
  rw [hs, trimBlanks, trimEnds_between hfront hback]
  rw [← trimBlanks_of_integer hbody] at hbody
  exact hbody

section

variable {s : String} {z : Int} (h : IntegerText s z)

include h

theorem read_of_integer (low : -2 ^ 63 ≤ z) (high : z < 2 ^ 63) : read s = .ok (.nanos z) := by
  have hbody := trimBlanks_denotes h
  unfold read
  dsimp only
  rw [(readInt64_eq_ok_iff hbody).mpr ⟨rfl, low, high⟩]

/-- Any other is read as the value nearest to it, if that is finite. -/
theorem read_of_large_integer (outside : z < -2 ^ 63 ∨ 2 ^ 63 ≤ z) :
    read s = if (Binary64.ofInt z).isFinite = true then .ok (.fractional (.ofInt z))
      else .error ⟨.string, s⟩ := by
  have hbody := trimBlanks_denotes h
  unfold read
  dsimp only
  rw [Binary64.readFinite?_of_integer hbody (by omega), readInstant?_of_integer hbody]
  cases hread : readInt64 (trimBlanks s.toList) with
  | ok n =>
      obtain ⟨-, low, high⟩ := (readInt64_eq_ok_iff hbody).mp hread
      omega
  | error e =>
      by_cases finite : (Binary64.ofInt z).isFinite = true
      · rw [if_pos finite, Option.filter_some, if_pos finite]
      · rw [if_neg finite, Option.filter_some, if_neg finite]

/-- **Integer times.** An integer of 64 bits is its own time. Of the others the 1024 next below the
range are taken for the lower end of it, and the rest are refused. -/
theorem integer_time :
    (-2 ^ 63 ≤ z ∧ z < 2 ^ 63 → (read s >>= normalize) = .ok z)
      ∧ (-2 ^ 63 - 1024 ≤ z ∧ z < -2 ^ 63 → (read s >>= normalize) = .ok (-2 ^ 63))
      ∧ (z < -2 ^ 63 - 1024 ∨ 2 ^ 63 ≤ z → ∃ bad, (read s >>= normalize) = .error bad) := by
  refine ⟨fun hrange => ?_, fun hedge => ?_, fun houtside => ?_⟩
  -- Only the first case is settled as an integer. The others are compared after they have been rounded.
  · rw [read_of_integer h hrange.1 hrange.2]
    rfl
  · obtain ⟨finite, hround⟩ := Binary64.roundToInt_edge hedge.1 hedge.2.le
    rw [read_of_large_integer h (.inl hedge.2), if_pos finite, ok_bind, normalize_fractional, hround,
      if_pos ⟨finite, le_rfl, by omega⟩]
  · rw [read_of_large_integer h (by omega)]
    by_cases finite : (Binary64.ofInt z).isFinite = true
    · refine ⟨⟨.float, (Binary64.ofInt z).plain⟩, ?_⟩
      rw [if_pos finite, ok_bind, normalize_fractional, if_neg]
      -- On both sides the rounded value stays outside.
      rintro ⟨-, hlow, hhigh⟩
      rcases houtside with hbelow | habove
      · have := Binary64.roundToInt_below finite hbelow
        omega
      · have := Binary64.roundToInt_above finite habove
        omega
    · rw [if_neg finite]
      exact ⟨_, rfl⟩

end

/-- The largest integer of 64 bits, with zeros, a sign and blanks. -/
theorem integer_time_largest :
    IntegerText "\t+0009223372036854775807 \n" (2 ^ 63 - 1)
      ∧ (read "\t+0009223372036854775807 \n" >>= normalize) = .ok (2 ^ 63 - 1) := by
  have text : IntegerText "\t+0009223372036854775807 \n" (2 ^ 63 - 1) := by
    have number : DenotesInteger "+0009223372036854775807".toList
        (Nat.ofDigitChars 10 "0009223372036854775807".toList 0) :=
      .plus (by decide) (List.all_eq_true.mp (by decide))
    have value : (Nat.ofDigitChars 10 "0009223372036854775807".toList 0 : Int) = 2 ^ 63 - 1 := by
      decide
    rw [value] at number
    exact ⟨['\t'], _, [' ', '\n'], by decide, List.all_eq_true.mp rfl, List.all_eq_true.mp rfl, number⟩
  exact ⟨text, (integer_time text).1 (by decide)⟩

/-- The integer next below the range is taken for the lower end of the range. -/
theorem integer_below_range_replaced :
    IntegerText "-9223372036854775809" (-2 ^ 63 - 1)
      ∧ (read "-9223372036854775809" >>= normalize) = .ok (-2 ^ 63) := by
  refine ⟨⟨[], "-9223372036854775809".toList, [], by decide, by simp, by simp, ?_⟩, ?_⟩
  · have number : DenotesInteger "-9223372036854775809".toList
        (-Nat.ofDigitChars 10 "9223372036854775809".toList 0) :=
      .minus (by decide) (List.all_eq_true.mp (by decide))
    have value : (-Nat.ofDigitChars 10 "9223372036854775809".toList 0 : Int) = -2 ^ 63 - 1 := by
      decide
    rwa [value] at number
  · decide +kernel

end Timestamp

end PowerBench
