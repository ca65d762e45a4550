import PowerBench.Path

set_option autoImplicit false

/-! # ASCII text

The UTF-8 form of an ASCII text has one byte for each character. Lossy reading makes an ASCII
character of no other bytes (`front_of_ascii`), so a path that is shown as an ASCII text has the
bytes of that text (`Path.eq_ofText_of_shown`).
-/

namespace PowerBench

def IsAscii (c : Char) : Prop := c.toNat < 0x80

instance (c : Char) : Decidable (IsAscii c) := inferInstanceAs (Decidable (c.toNat < 0x80))

/-- A text of which a look at every character shows that it is ASCII. -/
theorem ascii_of_all {cs : List Char} (h : (cs.all fun c => decide (IsAscii c)) = true) :
    ∀ c ∈ cs, IsAscii c := fun c hc => of_decide_eq_true (List.all_eq_true.mp h c hc)

namespace Utf8

/-! ## Writing -/

theorem encodeChar_of_ascii {c : Char} (h : IsAscii c) : encodeChar c = [UInt8.ofNat c.toNat] := by
  unfold IsAscii at h
  simp [encodeChar, h]

theorem encodeChars_of_ascii {cs : List Char} (h : ∀ c ∈ cs, IsAscii c) :
    encodeChars cs = cs.map fun c => UInt8.ofNat c.toNat := by
  induction cs with
  | nil => rfl
  | cons c rest ih =>
      have hrest := ih fun x hx => h x (List.mem_cons_of_mem _ hx)
      rw [encodeChars, List.flatMap_cons, encodeChar_of_ascii (h c List.mem_cons_self)]
      exact congrArg (UInt8.ofNat c.toNat :: ·) hrest

theorem length_encodeChars_of_ascii {cs : List Char} (h : ∀ c ∈ cs, IsAscii c) :
    (encodeChars cs).length = cs.length := by
  rw [encodeChars_of_ascii h, List.length_map]

theorem encodeChars_take_of_ascii {cs : List Char} (h : ∀ c ∈ cs, IsAscii c) (n : Nat) :
    encodeChars (cs.take n) = (encodeChars cs).take n := by
  have htake : ∀ c ∈ cs.take n, IsAscii c := fun c hc => h c (List.mem_of_mem_take hc)
  rw [encodeChars_of_ascii htake, encodeChars_of_ascii h, List.map_take]

/-! ## Reading -/

/-- The code point of a character made from a code point. -/
theorem toNat_ofNat_of_valid {n : Nat} (h : n.isValidChar) : (Char.ofNat n).toNat = n := by
  rw [Char.ofNat, dif_pos h]
  rfl

/-- A code point above ASCII that is no surrogate makes a character above ASCII. -/
theorem not_ascii_ofNat {n : Nat} (hlow : 0x80 ≤ n)
    (hvalid : n < 0xD800 ∨ 0xDFFF < n ∧ n < 0x110000) : ¬ IsAscii (Char.ofNat n) := by
  have hn : (Char.ofNat n).toNat = n := toNat_ofNat_of_valid hvalid
  unfold IsAscii
  omega

/-- The bounds that the second byte of a character of three or four bytes keeps. -/
theorem isSecond_bounds {first second : UInt8} (h : isSecond first second = true) :
    0x80 ≤ second.toNat ∧ second.toNat ≤ 0xBF
      ∧ (first.toNat = 0xE0 → 0xA0 ≤ second.toNat) ∧ (first.toNat = 0xED → second.toNat ≤ 0x9F)
      ∧ (first.toNat = 0xF0 → 0x90 ≤ second.toNat)
      ∧ (first.toNat = 0xF4 → second.toNat ≤ 0x8F) := by
  have heq : ∀ k : UInt8, (first == k) = true ↔ first.toNat = k.toNat := by
    intro k
    rw [beq_iff_eq, UInt8.toNat_inj]
  have hrange : ∀ low high : UInt8, (decide (low ≤ second) && decide (second ≤ high)) = true
      ↔ low.toNat ≤ second.toNat ∧ second.toNat ≤ high.toNat := by
    intro low high
    simp [UInt8.le_iff_toNat_le]
  simp only [isSecond, isTail, heq, UInt8.reduceToNat] at h
  -- Each first byte with bounds of its own has one branch, and all others share the last.
  repeat' split at h
  all_goals
    have hbounds := (hrange _ _).mp h
    simp only [UInt8.reduceToNat] at hbounds
    omega

/-- The bounds of a continuation byte. -/
theorem isTail_bounds {b : UInt8} (h : isTail b = true) : 0x80 ≤ b.toNat ∧ b.toNat ≤ 0xBF := by
  simpa [isTail, UInt8.le_iff_toNat_le] using h

/-- The character that a byte string begins with, by the number of its bytes, and how many bytes follow
its first one. -/
inductive BeginsWith (first : UInt8) : Bytes → Char → Nat → Prop where
  | one (rest : Bytes) (high : first.toNat < 0x80) :
      BeginsWith first rest (Char.ofNat first.toNat) 0
  | two {b : UInt8} (rest : Bytes) (low : 0xC2 ≤ first.toNat) (high : first.toNat ≤ 0xDF)
      (tail : isTail b = true) :
      BeginsWith first (b :: rest) (Char.ofNat (first.toNat % 0x20 * 0x40 + tailBits b)) 1
  | three {b c : UInt8} (rest : Bytes) (low : 0xE0 ≤ first.toNat) (high : first.toNat ≤ 0xEF)
      (second : isSecond first b = true) (tail : isTail c = true) :
      BeginsWith first (b :: c :: rest)
        (Char.ofNat ((first.toNat % 0x10 * 0x40 + tailBits b) * 0x40 + tailBits c)) 2
  | four {b c d : UInt8} (rest : Bytes) (low : 0xF0 ≤ first.toNat) (high : first.toNat ≤ 0xF4)
      (second : isSecond first b = true) (third : isTail c = true) (tail : isTail d = true) :
      BeginsWith first (b :: c :: d :: rest)
        (Char.ofNat
          (((first.toNat % 0x08 * 0x40 + tailBits b) * 0x40 + tailBits c) * 0x40 + tailBits d)) 3

/-- A piece that is a character is one of these. -/
theorem beginsWith_of_front {first : UInt8} {rest : Bytes} {ch : Char}
    (h : (front first rest).char? = some ch) :
    BeginsWith first rest ch (front first rest).extra := by
  have hbounds : ∀ {low high : UInt8}, (decide (low ≤ first) && decide (first ≤ high)) = true
      → low.toNat ≤ first.toNat ∧ first.toNat ≤ high.toNat := by
    intro low high
    simp [UInt8.le_iff_toNat_le]
  revert h
  -- Four of the cases are characters, one for each number of bytes; the others are broken.
  fun_cases front first rest with
  | case1 rest hone =>
      rintro ⟨⟩
      exact .one rest (UInt8.lt_iff_toNat_lt.mp hone)
  | case2 _ htwo b rest tail =>
      rintro ⟨⟩
      exact .two rest (hbounds htwo).1 (hbounds htwo).2 tail
  | case7 _ _ hthree b c rest second tail =>
      rintro ⟨⟩
      exact .three rest (hbounds hthree).1 (hbounds hthree).2 (by simpa using second)
        (by simpa using tail)
  | case14 _ _ _ hfour b c d rest second third tail =>
      rintro ⟨⟩
      exact .four rest (hbounds hfour).1 (hbounds hfour).2 (by simpa using second)
        (by simpa using third) (by simpa using tail)
  | _ => rintro ⟨⟩

theorem not_ascii_twoBytes {first b : UInt8} (hlow : 0xC2 ≤ first.toNat) (hhigh : first.toNat ≤ 0xDF) :
    ¬ IsAscii (Char.ofNat (first.toNat % 0x20 * 0x40 + tailBits b)) := by
  have htail : tailBits b < 0x40 := Nat.mod_lt _ (by decide)
  exact not_ascii_ofNat (by omega) (by omega)

theorem not_ascii_threeBytes {first b c : UInt8} (hlow : 0xE0 ≤ first.toNat)
    (hhigh : first.toNat ≤ 0xEF) (hsecond : isSecond first b = true) :
    ¬ IsAscii (Char.ofNat ((first.toNat % 0x10 * 0x40 + tailBits b) * 0x40 + tailBits c)) := by
  have hlast : tailBits c < 0x40 := Nat.mod_lt _ (by decide)
  obtain ⟨hmin, hmax, hE0, hED, -, -⟩ := isSecond_bounds hsecond
  have hbits : tailBits b = b.toNat - 0x80 := by
    unfold tailBits
    omega
  refine not_ascii_ofNat ?_ ?_
  · omega
  · omega

theorem not_ascii_fourBytes {first b c d : UInt8} (hlow : 0xF0 ≤ first.toNat)
    (hhigh : first.toNat ≤ 0xF4) (hsecond : isSecond first b = true) :
    ¬ IsAscii (Char.ofNat
      (((first.toNat % 0x08 * 0x40 + tailBits b) * 0x40 + tailBits c) * 0x40 + tailBits d)) := by
  have hthird : tailBits c < 0x40 := Nat.mod_lt _ (by decide)
  have hlast : tailBits d < 0x40 := Nat.mod_lt _ (by decide)
  obtain ⟨hmin, hmax, -, -, hF0, hF4⟩ := isSecond_bounds hsecond
  have hbits : tailBits b = b.toNat - 0x80 := by
    unfold tailBits
    omega
  refine not_ascii_ofNat ?_ ?_
  · omega
  · omega

/-- An ASCII character at the front of a byte string is its first byte. -/
theorem front_of_ascii {first : UInt8} {rest : Bytes} {c : Char}
    (h : (front first rest).char? = some c) (hc : IsAscii c) :
    (front first rest).extra = 0 ∧ first = UInt8.ofNat c.toNat := by
  have hbegins := beginsWith_of_front h
  generalize (front first rest).extra = extra at hbegins ⊢
  cases hbegins with
  | one _ high =>
      refine ⟨rfl, ?_⟩
      rw [toNat_ofNat_of_valid (.inl (by omega)), UInt8.ofNat_toNat]
  | two _ low high => exact absurd hc (not_ascii_twoBytes low high)
  | three _ low high second => exact absurd hc (not_ascii_threeBytes low high second)
  | four _ low high second => exact absurd hc (not_ascii_fourBytes low high second)

theorem lossyChars_cons (b : UInt8) (rest : Bytes) :
    lossyChars (b :: rest)
      = (front b rest).char?.getD '\uFFFD' :: lossyChars (rest.drop (front b rest).extra) := by
  rw [lossyChars, pieces, List.map_cons]
  rfl

/-- Only the bytes of an ASCII text are read as that text. -/
theorem eq_encodeChars_of_lossyChars {bs : Bytes} (ascii : ∀ c ∈ lossyChars bs, IsAscii c) :
    bs = encodeChars (lossyChars bs) := by
  induction bs using pieces.induct with
  | case1 => simp [lossyChars, pieces, encodeChars]
  | case2 b rest ih =>
      rw [lossyChars_cons] at ascii ⊢
      have hfirst := ascii _ List.mem_cons_self
      cases hchar : (front b rest).char? with
      | none =>
          -- What is broken is shown as a character that is not ASCII.
          rw [hchar] at hfirst
          exact absurd hfirst (by decide)
      | some c =>
          rw [hchar, Option.getD_some] at hfirst
          obtain ⟨hextra, hb⟩ := front_of_ascii hchar hfirst
          rw [hextra, List.drop_zero] at ih ascii ⊢
          have hrest := ih fun x hx => ascii x (List.mem_cons_of_mem _ hx)
          have hone : encodeChar c = [b] := by rw [encodeChar_of_ascii hfirst, hb]
          calc b :: rest = encodeChar c ++ encodeChars (lossyChars rest) := by
                rw [hone, ← hrest, List.singleton_append]
            _ = encodeChars (c :: lossyChars rest) := rfl

end Utf8

theorem Path.toList_shown (p : Path) : p.shown.toList = Utf8.lossyChars p.bytes := by
  rw [shown, Utf8.lossy, String.toList_ofList]

/-- A path that is shown as an ASCII text has the bytes of that text. -/
theorem Path.eq_ofText_of_shown {p : Path} {s : String} (h : p.shown = s)
    (ascii : ∀ c ∈ s.toList, IsAscii c) : p = .ofText s := by
  have hchars : Utf8.lossyChars p.bytes = s.toList := by rw [← p.toList_shown, h]
  have hbytes : p.bytes = Utf8.encodeChars s.toList := by
    rw [← hchars]
    exact Utf8.eq_encodeChars_of_lossyChars (by rwa [hchars])
  exact congrArg Path.mk hbytes

end PowerBench
