import PowerBench.Proofs.AsciiText

set_option autoImplicit false

/-! # UTF-8 read back

The UTF-8 form of a character is one piece of a byte string, whatever follows it
(`front_encodeChar`), so the UTF-8 form of a text reads back as this text (`decode?_encode`). The
other way round a character is read from no bytes but its UTF-8 form (`BeginsWith.encodeChar_eq`), so
strict reading takes the UTF-8 forms of texts and nothing else (`decode?_eq_some`).
-/

namespace PowerBench.Utf8

/-! ## The forms of a character -/

theorem isTail_of_bounds {b : UInt8} (low : 0x80 ≤ b.toNat) (high : b.toNat ≤ 0xBF) :
    isTail b = true := by
  simp only [isTail, Bool.and_eq_true, decide_eq_true_eq, UInt8.le_iff_toNat_le, UInt8.reduceToNat]
  exact ⟨low, high⟩

/-- The second byte of a longer character, by the first one. -/
theorem isSecond_of_bounds {first second : UInt8} (low : 0x80 ≤ second.toNat)
    (high : second.toNat ≤ 0xBF) (hE0 : first.toNat = 0xE0 → 0xA0 ≤ second.toNat)
    (hED : first.toNat = 0xED → second.toNat ≤ 0x9F) (hF0 : first.toNat = 0xF0 → 0x90 ≤ second.toNat)
    (hF4 : first.toNat = 0xF4 → second.toNat ≤ 0x8F) : isSecond first second = true := by
  have heq : ∀ k : UInt8, (first == k) = true ↔ first.toNat = k.toNat := by
    intro k
    rw [beq_iff_eq, UInt8.toNat_inj]
  have hrange : ∀ least most : UInt8, least.toNat ≤ second.toNat → second.toNat ≤ most.toNat →
      (decide (least ≤ second) && decide (second ≤ most)) = true := by
    intro least most hl hm
    simp only [Bool.and_eq_true, decide_eq_true_eq, UInt8.le_iff_toNat_le]
    exact ⟨hl, hm⟩
  simp only [isSecond, isTail, heq, UInt8.reduceToNat]
  repeat' split
  all_goals
    refine hrange _ _ ?_ ?_
    all_goals
      simp only [UInt8.reduceToNat]
      omega

theorem front_one {first : UInt8} (rest : Bytes) (small : first.toNat < 0x80) :
    front first rest = ⟨some (Char.ofNat first.toNat), 0⟩ := by
  unfold front
  rw [if_pos (UInt8.lt_iff_toNat_lt.mpr small)]

theorem front_two {first b : UInt8} (rest : Bytes) (low : 0xC2 ≤ first.toNat)
    (high : first.toNat ≤ 0xDF) (tail : isTail b = true) :
    front first (b :: rest)
      = ⟨some (Char.ofNat (first.toNat % 0x20 * 0x40 + tailBits b)), 1⟩ := by
  unfold front
  simp only [UInt8.lt_iff_toNat_lt, UInt8.le_iff_toNat_le, UInt8.reduceToNat, tail]
  rw [if_neg (by omega), if_pos (by simp; omega)]
  rfl

theorem front_three {first b c : UInt8} (rest : Bytes) (low : 0xE0 ≤ first.toNat)
    (high : first.toNat ≤ 0xEF) (second : isSecond first b = true) (tail : isTail c = true) :
    front first (b :: c :: rest)
      = ⟨some (Char.ofNat ((first.toNat % 0x10 * 0x40 + tailBits b) * 0x40 + tailBits c)), 2⟩ := by
  unfold front
  simp only [UInt8.lt_iff_toNat_lt, UInt8.le_iff_toNat_le, UInt8.reduceToNat, second, tail]
  rw [if_neg (by omega), if_neg (by simp; omega), if_pos (by simp; omega)]
  rfl

theorem front_four {first b c d : UInt8} (rest : Bytes) (low : 0xF0 ≤ first.toNat)
    (high : first.toNat ≤ 0xF4) (second : isSecond first b = true) (third : isTail c = true)
    (tail : isTail d = true) :
    front first (b :: c :: d :: rest)
      = ⟨some (Char.ofNat
          (((first.toNat % 0x08 * 0x40 + tailBits b) * 0x40 + tailBits c) * 0x40 + tailBits d)),
        3⟩ := by
  unfold front
  simp only [UInt8.lt_iff_toNat_lt, UInt8.le_iff_toNat_le, UInt8.reduceToNat, second, third, tail]
  rw [if_neg (by omega), if_neg (by simp; omega), if_neg (by simp; omega), if_pos (by simp; omega)]
  rfl

theorem toNat_byte {n : Nat} (h : n < 256) : (UInt8.ofNat n).toNat = n := by
  rw [UInt8.toNat_ofNat']
  exact Nat.mod_eq_of_lt h

theorem isTail_byte {n : Nat} (h : n < 0x40) : isTail (UInt8.ofNat (0x80 + n)) = true := by
  have hbyte : (UInt8.ofNat (0x80 + n)).toNat = 0x80 + n := toNat_byte (by omega)
  exact isTail_of_bounds (by omega) (by omega)

theorem tailBits_byte {n : Nat} (h : n < 0x40) : tailBits (UInt8.ofNat (0x80 + n)) = n := by
  rw [tailBits, toNat_byte (by omega)]
  omega

/-! ## A character in its bytes -/

section

variable {n : Nat} (rest : Bytes)

theorem front_oneByte (high : n < 0x80) :
    front (UInt8.ofNat n) rest = ⟨some (Char.ofNat n), 0⟩ := by
  have hfirst : (UInt8.ofNat n).toNat = n := toNat_byte (by omega)
  rw [front_one _ (by omega), hfirst]

theorem front_twoBytes (low : 0x80 ≤ n) (high : n < 0x800) :
    front (UInt8.ofNat (0xC0 + n / 0x40)) (UInt8.ofNat (0x80 + n % 0x40) :: rest)
      = ⟨some (Char.ofNat n), 1⟩ := by
  have hfirst : (UInt8.ofNat (0xC0 + n / 0x40)).toNat = 0xC0 + n / 0x40 := toNat_byte (by omega)
  have hlast : n % 0x40 < 0x40 := Nat.mod_lt _ (by decide)
  have hcode : (0xC0 + n / 0x40) % 0x20 * 0x40 + n % 0x40 = n := by omega
  rw [front_two _ (by omega) (by omega) (isTail_byte hlast), hfirst, tailBits_byte hlast, hcode]

/-- The surrogates have no form. -/
theorem front_threeBytes (low : 0x800 ≤ n) (high : n < 0x10000)
    (valid : n < 0xD800 ∨ 0xDFFF < n) :
    front (UInt8.ofNat (0xE0 + n / 0x1000))
        (UInt8.ofNat (0x80 + n / 0x40 % 0x40) :: UInt8.ofNat (0x80 + n % 0x40) :: rest)
      = ⟨some (Char.ofNat n), 2⟩ := by
  have hfirst : (UInt8.ofNat (0xE0 + n / 0x1000)).toNat = 0xE0 + n / 0x1000 :=
    toNat_byte (by omega)
  have hmiddle : n / 0x40 % 0x40 < 0x40 := Nat.mod_lt _ (by decide)
  have hlast : n % 0x40 < 0x40 := Nat.mod_lt _ (by decide)
  have hsecond : (UInt8.ofNat (0x80 + n / 0x40 % 0x40)).toNat = 0x80 + n / 0x40 % 0x40 :=
    toNat_byte (by omega)
  have hcode : ((0xE0 + n / 0x1000) % 0x10 * 0x40 + n / 0x40 % 0x40) * 0x40 + n % 0x40 = n := by
    omega
  rw [front_three _ (by omega) (by omega)
    (isSecond_of_bounds (by omega) (by omega) (by omega) (by omega) (by omega) (by omega))
    (isTail_byte hlast), hfirst, tailBits_byte hmiddle, tailBits_byte hlast, hcode]

theorem front_fourBytes (low : 0x10000 ≤ n) (high : n < 0x110000) :
    front (UInt8.ofNat (0xF0 + n / 0x40000))
        (UInt8.ofNat (0x80 + n / 0x1000 % 0x40) :: UInt8.ofNat (0x80 + n / 0x40 % 0x40)
          :: UInt8.ofNat (0x80 + n % 0x40) :: rest)
      = ⟨some (Char.ofNat n), 3⟩ := by
  have hfirst : (UInt8.ofNat (0xF0 + n / 0x40000)).toNat = 0xF0 + n / 0x40000 :=
    toNat_byte (by omega)
  have hupper : n / 0x1000 % 0x40 < 0x40 := Nat.mod_lt _ (by decide)
  have hmiddle : n / 0x40 % 0x40 < 0x40 := Nat.mod_lt _ (by decide)
  have hlast : n % 0x40 < 0x40 := Nat.mod_lt _ (by decide)
  have hsecond : (UInt8.ofNat (0x80 + n / 0x1000 % 0x40)).toNat = 0x80 + n / 0x1000 % 0x40 :=
    toNat_byte (by omega)
  have hcode : (((0xF0 + n / 0x40000) % 0x08 * 0x40 + n / 0x1000 % 0x40) * 0x40
      + n / 0x40 % 0x40) * 0x40 + n % 0x40 = n := by
    omega
  rw [front_four _ (by omega) (by omega)
    (isSecond_of_bounds (by omega) (by omega) (by omega) (by omega) (by omega) (by omega))
    (isTail_byte hmiddle) (isTail_byte hlast), hfirst, tailBits_byte hupper, tailBits_byte hmiddle,
    tailBits_byte hlast, hcode]

end

/-- The form of a character is one piece. -/
theorem front_encodeChar (c : Char) (rest : Bytes) :
    ∃ first tail, encodeChar c = first :: tail
      ∧ front first (tail ++ rest) = ⟨some c, tail.length⟩ := by
  have hc : Char.ofNat c.toNat = c := Char.ofNat_toNat c
  have hvalid : c.toNat < 0xD800 ∨ 0xDFFF < c.toNat ∧ c.toNat < 0x110000 := c.valid
  unfold encodeChar
  dsimp only
  split
  · rename_i hone
    exact ⟨_, _, rfl, by rw [List.nil_append, front_oneByte rest hone, hc]; rfl⟩
  · rename_i hone
    split
    · rename_i htwo
      refine ⟨_, _, rfl, ?_⟩
      rw [List.singleton_append, front_twoBytes rest (by omega) htwo, hc]
      rfl
    · rename_i htwo
      split
      · rename_i hthree
        refine ⟨_, _, rfl, ?_⟩
        rw [List.cons_append, List.singleton_append,
          front_threeBytes rest (by omega) hthree (by omega), hc]
        rfl
      · rename_i hthree
        refine ⟨_, _, rfl, ?_⟩
        rw [List.cons_append, List.cons_append, List.singleton_append,
          front_fourBytes rest (by omega) (by omega), hc]
        rfl

/-- A character that is read is written with the bytes that it was read from. -/
theorem BeginsWith.encodeChar_eq {first : UInt8} {rest : Bytes} {ch : Char} {extra : Nat}
    (h : BeginsWith first rest ch extra) : encodeChar ch = first :: rest.take extra := by
  have hbyte : ∀ {n : Nat} (b : UInt8), n = b.toNat → UInt8.ofNat n = b := by
    rintro n b rfl
    exact UInt8.ofNat_toNat
  cases h with
  | one _ high =>
      unfold encodeChar
      rw [toNat_ofNat_of_valid (.inl (by omega))]
      dsimp only
      rw [if_pos high, UInt8.ofNat_toNat]
      rfl
  | @two b rest low high tail =>
      obtain ⟨hlow, hhigh⟩ := isTail_bounds tail
      unfold tailBits encodeChar
      rw [toNat_ofNat_of_valid (.inl (by omega))]
      dsimp only
      rw [if_neg (by omega), if_pos (by omega), hbyte first (by omega), hbyte b (by omega)]
      rfl
  | @three b c rest low high second tail =>
      obtain ⟨hlow, hhigh, hE0, hED, -, -⟩ := isSecond_bounds second
      obtain ⟨hlow', hhigh'⟩ := isTail_bounds tail
      unfold tailBits encodeChar
      rw [toNat_ofNat_of_valid (by unfold Nat.isValidChar; omega)]
      dsimp only
      rw [if_neg (by omega), if_neg (by omega), if_pos (by omega), hbyte first (by omega),
        hbyte b (by omega), hbyte c (by omega)]
      rfl
  | @four b c d rest low high second third tail =>
      obtain ⟨hlow, hhigh, -, -, hF0, hF4⟩ := isSecond_bounds second
      obtain ⟨hlow', hhigh'⟩ := isTail_bounds third
      obtain ⟨hlow'', hhigh''⟩ := isTail_bounds tail
      unfold tailBits encodeChar
      rw [toNat_ofNat_of_valid (by unfold Nat.isValidChar; omega)]
      dsimp only
      rw [if_neg (by omega), if_neg (by omega), if_neg (by omega), hbyte first (by omega),
        hbyte b (by omega), hbyte c (by omega), hbyte d (by omega)]
      rfl

/-! ## Texts -/

theorem encodeChars_cons (c : Char) (cs : List Char) :
    encodeChars (c :: cs) = encodeChar c ++ encodeChars cs := rfl

theorem encodeChars_append (as bs : List Char) :
    encodeChars (as ++ bs) = encodeChars as ++ encodeChars bs := List.flatMap_append

theorem pieces_encodeChar (c : Char) (rest : Bytes) :
    ∃ p : Piece, p.char? = some c ∧ pieces (encodeChar c ++ rest) = p :: pieces rest := by
  obtain ⟨first, tail, hc, hfront⟩ := front_encodeChar c rest
  refine ⟨⟨some c, tail.length⟩, rfl, ?_⟩
  rw [hc, List.cons_append, pieces, hfront, List.drop_left]

theorem decodeChars?_encodeChars (cs : List Char) : decodeChars? (encodeChars cs) = some cs := by
  induction cs with
  | nil => simp [encodeChars, decodeChars?, pieces]
  | cons c rest ih =>
      obtain ⟨p, hp, hpieces⟩ := pieces_encodeChar c (encodeChars rest)
      have hcons : encodeChars (c :: rest) = encodeChar c ++ encodeChars rest := rfl
      rw [decodeChars?] at ih ⊢
      rw [hcons, hpieces, List.mapM_cons, hp, ih]
      rfl

/-- The UTF-8 form of a text reads back as this text. -/
theorem decode?_encode (s : String) : decode? (encode s) = some s := by
  rw [decode?, encode, decodeChars?_encodeChars, Option.map_some, String.ofList_toList]

/-- Strict reading takes no other bytes for a text than its UTF-8 form. -/
theorem eq_encodeChars_of_decodeChars? {bs : Bytes} {cs : List Char} (h : decodeChars? bs = some cs) :
    bs = encodeChars cs := by
  induction bs using pieces.induct generalizing cs with
  | case1 =>
      simp only [decodeChars?, pieces, List.mapM_nil] at h
      obtain rfl := Option.some.inj h
      rfl
  | case2 b rest ih =>
      rw [decodeChars?, pieces, List.mapM_cons] at h
      obtain ⟨c, hc, h⟩ := Option.bind_eq_some_iff.mp h
      obtain ⟨cs', hcs', h⟩ := Option.bind_eq_some_iff.mp h
      obtain rfl := Option.some.inj h
      calc b :: rest
          = (b :: rest.take (front b rest).extra) ++ rest.drop (front b rest).extra := by
            rw [List.cons_append, List.take_append_drop]
        _ = encodeChar c ++ encodeChars cs' := by
            rw [← (beginsWith_of_front hc).encodeChar_eq, ← ih hcs']
        _ = encodeChars (c :: cs') := (encodeChars_cons c cs').symm

/-- **Strict reading.** A byte string reads as a text exactly if it is the UTF-8 form of it. -/
theorem decode?_eq_some {bs : Bytes} {s : String} : decode? bs = some s ↔ bs = encode s := by
  constructor
  · intro h
    obtain ⟨cs, hcs, rfl⟩ := Option.map_eq_some_iff.mp h
    rw [encode, String.toList_ofList]
    exact eq_encodeChars_of_decodeChars? hcs
  · rintro rfl
    exact decode?_encode s

theorem lossyChars_encodeChars (cs : List Char) : lossyChars (encodeChars cs) = cs := by
  induction cs with
  | nil => simp [lossyChars, encodeChars, pieces]
  | cons c cs ih =>
      obtain ⟨p, hp, hpieces⟩ := pieces_encodeChar c (encodeChars cs)
      rw [encodeChars_cons, lossyChars, hpieces, List.map_cons, hp]
      exact congrArg (c :: ·) ih

/-- Only the empty byte string is the empty text. -/
theorem isEmpty_of_decode? {bs : Bytes} {s : String} (h : decode? bs = some s) (nonempty : bs ≠ []) :
    s.isEmpty = false := by
  obtain ⟨cs, hcs, rfl⟩ := Option.map_eq_some_iff.mp h
  cases bs with
  | nil => exact absurd rfl nonempty
  | cons b rest =>
      rw [decodeChars?, pieces, List.mapM_cons] at hcs
      obtain ⟨c, -, hcs⟩ := Option.bind_eq_some_iff.mp hcs
      obtain ⟨cs', -, hcs⟩ := Option.bind_eq_some_iff.mp hcs
      obtain rfl := Option.some.inj hcs
      rw [String.isEmpty_eq_false_iff]
      intro h
      simpa using congrArg String.toList h

end PowerBench.Utf8
