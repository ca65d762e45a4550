import PowerBench.Proofs.Utf8RoundTrip

set_option autoImplicit false

/-! # Texts in the order of their bytes

Texts are compared code point by code point. In UTF-8 this is the order of bytes: of two characters the
smaller one has the smaller bytes, whatever follows them (`encodeChar_lt`), and so the first character
in which two texts differ decides about their bytes as well (`encode_lt_iff`).
-/

namespace PowerBench.Utf8

/-! ## Rows of bytes -/

theorem cons_lt_of_lt {a b : Nat} (hb : b < 256) (hab : a < b) {as bs : Bytes} :
    UInt8.ofNat a :: as < UInt8.ofNat b :: bs := by
  refine List.cons_lt_cons_iff.mpr (.inl ?_)
  rw [UInt8.lt_iff_toNat_lt, toNat_byte hb, toNat_byte (by omega)]
  exact hab

theorem cons_lt_of_eq {a b : Nat} (hab : a = b) {as bs : Bytes} (h : as < bs) :
    UInt8.ofNat a :: as < UInt8.ofNat b :: bs :=
  List.cons_lt_cons_iff.mpr (.inr ⟨congrArg UInt8.ofNat hab, h⟩)

/-! ## Two characters -/

/-- The smaller of two characters has the smaller bytes, whatever follows them. -/
theorem encodeChar_lt {c d : Char} (h : c < d) (as bs : Bytes) :
    encodeChar c ++ as < encodeChar d ++ bs := by
  have hcode : c.toNat < d.toNat := h
  have hvalid : d.toNat < 0x110000 := by
    rcases d.valid with hlow | hhigh
    · exact Nat.lt_trans hlow (by decide)
    · exact hhigh.2
  unfold encodeChar
  dsimp only
  generalize c.toNat = m at hcode
  generalize d.toNat = n at hcode hvalid
  -- A longer form begins with a larger byte. Forms of one length are compared from the left, where the
  -- bits that the bytes hold are those of the two numbers, from the highest on.
  by_cases hone : m < 0x80
  · rw [if_pos hone]
    split
    · exact cons_lt_of_lt (by omega) hcode
    · split
      · exact cons_lt_of_lt (by omega) (by omega)
      · split <;> exact cons_lt_of_lt (by omega) (by omega)
  rw [if_neg hone, if_neg (by omega : ¬ n < 0x80)]
  by_cases htwo : m < 0x800
  · rw [if_pos htwo]
    split
    · by_cases hlead : m / 0x40 = n / 0x40
      · exact cons_lt_of_eq (by omega) (cons_lt_of_lt (by omega) (by omega))
      · exact cons_lt_of_lt (by omega) (by omega)
    · split <;> exact cons_lt_of_lt (by omega) (by omega)
  rw [if_neg htwo, if_neg (by omega : ¬ n < 0x800)]
  by_cases hthree : m < 0x10000
  · rw [if_pos hthree]
    split
    · by_cases hlead : m / 0x1000 = n / 0x1000
      · refine cons_lt_of_eq (by omega) ?_
        by_cases hmiddle : m / 0x40 = n / 0x40
        · exact cons_lt_of_eq (by omega) (cons_lt_of_lt (by omega) (by omega))
        · exact cons_lt_of_lt (by omega) (by omega)
      · exact cons_lt_of_lt (by omega) (by omega)
    · exact cons_lt_of_lt (by omega) (by omega)
  rw [if_neg hthree, if_neg (by omega : ¬ n < 0x10000)]
  by_cases hlead : m / 0x40000 = n / 0x40000
  · refine cons_lt_of_eq (by omega) ?_
    by_cases hupper : m / 0x1000 = n / 0x1000
    · refine cons_lt_of_eq (by omega) ?_
      by_cases hmiddle : m / 0x40 = n / 0x40
      · exact cons_lt_of_eq (by omega) (cons_lt_of_lt (by omega) (by omega))
      · exact cons_lt_of_lt (by omega) (by omega)
    · exact cons_lt_of_lt (by omega) (by omega)
  · exact cons_lt_of_lt (by omega) (by omega)

/-! ## Two texts -/

theorem encodeChars_lt {cs ds : List Char} (h : cs < ds) : encodeChars cs < encodeChars ds := by
  induction cs generalizing ds with
  | nil =>
      cases ds with
      | nil => exact absurd h (List.lt_irrefl _)
      | cons d ds =>
          obtain ⟨first, tail, hd, -⟩ := front_encodeChar d []
          rw [encodeChars_cons, hd]
          exact List.nil_lt_cons _ _
  | cons c cs ih =>
      cases ds with
      | nil => exact absurd h (List.not_lt_nil _)
      | cons d ds =>
          rw [encodeChars_cons, encodeChars_cons]
          rcases List.cons_lt_cons_iff.mp h with hlt | ⟨rfl, hlater⟩
          · exact encodeChar_lt hlt _ _
          · exact List.append_left_lt (ih hlater)

/-- **The order of bytes.** A text stands before another exactly if its bytes do. -/
theorem encode_lt_iff {s t : String} : encode s < encode t ↔ s < t := by
  have hforward : ∀ {s t : String}, s < t → encode s < encode t := fun h =>
    encodeChars_lt (String.lt_iff.mp h)
  refine ⟨fun h => ?_, hforward⟩
  by_cases hback : t < s
  · exact absurd (hforward hback) (List.lt_asymm h)
  by_cases hlt : s < t
  · exact hlt
  · obtain rfl := String.le_antisymm (String.not_lt.mp hback) (String.not_lt.mp hlt)
    exact absurd h (List.lt_irrefl _)

/-- Ascending texts have ascending bytes. -/
theorem pairwise_encode_iff {texts : List String} :
    (texts.map encode).Pairwise (· < ·) ↔ texts.Pairwise (· < ·) := by
  rw [List.pairwise_map]
  constructor
  · exact fun h => h.imp encode_lt_iff.mp
  · exact fun h => h.imp encode_lt_iff.mpr

end PowerBench.Utf8
