import PowerBench.Proofs.Utf8RoundTrip

set_option autoImplicit false

/-! # Lossy text and its ending

A piece of a byte string ends in front of an ASCII byte as it does at the end of the bytes
(`front_append_ascii`). So ASCII text behind any bytes is read as it stands, even where it cuts off a
longer character (`lossyChars_append_ascii`), and an ASCII ending of what is read is an ending of the
bytes (`suffix_lossyChars_iff`). A path can be told from what is shown of it exactly if its bytes are a
text (`Path.ofText_shown_iff`).
-/

namespace PowerBench

namespace Utf8

/-- An ASCII byte is no part of a longer character. -/
theorem front_append_ascii {a : UInt8} (ascii : a.toNat < 0x80) (first : UInt8) (rest more : Bytes) :
    front first (rest ++ a :: more) = front first rest := by
  have htail : isTail a = false := by
    rw [Bool.eq_false_iff]
    intro h
    have hbounds := isTail_bounds h
    omega
  have hsecond : isSecond first a = false := by
    rw [Bool.eq_false_iff]
    intro h
    have hbounds := isSecond_bounds h
    omega
  -- A piece depends on no more than three bytes behind its first one.
  rcases rest with _ | ⟨x, _ | ⟨y, _ | ⟨z, rest⟩⟩⟩
  · rcases more with _ | ⟨m, _ | ⟨m', more⟩⟩ <;> simp [front, htail, hsecond]
  · rcases more with _ | ⟨m, more⟩ <;> cases hx : isSecond first x <;> simp [front, htail, hx]
  · cases hx : isSecond first x <;> cases hy : isTail y <;> simp [front, htail, hx, hy]
  · rfl

/-- A piece does not reach behind the bytes. -/
theorem extra_front_le (first : UInt8) (rest : Bytes) : (front first rest).extra ≤ rest.length := by
  fun_cases front first rest <;> simp

/-- **ASCII text is read as it stands,** whatever bytes are in front of it. -/
theorem lossyChars_append_ascii (bs : Bytes) {cs : List Char} (ascii : ∀ c ∈ cs, IsAscii c) :
    lossyChars (bs ++ encodeChars cs) = lossyChars bs ++ cs := by
  induction bs using pieces.induct with
  | case1 =>
      rw [List.nil_append, lossyChars_encodeChars]
      simp [lossyChars, pieces]
  | case2 b rest ih =>
      have hfront : front b (rest ++ encodeChars cs) = front b rest := by
        rcases cs with _ | ⟨c, cs⟩
        · rw [encodeChars, List.flatMap_nil, List.append_nil]
        · have hc := ascii c List.mem_cons_self
          have hbyte : (UInt8.ofNat c.toNat).toNat = c.toNat :=
            toNat_byte (Nat.lt_trans hc (by decide))
          rw [encodeChars_cons, encodeChar_of_ascii hc, List.singleton_append]
          exact front_append_ascii (by rw [hbyte]; exact hc) b rest _
      rw [List.cons_append, lossyChars_cons, lossyChars_cons, hfront,
        List.drop_append_of_le_length (extra_front_le b rest), ih, List.cons_append]

/-- **An ASCII ending of what is read is an ending of the bytes.** -/
theorem suffix_lossyChars_iff (bs : Bytes) {cs : List Char} (ascii : ∀ c ∈ cs, IsAscii c) :
    cs <:+ lossyChars bs ↔ encodeChars cs <:+ bs := by
  constructor
  · intro h
    induction bs using pieces.induct with
    | case1 =>
        have hcs : cs = [] := by simpa [lossyChars, pieces] using h
        simp [hcs, encodeChars]
    | case2 b rest ih =>
        -- The ending is all that is read, or it is one of what stands behind the first piece.
        rw [lossyChars_cons, List.suffix_cons_iff] at h
        rcases h with hall | hrest
        · have hread : lossyChars (b :: rest) = cs := by rw [lossyChars_cons, hall]
          have hbytes : b :: rest = encodeChars (lossyChars (b :: rest)) :=
            eq_encodeChars_of_lossyChars (by rwa [hread])
          have hcs : encodeChars cs = b :: rest := by rw [← hread, ← hbytes]
          exact ⟨[], by rw [List.nil_append, hcs]⟩
        · exact ((ih hrest).trans (List.drop_suffix _ _)).trans (List.suffix_cons b rest)
  · rintro ⟨before, rfl⟩
    rw [lossyChars_append_ascii before ascii]
    exact List.suffix_append _ _

end Utf8

/-! ## Shown paths -/

namespace Path

def IsText (p : Path) : Prop := (Utf8.decode? p.bytes).isSome = true

instance (p : Path) : Decidable p.IsText :=
  inferInstanceAs (Decidable ((Utf8.decode? p.bytes).isSome = true))

/-- The path of a text is shown as the text. -/
theorem shown_ofText (s : String) : (ofText s).shown = s := by
  have hchars : (ofText s).shown.toList = s.toList := by
    rw [toList_shown]
    exact Utf8.lossyChars_encodeChars s.toList
  exact String.toList_injective hchars

theorem isText_iff (p : Path) : p.IsText ↔ ∃ s, p = ofText s := by
  unfold IsText
  rw [Option.isSome_iff_exists]
  constructor
  · rintro ⟨s, hs⟩
    exact ⟨s, congrArg Path.mk (Utf8.decode?_eq_some.mp hs)⟩
  · rintro ⟨s, rfl⟩
    exact ⟨s, Utf8.decode?_eq_some.mpr rfl⟩

/-- What is shown of a path names the same path exactly if the path is a text. -/
theorem ofText_shown_iff (p : Path) : ofText p.shown = p ↔ p.IsText := by
  rw [isText_iff]
  constructor
  · intro h
    exact ⟨p.shown, h.symm⟩
  · rintro ⟨s, rfl⟩
    rw [shown_ofText]

/-- Whether a path is shown with an ASCII ending is a matter of its last bytes. -/
theorem shownEndsWith_iff (p : Path) {ending : String} (ascii : ∀ c ∈ ending.toList, IsAscii c) :
    p.shownEndsWith ending = true ↔ Utf8.encode ending <:+ p.bytes := by
  rw [shownEndsWith, List.isSuffixOf_iff_suffix, toList_shown]
  exact Utf8.suffix_lossyChars_iff p.bytes ascii

end Path

end PowerBench
