import PowerBench.Proofs.Outcome
import PowerBench.Text.Numeral

set_option autoImplicit false

/-! # Written integers

An integer is written as its decimal digits behind a minus sign if it is negative. Reading takes one
digit after the other on top of what it has, so it never holds more than the number in the end, and
what fits the range reads back (`readInteger_toString`). Which texts an unsigned number has is said
without reading (`readUInt64_eq_ok`).
-/

namespace PowerBench

/-! ## Digits -/

theorem isDecimalDigit_of_isDigit {c : Char} (h : c.isDigit = true) : isDecimalDigit c = true := by
  obtain ⟨hlow, hhigh⟩ := Char.isDigit_iff_toNat.mp h
  have hzero : '0'.toNat = 48 := rfl
  have hnine : '9'.toNat = 57 := rfl
  simp only [isDecimalDigit, Bool.and_eq_true, decide_eq_true_eq]
  omega

theorem isDigit_of_isDecimalDigit {c : Char} (h : isDecimalDigit c = true) : c.isDigit = true := by
  have hzero : '0'.toNat = 48 := rfl
  have hnine : '9'.toNat = 57 := rfl
  simp only [isDecimalDigit, Bool.and_eq_true, decide_eq_true_eq] at h
  exact Char.isDigit_iff_toNat.mpr (by omega)

/-- Digits only make a number larger. -/
theorem le_ofDigitChars (cs : List Char) (acc : Nat) : acc ≤ Nat.ofDigitChars 10 cs acc := by
  induction cs generalizing acc with
  | nil => exact Nat.le_of_eq Nat.ofDigitChars_nil.symm
  | cons c rest ih =>
      rw [Nat.ofDigitChars_cons]
      have hrest := ih (10 * acc + (c.toNat - '0'.toNat))
      omega

/-- Digits whose number stays within the limit are read. -/
theorem accumulateDigits_eq_ok {limit acc : Nat} {overflow : NumeralError} {cs : List Char}
    (digits : ∀ c ∈ cs, c.isDigit = true) (fits : Nat.ofDigitChars 10 cs acc ≤ limit) :
    accumulateDigits limit overflow acc cs = .ok (Nat.ofDigitChars 10 cs acc) := by
  induction cs generalizing acc with
  | nil => rw [accumulateDigits, Nat.ofDigitChars_nil]
  | cons c rest ih =>
      have hdigit := isDecimalDigit_of_isDigit (digits c List.mem_cons_self)
      have hvalue : acc * 10 + digitValue c = 10 * acc + (c.toNat - '0'.toNat) := by
        rw [Nat.mul_comm]
        rfl
      rw [Nat.ofDigitChars_cons] at fits ⊢
      have hacc := le_ofDigitChars rest (10 * acc + (c.toNat - '0'.toNat))
      rw [accumulateDigits, if_neg (by simp [hdigit]), if_neg (by omega), hvalue]
      exact ih (fun x hx => digits x (List.mem_cons_of_mem _ hx)) fits

/-- What is read within a limit is the number of digits. -/
theorem of_accumulateDigits {limit acc n : Nat} {overflow : NumeralError} {cs : List Char}
    (within : acc ≤ limit) (h : accumulateDigits limit overflow acc cs = .ok n) :
    (∀ c ∈ cs, c.isDigit = true) ∧ Nat.ofDigitChars 10 cs acc = n ∧ n ≤ limit := by
  induction cs generalizing acc with
  | nil =>
      obtain rfl := Except.ok.inj h
      exact ⟨by simp, Nat.ofDigitChars_nil, within⟩
  | cons c rest ih =>
      rw [accumulateDigits] at h
      split at h
      · cases h
      · rename_i hdigit
        split at h
        · cases h
        · rename_i hlimit
          obtain ⟨digits, value, fits⟩ := ih (Nat.not_lt.mp hlimit) h
          have hc : c.isDigit = true := isDigit_of_isDecimalDigit (by simpa using hdigit)
          have hvalue : acc * 10 + digitValue c = 10 * acc + (c.toNat - '0'.toNat) := by
            rw [Nat.mul_comm]
            rfl
          refine ⟨fun d hd => ?_, ?_, fits⟩
          · rcases List.mem_cons.mp hd with rfl | hd
            · exact hc
            · exact digits d hd
          · rw [Nat.ofDigitChars_cons, ← hvalue, value]

theorem isDigit_of_mem_decimal {n : Nat} {c : Char} (h : c ∈ Nat.toDigits 10 n) :
    c.isDigit = true :=
  Nat.isDigit_of_mem_toDigits (by decide) (by decide) h

theorem accumulateDigits_toDigits {limit n : Nat} (overflow : NumeralError) (fits : n ≤ limit) :
    accumulateDigits limit overflow 0 (Nat.toDigits 10 n) = .ok n := by
  have hn : Nat.ofDigitChars 10 (Nat.toDigits 10 n) 0 = n := Nat.ofDigitChars_ten_toDigits
  rw [accumulateDigits_eq_ok (fun _ => isDigit_of_mem_decimal) (by rwa [hn]), hn]

/-! ## Integers -/

/-- Digits without a sign are a number of their own. -/
theorem readInteger_of_digits {below above : Nat} {cs : List Char} (nonempty : cs ≠ [])
    (digits : ∀ c ∈ cs, c.isDigit = true) :
    readInteger below above cs = (accumulateDigits above .tooLarge 0 cs).map Int.ofNat := by
  cases cs with
  | nil => exact absurd rfl nonempty
  | cons c rest =>
      have hc := digits c List.mem_cons_self
      unfold readInteger
      split
      · rename_i h
        cases h
      · rename_i h
        obtain ⟨rfl, -⟩ := List.cons.inj h
        exact absurd hc (by decide)
      · rename_i h
        obtain ⟨rfl, -⟩ := List.cons.inj h
        exact absurd hc (by decide)
      · rfl

theorem toList_toString_ofNat (n : Nat) : (toString (Int.ofNat n)).toList = Nat.toDigits 10 n :=
  Nat.toList_repr

theorem toList_toString_negSucc (n : Nat) :
    (toString (Int.negSucc n)).toList = '-' :: Nat.toDigits 10 (n + 1) := by
  have hwritten : toString (Int.negSucc n) = "-" ++ Nat.repr (n + 1) := rfl
  rw [hwritten, String.toList_append, Nat.toList_repr]
  rfl

/-- **Written integers read back.** An integer of the range is read from its decimal text. -/
theorem readInteger_toString {below above : Nat} {n : Int} (low : -(below : Int) ≤ n)
    (high : n ≤ above) : readInteger below above (toString n).toList = .ok n := by
  cases n with
  | ofNat n =>
      have hfits : n ≤ above := by
        have : (n : Int) ≤ above := high
        omega
      rw [toList_toString_ofNat, readInteger_of_digits Nat.toDigits_ne_nil
        (fun _ => isDigit_of_mem_decimal), accumulateDigits_toDigits _ hfits]
      rfl
  | negSucc n =>
      have hfits : n + 1 ≤ below := by omega
      have hsome : (Nat.toDigits 10 (n + 1)).isEmpty = false := by
        simp [Nat.toDigits_ne_nil]
      have hbelow : (below == 0) = false := by
        rw [beq_eq_false_iff_ne]
        omega
      rw [toList_toString_negSucc, readInteger, hsome, hbelow,
        accumulateDigits_toDigits _ hfits]
      rfl

/-- Integers that are written alike are one. -/
theorem toString_int_inj {m n : Int} (h : toString m = toString n) : m = n := by
  -- Both are read in a range that holds them.
  have hm : readInteger (m.natAbs + n.natAbs) (m.natAbs + n.natAbs) (toString m).toList = .ok m :=
    readInteger_toString (by omega) (by omega)
  have hn : readInteger (m.natAbs + n.natAbs) (m.natAbs + n.natAbs) (toString n).toList = .ok n :=
    readInteger_toString (by omega) (by omega)
  rw [h] at hm
  exact Except.ok.inj (hm.symm.trans hn)

/-! ## Unsigned numbers -/

/-- The text denotes the unsigned 64-bit number: it is its decimal digits, perhaps with zeros and a
plus sign in front. -/
def DenotesUInt64 (cs : List Char) (n : Nat) : Prop :=
  ∃ digits, (cs = digits ∨ cs = '+' :: digits) ∧ digits ≠ [] ∧ (∀ c ∈ digits, c.isDigit = true)
    ∧ Nat.ofDigitChars 10 digits 0 = n ∧ n < Nat.pow 2 64

/-- **Unsigned numbers.** Exactly the texts that denote one are read. -/
theorem readUInt64_eq_ok {cs : List Char} {n : Nat} :
    readUInt64 cs = .ok n ↔ DenotesUInt64 cs n := by
  constructor
  · intro h
    obtain ⟨m, hm, rfl⟩ := map_eq_ok.mp h
    -- Of the three forms the one with a minus sign is not there, as nothing lies below zero.
    unfold readInteger at hm
    split at hm
    · cases hm
    · rename_i digits
      split at hm
      · cases hm
      · rename_i hsome
        obtain ⟨k, hk, rfl⟩ := map_eq_ok.mp hm
        obtain ⟨hdigits, hvalue, hfits⟩ := of_accumulateDigits (Nat.zero_le _) hk
        have hnonempty : digits ≠ [] := by simpa using hsome
        exact ⟨digits, .inr rfl, hnonempty, hdigits, hvalue, Nat.lt_succ_of_le hfits⟩
    · rw [beq_self_eq_true, Bool.or_true, if_pos rfl] at hm
      cases hm
    · rename_i hnonempty _ _
      obtain ⟨k, hk, rfl⟩ := map_eq_ok.mp hm
      obtain ⟨hdigits, hvalue, hfits⟩ := of_accumulateDigits (Nat.zero_le _) hk
      exact ⟨cs, .inl rfl, hnonempty, hdigits, hvalue, Nat.lt_succ_of_le hfits⟩
  · rintro ⟨digits, hform, hnonempty, hdigits, rfl, hfits⟩
    have hread : accumulateDigits (Nat.pow 2 64 - 1) .tooLarge 0 digits
        = .ok (Nat.ofDigitChars 10 digits 0) :=
      accumulateDigits_eq_ok hdigits (Nat.le_pred_of_lt hfits)
    have hsome : digits.isEmpty = false := by simpa using hnonempty
    unfold readUInt64
    rcases hform with rfl | rfl
    · rw [readInteger_of_digits hnonempty hdigits, hread]
      rfl
    · rw [readInteger, hsome, hread]
      rfl

theorem DenotesUInt64.unique {cs : List Char} {m n : Nat} (h : DenotesUInt64 cs m)
    (h' : DenotesUInt64 cs n) : m = n :=
  Except.ok.inj ((readUInt64_eq_ok.mpr h).symm.trans (readUInt64_eq_ok.mpr h'))

end PowerBench
