import PowerBench.Proofs.DenotedDecimal
import PowerBench.Proofs.ShortestDecimal
import PowerBench.Proofs.WrittenInteger
import Mathlib.Data.List.Induction
import Mathlib.Data.List.TakeWhile

set_option autoImplicit false

/-! # Number texts

The text of a fractional number is a `Numeral`: digits, digits behind a point, and an exponent. Reading
takes it apart again (`Numeral.readUnsigned?_text`). Both layouts of the shortest decimal are numerals
that denote this decimal, so the text of a finite value is read as the value (`readFinite?_scientific`).
-/

namespace PowerBench

/-! ## Rows of digits -/

theorem digitsValue_eq (cs : List Char) : digitsValue cs = Nat.ofDigitChars 10 cs 0 := by
  have hstep : (fun (n : Nat) (c : Char) => n * 10 + digitValue c)
      = fun n c => 10 * n + (c.toNat - '0'.toNat) := by
    funext n c
    rw [Nat.mul_comm]
    rfl
  rw [digitsValue, hstep]
  rfl

theorem digitsValue_toDigits (n : Nat) : digitsValue (Nat.toDigits 10 n) = n := by
  rw [digitsValue_eq, Nat.ofDigitChars_ten_toDigits]

/-- Zeros at the end of a number are powers of ten. -/
theorem digitsValue_append_zeros (cs : List Char) (j : Nat) :
    digitsValue (cs ++ List.replicate j '0') = digitsValue cs * 10 ^ j := by
  rw [digitsValue_eq, digitsValue_eq, Nat.ofDigitChars_append, Nat.ofDigitChars_replicate_zero,
    Nat.mul_comm]

/-- Zeros in front of a number count for nothing. -/
theorem digitsValue_zeros_append (j : Nat) (cs : List Char) :
    digitsValue (List.replicate j '0' ++ cs) = digitsValue cs := by
  rw [digitsValue_eq, digitsValue_eq, Nat.ofDigitChars_append, Nat.ofDigitChars_replicate_zero,
    Nat.mul_zero]

theorem digitsValue_concat (cs : List Char) (c : Char) :
    digitsValue (cs ++ [c]) = digitsValue cs * 10 + digitValue c := by
  simp [digitsValue]

theorem digitsValue_append (as bs : List Char) :
    digitsValue (as ++ bs) = digitsValue as * 10 ^ bs.length + digitsValue bs := by
  induction bs using List.reverseRecOn with
  | nil => simp [digitsValue]
  | append_singleton bs c ih =>
      rw [← List.append_assoc, digitsValue_concat, digitsValue_concat, ih, List.length_append,
        List.length_singleton, pow_succ]
      ring

/-- So many digits stay below that power of ten. -/
theorem digitsValue_lt {cs : List Char} (digits : ∀ c ∈ cs, isDecimalDigit c = true) :
    digitsValue cs < 10 ^ cs.length := by
  induction cs using List.reverseRecOn with
  | nil => decide
  | append_singleton cs c ih =>
      have hfront := ih fun d hd => digits d (List.mem_append_left _ hd)
      have hlast : digitValue c ≤ 9 := by
        have hdigit := digits c List.mem_concat_self
        simp only [isDecimalDigit, Bool.and_eq_true, decide_eq_true_eq] at hdigit
        unfold digitValue
        omega
      rw [digitsValue_concat, List.length_append, List.length_singleton, pow_succ]
      omega

/-- Digits behind a point, cut to so many places or filled up to them. -/
theorem digitsValue_places {cs : List Char} (digits : ∀ c ∈ cs, isDecimalDigit c = true)
    (places : Nat) :
    digitsValue (cs.take places) * 10 ^ (places - (cs.take places).length)
      = digitsValue cs * 10 ^ places / 10 ^ cs.length := by
  by_cases h : cs.length ≤ places
  · rw [List.take_of_length_le h, ← pow_sub_mul_pow 10 h, ← mul_assoc,
      Nat.mul_div_cancel _ (Nat.pow_pos (by decide))]
  · have hlength : (cs.take places).length = places := List.length_take_of_le (by omega)
    have hrest : digitsValue (cs.drop places) < 10 ^ (cs.length - places) := by
      rw [← List.length_drop]
      exact digitsValue_lt fun c hc => digits c (List.mem_of_mem_drop hc)
    have hvalue : digitsValue cs = digitsValue (cs.take places) * 10 ^ (cs.length - places)
        + digitsValue (cs.drop places) := by
      conv_lhs => rw [← List.take_append_drop places cs]
      rw [digitsValue_append, List.length_drop]
    rw [hlength, Nat.sub_self, pow_zero, mul_one, hvalue,
      ← pow_sub_mul_pow 10 (Nat.le_of_not_le h), Nat.mul_div_mul_right _ _ (Nat.pow_pos (by decide)),
      Nat.mul_comm, Nat.mul_add_div (Nat.pow_pos (by decide)), Nat.div_eq_of_lt hrest, Nat.add_zero]

/-- A positive number is not written with a zero in front. -/
theorem head_toDigits {n : Nat} (hn : 0 < n) : (Nat.toDigits 10 n).head? ≠ some '0' := by
  induction n using Nat.strongRecOn with
  | _ n ih =>
      rw [Nat.toDigits_eq_if (by decide)]
      split
      · rename_i hlt
        have : ∀ d, d < 10 → 0 < d → [Nat.digitChar d].head? ≠ some '0' := by decide
        exact this n hlt hn
      · rename_i hge
        rw [List.head?_append, List.head?_eq_some_head Nat.toDigits_ne_nil, Option.some_or,
          ← List.head?_eq_some_head]
        exact ih (n / 10) (by omega) (by omega)

/-- Digits of a positive number from the first to the last that is not zero. -/
structure Significant (ds : List Char) : Prop where
  nonempty : ds ≠ []
  digits : ∀ c ∈ ds, isDecimalDigit c = true
  head : ds.head? ≠ some '0'

namespace Binary64.Shortest

/-- The zeros at the end of a number, and the digits in front of them. -/
theorem toDigits_eq_stripZeros (n : Nat) :
    ∃ j, Nat.toDigits 10 n = stripZeros n ++ List.replicate j '0' := by
  have hsplit := List.takeWhile_append_dropWhile (p := (· == '0')) (l := (Nat.toDigits 10 n).reverse)
  have hzeros : (Nat.toDigits 10 n).reverse.takeWhile (· == '0')
      = List.replicate ((Nat.toDigits 10 n).reverse.takeWhile (· == '0')).length '0' := by
    refine List.eq_replicate_of_mem fun c hc => ?_
    simpa using List.mem_takeWhile_imp hc
  refine ⟨((Nat.toDigits 10 n).reverse.takeWhile (· == '0')).length, ?_⟩
  rw [stripZeros, ← List.reverse_replicate, ← hzeros, ← List.reverse_append, hsplit,
    List.reverse_reverse]

theorem significant_stripZeros {n : Nat} (hn : 0 < n) : Significant (stripZeros n) := by
  obtain ⟨j, hj⟩ := toDigits_eq_stripZeros n
  have hne : stripZeros n ≠ [] := by
    intro hnil
    have hvalue := digitsValue_toDigits n
    rw [hj, hnil, digitsValue_append_zeros, digitsValue, List.foldl_nil, Nat.zero_mul] at hvalue
    omega
  refine ⟨hne, fun c hc => ?_, fun hzero => head_toDigits hn ?_⟩
  · refine isDecimalDigit_of_isDigit (isDigit_of_mem_decimal (n := n) ?_)
    rw [hj]
    exact List.mem_append_left _ hc
  · rw [hj, List.head?_append, hzero, Option.some_or]

/-- The decimal of a value is significant digits and rounds to the value. -/
theorem decimal_spec (code : Nat) :
    Significant (decimal (code + 1)).digits
      ∧ RoundsTo (code + 1) (digitsValue (decimal (code + 1)).digits)
        ((decimal (code + 1)).point - (decimal (code + 1)).digits.length) := by
  have hfound : RoundsTo (code + 1) _ _ := search_roundsTo code (Nat.succ_pos 16) rfl
  unfold decimal
  dsimp only
  generalize search (code + 1) (magnitude (unitsOfCode (code + 1)) unitsPerOne) 17 1 = found
    at hfound ⊢
  obtain ⟨n, e⟩ := found
  obtain ⟨j, hj⟩ := toDigits_eq_stripZeros n
  refine ⟨significant_stripZeros (hfound.pos (Nat.succ_pos code)), ?_⟩
  have hvalue : n = digitsValue (stripZeros n) * 10 ^ j := by
    rw [← digitsValue_append_zeros, ← hj, digitsValue_toDigits]
  have hpoint : e + Int.ofNat (Nat.toDigits 10 n).length - (stripZeros n).length = e + j := by
    rw [hj, List.length_append, List.length_replicate, Int.ofNat_eq_natCast]
    omega
  rw [hpoint]
  refine RoundsTo.of_shift j ?_
  rwa [← hvalue]

end Binary64.Shortest

/-! ## Numerals -/

/-- A number text in its parts: digits, digits behind a point, and the sign and the digits of an
exponent. There is no point without digits behind it. -/
structure Numeral where
  whole : List Char
  fraction : List Char
  exponent? : Option (List Char × List Char)

namespace Numeral

/-- The point and the digits behind it. -/
def fractionText (n : Numeral) : List Char :=
  match n.fraction with
  | [] => []
  | d :: ds => '.' :: d :: ds

/-- The letter, the sign and the digits of the exponent. -/
def exponentText (n : Numeral) : List Char :=
  match n.exponent? with
  | none => []
  | some (sign, ds) => 'e' :: (sign ++ ds)

def text (n : Numeral) : List Char := n.whole ++ (n.fractionText ++ n.exponentText)

def exponent (n : Numeral) : Int :=
  match n.exponent? with
  | none => 0
  | some (sign, ds) => if sign = ['-'] then -(digitsValue ds : Int) else digitsValue ds

/-- The decimal that a numeral denotes with a sign. -/
def decimal (n : Numeral) (negative : Bool) : Decimal :=
  ⟨negative, digitsValue (n.whole ++ n.fraction), n.exponent - n.fraction.length⟩

/-- A numeral of digits, without a needless zero in front, and with a sign in its exponent only. -/
structure WellFormed (n : Numeral) : Prop where
  whole : ∀ c ∈ n.whole, isDecimalDigit c = true
  nonempty : n.whole ≠ []
  unpadded : n.whole = ['0'] ∨ n.whole.head? ≠ some '0'
  fraction : ∀ c ∈ n.fraction, isDecimalDigit c = true
  sign : ∀ e ∈ n.exponent?, e.1 = [] ∨ e.1 = ['+'] ∨ e.1 = ['-']
  exponent : ∀ e ∈ n.exponent?, e.2 ≠ [] ∧ ∀ c ∈ e.2, isDecimalDigit c = true

end Numeral

theorem splitSign_of_digit {c : Char} {cs : List Char} (digit : isDecimalDigit c = true) :
    splitSign (c :: cs) = (false, c :: cs) := by
  apply splitSign_of_sign .bare
  intro c' hc'
  obtain rfl := Option.some.inj hc'
  exact unsigned_of_digit digit

namespace Numeral

theorem exponentText_of_wellFormed {n : Numeral} (wf : n.WellFormed) :
    ExponentText n.exponentText n.exponent := by
  unfold exponentText exponent
  cases hexponent : n.exponent? with
  | none => exact .absent
  | some e =>
      obtain ⟨sign, ds⟩ := e
      obtain ⟨nonempty, hdigits⟩ := wf.exponent _ hexponent
      rcases wf.sign _ hexponent with hsign | hsign | hsign
      · obtain rfl : sign = [] := hsign
        exact .behindLetter (.inl rfl) .bare nonempty hdigits
      · obtain rfl : sign = ['+'] := hsign
        exact .behindLetter (.inl rfl) .plus nonempty hdigits
      · obtain rfl : sign = ['-'] := hsign
        exact .behindLetter (.inl rfl) .minus nonempty hdigits

theorem fractionText_fraction (n : Numeral) : FractionText n.fractionText n.fraction := by
  unfold fractionText
  cases n.fraction with
  | nil => exact .absent
  | cons d ds => exact .behindPoint (d :: ds)

/-- A numeral is taken apart into its parts again. -/
theorem readUnsigned?_text {n : Numeral} (wf : n.WellFormed) (negative : Bool) :
    Decimal.readUnsigned? negative n.text = some (n.decimal negative) := by
  have hdigits : ∀ c ∈ n.whole ++ n.fraction, isDecimalDigit c = true := by
    intro c hc
    rcases List.mem_append.mp hc with hc | hc
    · exact wf.whole c hc
    · exact wf.fraction c hc
  apply readUnsigned?_eq_some.mpr
  exact .parts hdigits (by simp [wf.nonempty]) n.fractionText_fraction (exponentText_of_wellFormed wf)

end Numeral

/-- Digits are read as their number without a power of ten. -/
theorem Decimal.readUnsigned?_of_digits (negative : Bool) {digits : List Char}
    (nonempty : digits ≠ []) (hdigits : ∀ c ∈ digits, isDecimalDigit c = true) :
    readUnsigned? negative digits = some ⟨negative, Nat.ofDigitChars 10 digits 0, 0⟩ := by
  have htake : digits.takeWhile isDecimalDigit = digits := List.takeWhile_eq_self_iff.mpr hdigits
  have hdrop : digits.dropWhile isDecimalDigit = [] := List.dropWhile_eq_nil_iff.mpr hdigits
  unfold readUnsigned?
  rw [htake, hdrop]
  simp [nonempty, readExponent?, digitsValue_eq]

/-! ## The layouts of a decimal -/

namespace Binary64.Shortest

/-- Digits around the point, in parts. -/
def positionalNumeral (s : Shortest) : Numeral :=
  if s.point ≤ 0 then ⟨['0'], List.replicate (-s.point).toNat '0' ++ s.digits, none⟩
  else if s.digits.length ≤ s.point then
    ⟨s.digits ++ List.replicate (s.point - s.digits.length).toNat '0', ['0'], none⟩
  else ⟨s.digits.take s.point.toNat, s.digits.drop s.point.toNat, none⟩

/-- One digit before the point and an exponent, in parts. -/
def exponentNumeral (plus : List Char) (s : Shortest) : Numeral :=
  ⟨s.digits.take 1, s.digits.drop 1,
    some (if 0 ≤ s.point - 1 then plus else ['-'], Nat.toDigits 10 (s.point - 1).natAbs)⟩

/-- A numeral that writes a decimal: it has a point or an exponent, and zeros at the end of its digits
are made up for by its exponent. -/
structure Writes (n : Numeral) (s : Shortest) : Prop where
  wellFormed : n.WellFormed
  fractional : n.fraction ≠ [] ∨ n.exponent? ≠ none
  value : ∃ j : Nat, digitsValue (n.whole ++ n.fraction) = digitsValue s.digits * 10 ^ j
    ∧ n.exponent - n.fraction.length = s.point - s.digits.length - j

theorem isDecimalDigit_of_zeros {j : Nat} {c : Char} (h : c ∈ List.replicate j '0') :
    isDecimalDigit c = true := by
  rw [List.eq_of_mem_replicate h]
  rfl

variable {s : Shortest}

theorem text_positionalNumeral (significant : Significant s.digits) :
    s.positionalNumeral.text = s.positional true := by
  obtain ⟨hne, -, -⟩ := significant
  unfold positionalNumeral positional Numeral.text Numeral.exponentText
  dsimp only
  by_cases hfront : s.point ≤ 0
  · obtain ⟨d, ds, hds⟩ := List.exists_cons_of_ne_nil hne
    rw [if_pos hfront, if_pos hfront]
    cases hzeros : List.replicate (-s.point).toNat '0' with
    | nil => simp [Numeral.fractionText, hds]
    | cons z zs => simp [Numeral.fractionText]
  · rw [if_neg hfront, if_neg hfront]
    by_cases hbehind : s.digits.length ≤ s.point
    · rw [if_pos hbehind, if_pos hbehind]
      simp [Numeral.fractionText]
    · rw [if_neg hbehind, if_neg hbehind]
      have hdrop : s.digits.drop s.point.toNat ≠ [] := by
        rw [Ne, List.drop_eq_nil_iff]
        omega
      obtain ⟨d, ds, hds⟩ := List.exists_cons_of_ne_nil hdrop
      simp [Numeral.fractionText, hds]

theorem writes_positionalNumeral (significant : Significant s.digits) :
    Writes s.positionalNumeral s := by
  obtain ⟨hne, hdigits, hhead⟩ := significant
  have hlength : 0 < s.digits.length := List.length_pos_iff.mpr hne
  unfold positionalNumeral
  split
  · refine ⟨⟨by simp [isDecimalDigit], by simp, .inl rfl, ?_, by simp, by simp⟩, .inl (by simp [hne]),
      0, ?_, ?_⟩
    · exact fun c hc => (List.mem_append.mp hc).elim isDecimalDigit_of_zeros (hdigits c)
    · rw [pow_zero, Nat.mul_one]
      exact digitsValue_zeros_append ((-s.point).toNat + 1) s.digits
    · simp [Numeral.exponent]
      omega
  · split
    · refine ⟨⟨?_, by simp [hne], .inr ?_, by simp [isDecimalDigit], by simp, by simp⟩, .inl (by simp),
        (s.point - s.digits.length).toNat + 1, ?_, ?_⟩
      · exact fun c hc => (List.mem_append.mp hc).elim (hdigits c) isDecimalDigit_of_zeros
      · rwa [List.head?_append, List.head?_eq_some_head hne, Option.some_or, ← List.head?_eq_some_head]
      · rw [List.append_assoc, ← digitsValue_append_zeros, List.replicate_succ']
      · simp [Numeral.exponent]
        omega
    · have htake : s.digits.take s.point.toNat ≠ [] := by
        rw [Ne, List.take_eq_nil_iff]
        exact fun h => h.elim (by omega) hne
      have hdrop : s.digits.drop s.point.toNat ≠ [] := by
        rw [Ne, List.drop_eq_nil_iff]
        omega
      refine ⟨⟨fun c hc => hdigits c (List.mem_of_mem_take hc), htake, .inr ?_,
        fun c hc => hdigits c (List.mem_of_mem_drop hc), by simp, by simp⟩, .inl hdrop, 0, ?_, ?_⟩
      · rwa [List.head?_take, if_neg (by omega)]
      · rw [List.take_append_drop, pow_zero, Nat.mul_one]
      · simp [Numeral.exponent]
        omega

theorem text_exponentNumeral (significant : Significant s.digits) (plus : List Char) :
    (s.exponentNumeral plus).text = s.withExponent plus := by
  obtain ⟨d, ds, hds⟩ := List.exists_cons_of_ne_nil significant.nonempty
  have hexponent : (if 0 ≤ s.point - 1 then plus else ['-']) ++ Nat.toDigits 10 (s.point - 1).natAbs
      = (if 0 ≤ s.point - 1 then plus else []) ++ (toString (s.point - 1)).toList := by
    cases s.point - 1 with
    | ofNat n =>
        have hpositive : 0 ≤ Int.ofNat n := Int.natCast_nonneg n
        rw [if_pos hpositive, if_pos hpositive, toList_toString_ofNat]
        rfl
    | negSucc n =>
        have hnegative : ¬ 0 ≤ Int.negSucc n := by omega
        rw [if_neg hnegative, if_neg hnegative, toList_toString_negSucc]
        rfl
  unfold exponentNumeral withExponent Numeral.text Numeral.exponentText Numeral.fractionText
  dsimp only
  rw [hds, hexponent]
  cases ds with
  | nil => simp
  | cons d' ds => simp

theorem writes_exponentNumeral (significant : Significant s.digits) {plus : List Char}
    (hplus : plus = [] ∨ plus = ['+']) : Writes (s.exponentNumeral plus) s := by
  obtain ⟨hne, hdigits, hhead⟩ := significant
  have hlength : 0 < s.digits.length := List.length_pos_iff.mpr hne
  refine ⟨⟨fun c hc => hdigits c (List.mem_of_mem_take hc), ?_, .inr ?_,
    fun c hc => hdigits c (List.mem_of_mem_drop hc), ?_, ?_⟩, .inr (by simp [exponentNumeral]), 0, ?_, ?_⟩
  · simp [exponentNumeral, hne]
  · simpa [exponentNumeral, List.head?_take] using hhead
  · rintro _ ⟨⟩
    dsimp only
    split
    · exact hplus.elim .inl fun h => .inr (.inl h)
    · exact .inr (.inr rfl)
  · rintro _ ⟨⟩
    exact ⟨Nat.toDigits_ne_nil, fun c hc => isDecimalDigit_of_isDigit (isDigit_of_mem_decimal hc)⟩
  · rw [exponentNumeral, List.take_append_drop, pow_zero, Nat.mul_one]
  · simp only [exponentNumeral, Numeral.exponent, digitsValue_toDigits, List.length_drop]
    have hsign : (if 0 ≤ s.point - 1 then plus else ['-']) = ['-'] ↔ s.point - 1 < 0 := by
      split
      · rename_i hpositive
        rcases hplus with rfl | rfl <;> simp <;> omega
      · rename_i hnegative
        exact iff_of_true rfl (by omega)
    simp only [hsign]
    split <;> omega

end Binary64.Shortest

/-! ## Finite values -/

namespace Binary64

open Shortest

/-- A value is written as a sign and a numeral, which denotes it if it is finite. -/
theorem exists_scientific (x : Binary64) {plus : List Char} (hplus : plus = [] ∨ plus = ['+']) :
    ∃ n : Numeral, n.WellFormed ∧ (n.fraction ≠ [] ∨ n.exponent? ≠ none)
      ∧ (x.scientific plus).toList = (if x.isNegative then ['-'] else []) ++ n.text
      ∧ (x.isFinite = true → (n.decimal x.isNegative).toBinary64 = x) := by
  rcases Nat.eq_zero_or_pos x.code with hzero | hpositive
  · -- Zero has no shortest decimal and a text of its own.
    refine ⟨⟨['0'], ['0'], none⟩, ?_, .inl (by simp), ?_, fun _ => ?_⟩
    · have hdigit : ∀ c ∈ ['0'], isDecimalDigit c = true := List.forall_mem_singleton.mpr rfl
      exact ⟨hdigit, List.cons_ne_nil _ _, .inl rfl, hdigit, nofun, nofun⟩
    · rw [scientific, if_pos hzero, String.toList_ofList]
      rfl
    · have hread : (Numeral.decimal ⟨['0'], ['0'], none⟩ x.isNegative).toBinary64
          = ofCode x.isNegative 0 := rfl
      rw [hread, ← hzero, ofCode_code]
  · obtain ⟨code, hcode⟩ := Nat.exists_eq_add_of_lt hpositive
    rw [Nat.zero_add] at hcode
    obtain ⟨significant, hrounds⟩ := decimal_spec code
    have hnumeral : ∃ n, Writes n (decimal (code + 1)) ∧ n.text
        = if -5 < (decimal (code + 1)).point ∧ (decimal (code + 1)).point ≤ 16
          then (decimal (code + 1)).positional true else (decimal (code + 1)).withExponent plus := by
      split
      · exact ⟨_, writes_positionalNumeral significant, text_positionalNumeral significant⟩
      · exact ⟨_, writes_exponentNumeral significant hplus, text_exponentNumeral significant plus⟩
    obtain ⟨n, ⟨wellFormed, fractional, j, hdigits, hscale⟩, htext⟩ := hnumeral
    refine ⟨n, wellFormed, fractional, ?_, fun hfinite => ?_⟩
    · rw [scientific, if_neg (by omega), String.toList_ofList, htext, hcode]
    · have hfinite' : code + 1 < infinityCode := by
        rw [← hcode]
        simpa [isFinite] using hfinite
      rw [Numeral.decimal, hdigits, hscale,
        toBinary64_of_roundsTo (Nat.add_one_pos code) hfinite' (hrounds.shift j), ← hcode,
        ofCode_code]

/-- A number without sign that begins with a digit is no word. -/
theorem read?_of_digit {cs : List Char} {negative : Bool} {c : Char} {body : List Char}
    (sign : splitSign cs = (negative, c :: body)) (digit : isDecimalDigit c = true) :
    read? cs = (Decimal.readUnsigned? negative (c :: body)).map Decimal.toBinary64 := by
  have hword : ∀ w : String, w.toList.head? = some 'i' ∨ w.toList.head? = some 'n' →
      String.ofList ((c :: body).map Char.toLower) ≠ w := by
    rintro w hw rfl
    -- A digit stays as it is in lower case, and the words begin with letters.
    have hlower : c.toLower = c := by
      have hbelow : c.toNat < 65 := by
        simp only [isDecimalDigit, Bool.and_eq_true, decide_eq_true_eq] at digit
        omega
      unfold Char.toLower
      rw [dif_neg]
      rintro ⟨hletter, -⟩
      have : 65 ≤ c.toNat := hletter
      omega
    rw [String.toList_ofList, List.map_cons, List.head?_cons, hlower] at hw
    rcases hw with hw | hw <;> exact absurd (Option.some.inj hw ▸ digit) (by decide)
  rw [read?, sign]
  dsimp only
  rw [if_neg (not_or.mpr ⟨hword _ (.inl rfl), hword _ (.inl rfl)⟩), if_neg (hword _ (.inr rfl))]

/-- **Finite values read back.** The text of a finite value is read as the value. -/
theorem readFinite?_scientific {x : Binary64} (finite : x.isFinite = true) {plus : List Char}
    (hplus : plus = [] ∨ plus = ['+']) : readFinite? (x.scientific plus).toList = some x := by
  obtain ⟨n, wellFormed, -, htext, hvalue⟩ := exists_scientific x hplus
  obtain ⟨d, ds, hwhole⟩ := List.exists_cons_of_ne_nil wellFormed.nonempty
  have hdigit : isDecimalDigit d = true := wellFormed.whole d (by rw [hwhole]; exact List.mem_cons_self)
  have hbegins : n.text = d :: (ds ++ (n.fractionText ++ n.exponentText)) := by
    rw [Numeral.text, hwhole, List.cons_append]
  have hsign : splitSign ((if x.isNegative then ['-'] else []) ++ n.text)
      = (x.isNegative, d :: (ds ++ (n.fractionText ++ n.exponentText))) := by
    rw [hbegins]
    cases x.isNegative with
    | true => rfl
    | false => exact splitSign_of_digit hdigit
  rw [readFinite?, htext, read?_of_digit hsign hdigit, ← hbegins,
    Numeral.readUnsigned?_text wellFormed, Option.map_some, hvalue finite, Option.filter_some,
    if_pos finite]

end Binary64

end PowerBench
