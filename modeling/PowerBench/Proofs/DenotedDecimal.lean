import Mathlib.Algebra.Order.Field.Rat
import Mathlib.Data.List.TakeWhile
import PowerBench.Binary64.Decimal

set_option autoImplicit false

/-! # The decimal number that a text denotes

A decimal number is written with a sign, digits, a point with digits behind it, and an exponent, and
only one digit has to be there (`DecimalText`). Reading finds the decimal of such a text and refuses
every other text (`decimalText_iff`), so a text denotes one number at most (`Denotes.unique`). A text
that is read as a finite value is such a text (`exists_decimal_of_readFinite?`).
-/

namespace PowerBench

/-! ## Texts -/

/-- A sign in front of a number. -/
inductive SignText : List Char → Bool → Prop where
  | bare : SignText [] false
  | plus : SignText ['+'] false
  | minus : SignText ['-'] true

/-- A point and the digits behind it, or neither. -/
inductive FractionText : List Char → List Char → Prop where
  | absent : FractionText [] []
  | behindPoint (digits : List Char) : FractionText ('.' :: digits) digits

/-- An exponent: a letter, a sign and digits, or nothing. -/
inductive ExponentText : List Char → Int → Prop where
  | absent : ExponentText [] 0
  | behindLetter {letter : Char} {sign digits : List Char} {negative : Bool}
      (known : letter = 'e' ∨ letter = 'E') (signed : SignText sign negative) (nonempty : digits ≠ [])
      (decimal : ∀ c ∈ digits, isDecimalDigit c = true) :
      ExponentText (letter :: (sign ++ digits))
        (if negative then -(digitsValue digits : Int) else digitsValue digits)

/-- A decimal without its sign. The digits behind the point count into the exponent. -/
inductive UnsignedText (negative : Bool) : List Char → Decimal → Prop where
  | parts {whole point fraction exponent : List Char} {e : Int}
      (decimal : ∀ c ∈ whole ++ fraction, isDecimalDigit c = true) (nonempty : whole ++ fraction ≠ [])
      (behind : FractionText point fraction) (scaled : ExponentText exponent e) :
      UnsignedText negative (whole ++ (point ++ exponent))
        ⟨negative, digitsValue (whole ++ fraction), e - fraction.length⟩

def DecimalText (text : List Char) (d : Decimal) : Prop :=
  ∃ sign negative body, text = sign ++ body ∧ SignText sign negative ∧ UnsignedText negative body d

/-! ## Signs -/

theorem splitSign_of_sign {sign body : List Char} {negative : Bool} (h : SignText sign negative)
    (unsigned : ∀ c ∈ body.head?, c ≠ '+' ∧ c ≠ '-') : splitSign (sign ++ body) = (negative, body) := by
  cases h with
  | bare =>
      show splitSign body = _
      unfold splitSign
      split
      · exact absurd rfl (unsigned '-' rfl).2
      · exact absurd rfl (unsigned '+' rfl).1
      · rfl
  | plus => rfl
  | minus => rfl

theorem exists_sign (cs : List Char) :
    ∃ sign, SignText sign (splitSign cs).1 ∧ cs = sign ++ (splitSign cs).2 := by
  unfold splitSign
  split
  · exact ⟨['-'], .minus, rfl⟩
  · exact ⟨['+'], .plus, rfl⟩
  · exact ⟨[], .bare, rfl⟩

theorem unsigned_of_digit {c : Char} (digit : isDecimalDigit c = true) : c ≠ '+' ∧ c ≠ '-' := by
  constructor
  · rintro rfl
    exact absurd digit (by decide)
  · rintro rfl
    exact absurd digit (by decide)

/-! ## Exponents -/

/-- The letter of an exponent is neither a digit nor a point. -/
theorem ExponentText.head {text : List Char} {e : Int} (h : ExponentText text e) :
    ∀ c ∈ text.head?, isDecimalDigit c = false ∧ c ≠ '.' := by
  cases h with
  | absent => simp
  | behindLetter known signed nonempty decimal =>
      intro c hc
      obtain rfl := Option.some.inj hc
      rcases known with rfl | rfl
      · decide
      · decide

theorem readExponent?_eq_some {cs : List Char} {e : Int} :
    Decimal.readExponent? cs = some e ↔ ExponentText cs e := by
  have hcons : ∀ c cs, Decimal.readExponent? (c :: cs) = if c ≠ 'e' ∧ c ≠ 'E' then none
      else if (splitSign cs).2.isEmpty || !(splitSign cs).2.all isDecimalDigit then none
      else some (if (splitSign cs).1 then -Int.ofNat (digitsValue (splitSign cs).2)
        else Int.ofNat (digitsValue (splitSign cs).2)) := fun _ _ => rfl
  constructor
  · intro h
    cases cs with
    | nil =>
        obtain rfl := Option.some.inj h
        exact .absent
    | cons c cs =>
        rw [hcons] at h
        split at h
        · cases h
        · rename_i hletter
          split at h
          · cases h
          · rename_i hdigits
            simp only [Bool.or_eq_true, Bool.not_eq_true', not_or, Bool.not_eq_false,
              List.isEmpty_iff, List.all_eq_true] at hdigits
            obtain rfl := Option.some.inj h
            obtain ⟨sign, hsign, hcs⟩ := exists_sign cs
            have hletter : c = 'e' ∨ c = 'E' := by
              by_contra hnone
              exact hletter (not_or.mp hnone)
            have hparts := ExponentText.behindLetter hletter hsign hdigits.1 hdigits.2
            rw [← hcs] at hparts
            exact hparts
  · intro h
    cases h with
    | absent => rfl
    | @behindLetter letter sign digits negative hletter hsign nonempty decimal =>
        have hsplit := splitSign_of_sign hsign fun c hc =>
          unsigned_of_digit (decimal c (List.mem_of_mem_head? hc))
        have hdigits : (digits.isEmpty || !digits.all isDecimalDigit) = false := by
          rw [List.isEmpty_eq_false_iff.mpr nonempty, List.all_eq_true.mpr decimal]
          rfl
        have hknown : ¬ (letter ≠ 'e' ∧ letter ≠ 'E') := by
          rintro ⟨hsmall, hcapital⟩
          exact hletter.elim hsmall hcapital
        rw [hcons, hsplit, if_neg hknown, hdigits]
        rfl

/-! ## Decimals -/

/-- The front of a text up to the first character that is not of its kind. -/
theorem takeWhile_front {p : Char → Bool} {front rest : List Char}
    (inside : ∀ c ∈ front, p c = true) (stop : ∀ c ∈ rest.head?, p c = false) :
    (front ++ rest).takeWhile p = front ∧ (front ++ rest).dropWhile p = rest := by
  rw [List.takeWhile_append_of_pos inside, List.dropWhile_append_of_pos inside]
  cases rest with
  | nil => simp
  | cons c cs =>
      have hc := stop c rfl
      rw [List.takeWhile_cons_of_neg (by simp [hc]), List.dropWhile_cons_of_neg (by simp [hc])]
      exact ⟨List.append_nil front, rfl⟩

/-- A decimal without its sign begins with a digit or a point. -/
theorem UnsignedText.begins {negative : Bool} {text : List Char} {d : Decimal}
    (h : UnsignedText negative text d) :
    ∃ c rest, text = c :: rest ∧ (isDecimalDigit c = true ∨ c = '.') := by
  cases h with
  | @parts whole _ fraction exponent e decimal nonempty point hexponent =>
      cases whole with
      | cons c whole => exact ⟨c, _, rfl, .inl (decimal c List.mem_cons_self)⟩
      | nil =>
          -- Without a digit in front there are digits behind the point.
          cases point with
          | absent => exact absurd rfl nonempty
          | behindPoint => exact ⟨'.', _, rfl, .inr rfl⟩

theorem UnsignedText.unsigned {negative : Bool} {text : List Char} {d : Decimal}
    (h : UnsignedText negative text d) : ∀ c ∈ text.head?, c ≠ '+' ∧ c ≠ '-' := by
  obtain ⟨c, rest, rfl, hc⟩ := h.begins
  intro c' hc'
  obtain rfl := Option.some.inj hc'
  rcases hc with hdigit | rfl
  · exact unsigned_of_digit hdigit
  · decide

theorem readUnsigned?_eq_some {negative : Bool} {cs : List Char} {d : Decimal} :
    Decimal.readUnsigned? negative cs = some d ↔ UnsignedText negative cs d := by
  constructor
  · intro h
    have hsplit := List.takeWhile_append_dropWhile (p := isDecimalDigit) (l := cs)
    have hwhole : ∀ c ∈ cs.takeWhile isDecimalDigit, isDecimalDigit c = true :=
      fun c hc => List.mem_takeWhile_imp hc
    unfold Decimal.readUnsigned? at h
    dsimp only at h
    split at h
    · rename_i r hpoint
      dsimp only at h
      split at h
      · cases h
      · rename_i hdigits
        obtain ⟨e, he, rfl⟩ := Option.map_eq_some_iff.mp h
        have hcs : cs = cs.takeWhile isDecimalDigit
            ++ ('.' :: r.takeWhile isDecimalDigit ++ r.dropWhile isDecimalDigit) := by
          rw [List.cons_append, List.takeWhile_append_dropWhile, ← hpoint, hsplit]
        have hall : ∀ c ∈ cs.takeWhile isDecimalDigit ++ r.takeWhile isDecimalDigit,
            isDecimalDigit c = true := by
          intro c hc
          rcases List.mem_append.mp hc with hc | hc
          · exact hwhole c hc
          · exact List.mem_takeWhile_imp hc
        have hsome : cs.takeWhile isDecimalDigit ++ r.takeWhile isDecimalDigit ≠ [] := by
          intro hnone
          rw [List.append_eq_nil_iff] at hnone
          simp [hnone.1, hnone.2] at hdigits
        have hparts : UnsignedText negative _ _ :=
          .parts hall hsome (.behindPoint _) (readExponent?_eq_some.mp he)
        rw [← hcs] at hparts
        exact hparts
    · dsimp only at h
      split at h
      · cases h
      · rename_i hdigits
        obtain ⟨e, he, rfl⟩ := Option.map_eq_some_iff.mp h
        have hall : ∀ c ∈ cs.takeWhile isDecimalDigit ++ [], isDecimalDigit c = true := by
          simpa using hwhole
        have hparts : UnsignedText negative _ _ :=
          .parts hall (by simpa using hdigits) .absent (readExponent?_eq_some.mp he)
        rw [List.nil_append, hsplit] at hparts
        exact hparts
  · intro h
    cases h with
    | @parts whole point fraction exponent e decimal nonempty hpoint hexponent =>
        have hstop := hexponent.head
        have hwhole : ∀ c ∈ whole, isDecimalDigit c = true :=
          fun c hc => decimal c (List.mem_append_left _ hc)
        have hfraction : ∀ c ∈ fraction, isDecimalDigit c = true :=
          fun c hc => decimal c (List.mem_append_right _ hc)
        unfold Decimal.readUnsigned?
        dsimp only
        cases hpoint with
        | absent =>
            obtain ⟨htake, hdrop⟩ := takeWhile_front hwhole fun c hc => (hstop c hc).1
            rw [List.append_nil] at nonempty
            rw [List.nil_append, htake, hdrop]
            split
            · exact absurd rfl (hstop '.' rfl).2
            · simp [nonempty, readExponent?_eq_some.mpr hexponent]
        | behindPoint =>
            have hpoint : ∀ c ∈ ('.' :: (fraction ++ exponent)).head?, isDecimalDigit c = false := by
              simp [isDecimalDigit]
            obtain ⟨htake, hdrop⟩ := takeWhile_front hwhole hpoint
            obtain ⟨htake', hdrop'⟩ := takeWhile_front hfraction fun c hc => (hstop c hc).1
            have hsome : (whole.isEmpty && fraction.isEmpty) = false := by
              rw [← Bool.not_eq_true, Bool.and_eq_true, List.isEmpty_iff, List.isEmpty_iff,
                ← List.append_eq_nil_iff]
              exact nonempty
            rw [List.cons_append, htake, hdrop]
            simp only [htake', hdrop', hsome, readExponent?_eq_some.mpr hexponent]
            rfl

/-- A text is that of a decimal if this is what is read behind its sign. -/
theorem decimalText_iff {cs : List Char} {d : Decimal} :
    DecimalText cs d ↔ Decimal.readUnsigned? (splitSign cs).1 (splitSign cs).2 = some d := by
  constructor
  · rintro ⟨sign, negative, body, rfl, hsign, hbody⟩
    rw [splitSign_of_sign hsign hbody.unsigned]
    exact readUnsigned?_eq_some.mpr hbody
  · intro h
    obtain ⟨sign, hsign, hcs⟩ := exists_sign cs
    exact ⟨sign, _, _, hcs, hsign, readUnsigned?_eq_some.mp h⟩

theorem DecimalText.unique {cs : List Char} {d d' : Decimal} (h : DecimalText cs d)
    (h' : DecimalText cs d') : d = d' :=
  Option.some.inj ((decimalText_iff.mp h).symm.trans (decimalText_iff.mp h'))

/-- What is read as a finite value is the text of a decimal. -/
theorem exists_decimal_of_readFinite? {cs : List Char} {x : Binary64}
    (h : Binary64.readFinite? cs = some x) :
    ∃ d, DecimalText cs d ∧ d.toBinary64 = x ∧ x.isFinite = true := by
  obtain ⟨hread, hfinite⟩ := Option.filter_eq_some_iff.mp h
  -- The words stand for values that are not finite, so they have been filtered out.
  have hinfinity : ∀ negative, (Binary64.infinity negative).isFinite = false := by decide
  have hnan : ∀ negative, (Binary64.ofCode negative Binary64.nan.code).isFinite = false := by decide
  unfold Binary64.read? at hread
  dsimp only at hread
  split at hread
  · obtain rfl := Option.some.inj hread
    rw [hinfinity] at hfinite
    cases hfinite
  · split at hread
    · obtain rfl := Option.some.inj hread
      rw [hnan] at hfinite
      cases hfinite
    · obtain ⟨d, hd, hx⟩ := Option.map_eq_some_iff.mp hread
      exact ⟨d, decimalText_iff.mpr hd, hx, hfinite⟩

/-! ## Numbers -/

def signed (negative : Bool) (a : ℚ) : ℚ := if negative then -a else a

namespace Decimal

/-- The number that a decimal stands for, without its sign. -/
def magnitude (d : Decimal) : ℚ := d.digits * 10 ^ d.exponent

/-- The number that a decimal stands for. -/
def value (d : Decimal) : ℚ := signed d.negative d.magnitude

end Decimal

/-- A text denotes a rational number. -/
def Denotes (text : List Char) (q : ℚ) : Prop := ∃ d, DecimalText text d ∧ d.value = q

theorem DecimalText.denotes {text : List Char} {d : Decimal} (h : DecimalText text d) :
    Denotes text d.value := ⟨d, h, rfl⟩

theorem Denotes.unique {text : List Char} {p q : ℚ} (hp : Denotes text p) (hq : Denotes text q) :
    p = q := by
  obtain ⟨d, hd, rfl⟩ := hp
  obtain ⟨d', hd', rfl⟩ := hq
  rw [hd.unique hd']

end PowerBench
