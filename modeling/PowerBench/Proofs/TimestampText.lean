import Mathlib.Data.List.DropRight
import Mathlib.Data.List.TakeWhile
import PowerBench.Proofs.DenotedDecimal
import PowerBench.Proofs.WrittenInteger
import PowerBench.Timestamp.Read

set_option autoImplicit false

/-! # The text of a timestamp

What a timestamp is read from holds digits, blanks, and the signs that numbers and dates are written
with; blanks around it do not matter (`read_trimBlanks`). So no text that is accepted holds an
equals sign (`notMem_of_read`), and where one begins with a dash, a digit or a point follows
(`signed_of_read`).
-/

namespace PowerBench

/-! ## Trimming -/

theorem trimEnds_eq {α : Type} (p : α → Bool) (xs : List α) :
    trimEnds p xs = (xs.dropWhile p).rdropWhile p := rfl

theorem trimEnds_trimEnds {α : Type} (p : α → Bool) (xs : List α) :
    trimEnds p (trimEnds p xs) = trimEnds p xs := by
  have hfront : (trimEnds p xs).dropWhile p = trimEnds p xs := by
    rw [List.dropWhile_eq_self_iff]
    intro nonempty
    -- The first element that is left was the first one after the front was trimmed.
    obtain ⟨rest, hrest⟩ := List.rdropWhile_prefix p (xs.dropWhile p)
    have hlength : 0 < (xs.dropWhile p).length := by
      rw [← hrest, List.length_append]
      exact Nat.lt_of_lt_of_le nonempty (Nat.le_add_right _ _)
    have hhead := List.dropWhile_get_zero_not p xs hlength
    have hsame : (trimEnds p xs)[0] = (xs.dropWhile p)[0] :=
      (List.rdropWhile_prefix p (xs.dropWhile p)).getElem nonempty
    rw [hsame]
    exact hhead
  rw [trimEnds_eq p (trimEnds p xs), hfront, trimEnds_eq, List.rdropWhile_idempotent]

/-- A list whose ends are not of the class stays as it is. -/
theorem trimEnds_of_ends {α : Type} {p : α → Bool} {xs : List α}
    (front : ∀ x ∈ xs.head?, p x = false) (back : ∀ x ∈ xs.getLast?, p x = false) :
    trimEnds p xs = xs := by
  cases xs with
  | nil => rfl
  | cons x rest =>
      have hfront : (x :: rest).dropWhile p = x :: rest :=
        List.dropWhile_cons_of_neg (by simp [front x rfl])
      have hback : (x :: rest).rdropWhile p = x :: rest := by
        rw [List.rdropWhile_eq_self_iff]
        intro hne
        simp [back _ (List.getLast?_eq_some_getLast hne)]
      rw [trimEnds_eq, hfront, hback]

/-- A list is what trimming leaves between elements of the class. -/
theorem trimEnds_split {α : Type} (p : α → Bool) (xs : List α) :
    ∃ front back, xs = front ++ (trimEnds p xs ++ back) ∧ (∀ x ∈ front, p x = true)
      ∧ ∀ x ∈ back, p x = true := by
  refine ⟨xs.takeWhile p, (xs.dropWhile p).rtakeWhile p, ?_, fun x hx => List.mem_takeWhile_imp hx,
    fun x hx => List.mem_rtakeWhile_imp hx⟩
  rw [trimEnds_eq, List.rdropWhile_append_rtakeWhile, List.takeWhile_append_dropWhile]

/-- Elements of the class at the ends do not matter to trimming. -/
theorem trimEnds_between {α : Type} {q : α → Bool} {front back : List α}
    (hfront : ∀ x ∈ front, q x = true)
    (hback : ∀ x ∈ back, q x = true) (xs : List α) :
    trimEnds q (front ++ (xs ++ back)) = trimEnds q xs := by
  have hdrop : ∀ ys : List α, (ys ++ back).rdropWhile q = ys.rdropWhile q := by
    intro ys
    rw [List.rdropWhile, List.reverse_append, List.dropWhile_append_of_pos (by simpa using hback),
      List.rdropWhile]
  rw [trimEnds_eq, trimEnds_eq, List.dropWhile_append_of_pos hfront, List.dropWhile_append]
  split
  · -- Nothing is left of the list, nor of what stands behind it.
    rename_i hnone
    rw [List.isEmpty_iff.mp hnone, List.dropWhile_eq_nil_iff.mpr hback]
  · exact hdrop _

/-- Trimming by a larger class takes off what trimming by a smaller one does. -/
theorem trimEnds_of_imp {α : Type} {p q : α → Bool} (h : ∀ x, p x = true → q x = true)
    (xs : List α) :
    trimEnds q (trimEnds p xs) = trimEnds q xs := by
  obtain ⟨front, back, hxs, hfront, hback⟩ := trimEnds_split p xs
  conv_rhs => rw [hxs]
  exact (trimEnds_between (fun x hx => h x (hfront x hx)) (fun x hx => h x (hback x hx)) _).symm

theorem isBlank_of_isDigit {c : Char} (h : c.isDigit = true) : isBlank c = false := by
  have hbounds := Char.isDigit_iff_toNat.mp h
  have hzero : '0'.toNat = 48 := rfl
  have hnine : '9'.toNat = 57 := rfl
  unfold isBlank
  simp only [Bool.or_eq_false_iff, Bool.and_eq_false_iff, beq_eq_false_iff_ne, decide_eq_false_iff_not]
  omega

/-- Blanks around a time do not matter. -/
theorem Timestamp.read_trimBlanks {cs : List Char} {t : Timestamp} :
    read (String.ofList (trimBlanks cs)) = .ok t ↔ read (String.ofList cs) = .ok t := by
  have htrim : trimBlanks (trimBlanks cs) = trimBlanks cs := trimEnds_trimEnds _ _
  unfold read
  rw [String.toList_ofList, String.toList_ofList, htrim]
  dsimp only
  split
  · rfl
  · split
    · rfl
    · split
      · rfl
      · exact ⟨nofun, nofun⟩

/-! ## What a reader leaves -/

theorem mem_drop_of_prefix {α : Type} {x : α} {front xs : List α} (h : front <+: xs)
    (hfront : x ∉ front) (hx : x ∈ xs) : x ∈ xs.drop front.length := by
  rw [← List.prefix_iff_eq_append.mp h] at hx
  exact (List.mem_append.mp hx).resolve_left hfront

theorem mem_dropWhile_of_mem {α : Type} {p : α → Bool} {x : α} {xs : List α} (hp : p x = false)
    (hx : x ∈ xs) : x ∈ xs.dropWhile p := by
  rw [← List.takeWhile_append_dropWhile (p := p) (l := xs)] at hx
  refine (List.mem_append.mp hx).resolve_left fun h => ?_
  rw [List.mem_takeWhile_imp h] at hp
  cases hp

theorem notMem_takeWhile {α : Type} {p : α → Bool} {x : α} (hp : p x = false) (xs : List α) :
    x ∉ xs.takeWhile p := by
  intro h
  rw [List.mem_takeWhile_imp h] at hp
  cases hp

namespace Timestamp

/-- A year that begins with a digit has at most four of them. -/
theorem looseYear_of_digit {d : Char} (cs : List Char) (digit : d.isDigit = true) :
    looseYear (d :: cs) = (number 1 4 (d :: cs)).map fun p => (Int.ofNat p.1, p.2) := by
  have hkept : (d :: cs).dropWhile isBlank = d :: cs :=
    List.dropWhile_cons_of_neg (by simp [isBlank_of_isDigit digit])
  unfold looseYear
  rw [hkept]
  split
  · rename_i h
    obtain ⟨rfl, -⟩ := List.cons.inj h
    cases digit
  · rename_i h
    obtain ⟨rfl, -⟩ := List.cons.inj h
    cases digit
  · rfl

/-! ## Equals signs

A reader of a part takes no equals sign: one that stands in a text is left. -/

section

variable {cs rest : List Char}

theorem mem_of_literal {c : Char} (hc : c ≠ '=') (h : literal c cs = some rest) (hx : '=' ∈ cs) :
    '=' ∈ rest := by
  cases cs with
  | nil => cases h
  | cons d ds =>
      rw [literal] at h
      split at h
      · rename_i hd
        obtain rfl := Option.some.inj h
        rcases List.mem_cons.mp hx with heq | hx
        · exact absurd (hd.symm.trans heq.symm) hc
        · exact hx
      · cases h

theorem mem_of_number {least most n : Nat} (h : number least most cs = some (n, rest))
    (hx : '=' ∈ cs) : '=' ∈ rest := by
  unfold number at h
  dsimp only at h
  split at h
  · cases h
  · obtain ⟨-, rfl⟩ := Prod.mk.inj (Option.some.inj h)
    have hprefix : leadingDigits most cs <+: cs :=
      (List.takeWhile_prefix _).trans (List.take_prefix _ _)
    exact mem_drop_of_prefix hprefix (notMem_takeWhile rfl _) hx

theorem mem_of_looseNumber {n : Nat} (h : looseNumber cs = some (n, rest)) (hx : '=' ∈ cs) :
    '=' ∈ rest := mem_of_number h (mem_dropWhile_of_mem rfl hx)

theorem mem_of_looseYear {n : Int} (h : looseYear cs = some (n, rest)) (hx : '=' ∈ cs) :
    '=' ∈ rest := by
  have hblank := mem_dropWhile_of_mem (p := isBlank) rfl hx
  unfold looseYear at h
  split at h
  · rename_i r hr
    rw [hr] at hblank
    obtain ⟨⟨m, left⟩, hnumber, hpair⟩ := Option.map_eq_some_iff.mp h
    obtain ⟨-, rfl⟩ := Prod.mk.inj hpair
    exact mem_of_number hnumber ((List.mem_cons.mp hblank).resolve_left (by decide))
  · rename_i r hr
    rw [hr] at hblank
    obtain ⟨⟨m, left⟩, hnumber, hpair⟩ := Option.map_eq_some_iff.mp h
    obtain ⟨-, rfl⟩ := Prod.mk.inj hpair
    exact mem_of_number hnumber ((List.mem_cons.mp hblank).resolve_left (by decide))
  · obtain ⟨⟨m, left⟩, hnumber, hpair⟩ := Option.map_eq_some_iff.mp h
    obtain ⟨-, rfl⟩ := Prod.mk.inj hpair
    exact mem_of_number hnumber hblank

theorem mem_of_fraction {n : Nat} (h : fraction cs = some (n, rest)) (hx : '=' ∈ cs) :
    '=' ∈ rest := by
  unfold fraction at h
  split at h
  · rename_i ds
    dsimp only at h
    split at h
    · cases h
    · obtain ⟨-, rfl⟩ := Prod.mk.inj (Option.some.inj h)
      exact mem_drop_of_prefix (List.takeWhile_prefix _) (notMem_takeWhile rfl _)
        ((List.mem_cons.mp hx).resolve_left (by decide))
  · obtain ⟨-, rfl⟩ := Prod.mk.inj (Option.some.inj h)
    exact hx

theorem mem_of_offset {n : Int} (h : offset cs = some (n, rest)) (hx : '=' ∈ cs) : '=' ∈ rest := by
  cases cs with
  | nil => cases h
  | cons c cs =>
      have htail : c ≠ '=' → '=' ∈ cs := fun hc => (List.mem_cons.mp hx).resolve_left (Ne.symm hc)
      rw [offset] at h
      split at h
      · rename_i hz
        obtain ⟨-, rfl⟩ := Prod.mk.inj (Option.some.inj h)
        refine htail ?_
        rcases hz with rfl | rfl <;> decide
      · split at h
        · rename_i hsign
          obtain ⟨⟨hours, cs₁⟩, hhours, h⟩ := Option.bind_eq_some_iff.mp h
          obtain ⟨cs₂, hcolon, h⟩ := Option.bind_eq_some_iff.mp h
          obtain ⟨⟨minutes, cs₃⟩, hminutes, h⟩ := Option.bind_eq_some_iff.mp h
          dsimp only at h
          split at h
          · cases h
          · obtain ⟨-, rfl⟩ := Prod.mk.inj (Option.some.inj h)
            have hc : c ≠ '=' := by rcases hsign with rfl | rfl | rfl <;> decide
            exact mem_of_number hminutes
              (mem_of_literal (by decide) hcolon (mem_of_number hhours (htail hc)))
        · cases h

end

/-- The time of day and the offset that stand behind a date. -/
def clockWithOffset? (y : Int) (mo d : Nat) (cs : List Char) : Option Instant := do
  let (h, cs) ← number 2 2 cs
  let cs ← literal ':' cs
  let (mi, cs) ← number 2 2 cs
  let cs ← literal ':' cs
  let (s, cs) ← number 2 2 cs
  let (frac, cs) ← fraction cs
  let (minutes, cs) ← offset cs
  if cs ≠ [] then none
  else do
    let t ← instant? y mo d h mi s frac
    some ⟨t.secs - minutes * 60, t.nanos⟩

theorem notMem_of_clockWithOffset? {y : Int} {mo d : Nat} {cs : List Char} {t : Instant}
    (h : clockWithOffset? y mo d cs = some t) : '=' ∉ cs := by
  intro hx
  obtain ⟨⟨hh, cs₁⟩, hhour, h⟩ := Option.bind_eq_some_iff.mp h
  obtain ⟨cs₂, hcolon, h⟩ := Option.bind_eq_some_iff.mp h
  obtain ⟨⟨mi, cs₃⟩, hminute, h⟩ := Option.bind_eq_some_iff.mp h
  obtain ⟨cs₄, hcolon', h⟩ := Option.bind_eq_some_iff.mp h
  obtain ⟨⟨s, cs₅⟩, hsecond, h⟩ := Option.bind_eq_some_iff.mp h
  obtain ⟨⟨frac, cs₆⟩, hfraction, h⟩ := Option.bind_eq_some_iff.mp h
  obtain ⟨⟨minutes, cs₇⟩, hoffset, h⟩ := Option.bind_eq_some_iff.mp h
  have hx₁ := mem_of_number hhour hx
  have hx₃ := mem_of_number hminute (mem_of_literal (by decide) hcolon hx₁)
  have hx₅ := mem_of_number hsecond (mem_of_literal (by decide) hcolon' hx₃)
  have hx₇ := mem_of_offset hoffset (mem_of_fraction hfraction hx₅)
  dsimp only at h
  rw [if_pos (List.ne_nil_of_mem hx₇)] at h
  cases h

theorem notMem_of_readWithOffset? {cs : List Char} {t : Instant}
    (h : readWithOffset? cs = some t) : '=' ∉ cs := by
  intro hx
  obtain ⟨⟨y, cs₁⟩, hyear, h⟩ := Option.bind_eq_some_iff.mp h
  obtain ⟨cs₂, hdash, h⟩ := Option.bind_eq_some_iff.mp h
  obtain ⟨⟨mo, cs₃⟩, hmonth, h⟩ := Option.bind_eq_some_iff.mp h
  obtain ⟨cs₄, hdash', h⟩ := Option.bind_eq_some_iff.mp h
  obtain ⟨⟨d, cs₅⟩, hday, h⟩ := Option.bind_eq_some_iff.mp h
  have hx₃ := mem_of_number hmonth (mem_of_literal (by decide) hdash (mem_of_number hyear hx))
  have hx₅ := mem_of_number hday (mem_of_literal (by decide) hdash' hx₃)
  dsimp only at h
  -- What divides date and time is no equals sign either.
  split at h
  · exact notMem_of_clockWithOffset? h ((List.mem_cons.mp hx₅).resolve_left (by decide))
  · exact notMem_of_clockWithOffset? h ((List.mem_cons.mp hx₅).resolve_left (by decide))
  · exact notMem_of_clockWithOffset? h ((List.mem_cons.mp hx₅).resolve_left (by decide))
  · cases h

theorem notMem_of_readWithoutOffset? {divider : List Char → Option (List Char)} {cs : List Char}
    {t : Instant} (hdivider : ∀ cs rest, divider cs = some rest → '=' ∈ cs → '=' ∈ rest)
    (h : readWithoutOffset? divider cs = some t) : '=' ∉ cs := by
  intro hx
  obtain ⟨⟨y, cs₁⟩, hyear, h⟩ := Option.bind_eq_some_iff.mp h
  obtain ⟨cs₂, hdash, h⟩ := Option.bind_eq_some_iff.mp h
  obtain ⟨⟨mo, cs₃⟩, hmonth, h⟩ := Option.bind_eq_some_iff.mp h
  obtain ⟨cs₄, hdash', h⟩ := Option.bind_eq_some_iff.mp h
  obtain ⟨⟨d, cs₅⟩, hday, h⟩ := Option.bind_eq_some_iff.mp h
  obtain ⟨cs₆, hdivided, h⟩ := Option.bind_eq_some_iff.mp h
  obtain ⟨⟨hh, cs₇⟩, hhour, h⟩ := Option.bind_eq_some_iff.mp h
  obtain ⟨cs₈, hcolon, h⟩ := Option.bind_eq_some_iff.mp h
  obtain ⟨⟨mi, cs₉⟩, hminute, h⟩ := Option.bind_eq_some_iff.mp h
  obtain ⟨cs₁₀, hcolon', h⟩ := Option.bind_eq_some_iff.mp h
  obtain ⟨⟨s, cs₁₁⟩, hsecond, h⟩ := Option.bind_eq_some_iff.mp h
  obtain ⟨⟨frac, cs₁₂⟩, hfraction, h⟩ := Option.bind_eq_some_iff.mp h
  -- An equals sign is left by every part, and so at the end, where nothing may be.
  have hx₃ := mem_of_looseNumber hmonth
    (mem_of_literal (by decide) hdash (mem_of_looseYear hyear hx))
  have hx₅ := mem_of_looseNumber hday (mem_of_literal (by decide) hdash' hx₃)
  have hx₇ := mem_of_looseNumber hhour (hdivider _ _ hdivided hx₅)
  have hx₉ := mem_of_looseNumber hminute (mem_of_literal (by decide) hcolon hx₇)
  have hx₁₁ := mem_of_looseNumber hsecond (mem_of_literal (by decide) hcolon' hx₉)
  have hx₁₂ := mem_of_fraction hfraction hx₁₁
  dsimp only at h
  rw [if_pos (List.ne_nil_of_mem hx₁₂)] at h
  cases h

theorem notMem_of_readInstant? {cs : List Char} {t : Instant} (h : readInstant? cs = some t) :
    '=' ∉ cs := by
  rcases Option.or_eq_some_iff.mp h with h | ⟨-, h⟩
  · exact notMem_of_readWithOffset? h
  · rcases Option.or_eq_some_iff.mp h with h | ⟨-, h⟩
    · refine notMem_of_readWithoutOffset? ?_ h
      intro cs rest hrest hx
      obtain rfl := Option.some.inj hrest
      exact mem_dropWhile_of_mem rfl hx
    · exact notMem_of_readWithoutOffset? (fun _ _ => mem_of_literal (by decide)) h

end Timestamp

/-! ## Numbers -/

theorem isDecimalDigit_of_accumulateDigits {limit n : Nat} {overflow : NumeralError}
    {cs : List Char} (h : accumulateDigits limit overflow 0 cs = .ok n) :
    ∀ c ∈ cs, isDecimalDigit c = true := by
  obtain ⟨digits, -, -⟩ := of_accumulateDigits (Nat.zero_le limit) h
  exact fun c hc => isDecimalDigit_of_isDigit (digits c hc)

/-- An integer is digits, with at most one sign before them. -/
theorem digits_of_readInteger {below above : Nat} {cs : List Char} {n : Int}
    (h : readInteger below above cs = .ok n) :
    ∃ ds, ds ≠ [] ∧ (∀ c ∈ ds, isDecimalDigit c = true) ∧ (cs = ds ∨ cs = '+' :: ds ∨ cs = '-' :: ds) := by
  unfold readInteger at h
  split at h
  · cases h
  · rename_i ds
    split at h
    · cases h
    · rename_i hne
      obtain ⟨m, hm, -⟩ := map_eq_ok.mp h
      exact ⟨ds, by simpa using hne, isDecimalDigit_of_accumulateDigits hm, .inr (.inl rfl)⟩
  · rename_i ds
    split at h
    · cases h
    · rename_i hne
      obtain ⟨m, hm, -⟩ := map_eq_ok.mp h
      refine ⟨ds, ?_, isDecimalDigit_of_accumulateDigits hm, .inr (.inr rfl)⟩
      rintro rfl
      simp at hne
  · rename_i hne _ _
    obtain ⟨m, hm, -⟩ := map_eq_ok.mp h
    exact ⟨cs, by simpa using hne, isDecimalDigit_of_accumulateDigits hm, .inl rfl⟩

theorem notMem_of_readInteger {below above : Nat} {cs : List Char} {n : Int}
    (h : readInteger below above cs = .ok n) : '=' ∉ cs := by
  obtain ⟨ds, -, hdigits, hcs⟩ := digits_of_readInteger h
  have hds : '=' ∉ ds := fun hx => absurd (hdigits _ hx) (by decide)
  rcases hcs with rfl | rfl | rfl
  · exact hds
  · simpa using hds
  · simpa using hds

/-- A decimal without its sign holds no equals sign. -/
theorem UnsignedText.notMem {negative : Bool} {text : List Char} {d : Decimal}
    (h : UnsignedText negative text d) : '=' ∉ text := by
  cases h with
  | @parts whole point fraction exponent e decimal _ hpoint hexponent =>
      have hdigits : '=' ∉ whole ++ fraction := fun hx => absurd (decimal _ hx) (by decide)
      rw [List.mem_append, not_or] at hdigits
      have hbehind : '=' ∉ point := by
        cases hpoint with
        | absent => exact List.not_mem_nil
        | behindPoint => simpa using hdigits.2
      have hlast : '=' ∉ exponent := by
        cases hexponent with
        | absent => exact List.not_mem_nil
        | @behindLetter letter sign ds _ known signed _ hds =>
            have hds : '=' ∉ ds := fun hx => absurd (hds _ hx) (by decide)
            have hletter : '=' ≠ letter := by rcases known with rfl | rfl <;> decide
            cases signed <;> simp [hds, hletter]
      simp [hdigits.1, hbehind, hlast]

/-- A finite number holds no equals sign, and behind a dash it begins with a digit or a point. -/
theorem Binary64.begins_of_readFinite? {cs : List Char} {x : Binary64}
    (h : readFinite? cs = some x) :
    '=' ∉ cs ∧ ∀ rest, cs = '-' :: rest →
      ∃ c rest', rest = c :: rest' ∧ (isDecimalDigit c = true ∨ c = '.') := by
  obtain ⟨d, ⟨sign, negative, body, rfl, hsign, hbody⟩, -⟩ := exists_decimal_of_readFinite? h
  constructor
  · have hnone := hbody.notMem
    cases hsign <;> simp [hnone]
  · intro rest hrest
    obtain ⟨c, rest', rfl, hc⟩ := hbody.begins
    cases hsign with
    | bare =>
        obtain rfl := (List.cons.inj hrest).1
        rcases hc with hdigit | hpoint
        · exact absurd hdigit (by decide)
        · exact absurd hpoint (by decide)
    | plus => exact absurd (List.cons.inj hrest).1 (by decide)
    | minus => exact ⟨c, rest', (List.cons.inj hrest).2.symm, hc⟩

/-! ## Timestamps -/

namespace Timestamp

theorem begins_of_number {most n : Nat} {cs rest : List Char}
    (h : number 1 most cs = some (n, rest)) :
    ∃ c cs', cs = c :: cs' ∧ isDecimalDigit c = true := by
  unfold number at h
  dsimp only at h
  split at h
  · cases h
  · rename_i hlength
    have hne : leadingDigits most cs ≠ [] := by
      intro hnil
      simp [hnil] at hlength
    obtain ⟨c, ds, hds⟩ := List.exists_cons_of_ne_nil hne
    have hprefix : leadingDigits most cs <+: cs :=
      (List.takeWhile_prefix _).trans (List.take_prefix _ _)
    obtain ⟨left, hleft⟩ := hprefix
    refine ⟨c, ds ++ left, ?_, ?_⟩
    · rw [← hleft, hds, List.cons_append]
    · exact List.mem_takeWhile_imp (hds ▸ List.mem_cons_self : c ∈ leadingDigits most cs)

/-- Neither the date and time with an offset nor an unsigned year begins with a dash. -/
theorem signed_of_readInstant? {rest : List Char} {t : Instant}
    (h : readInstant? ('-' :: rest) = some t) :
    ∃ c rest', rest = c :: rest' ∧ isDecimalDigit c = true := by
  have hyear : ∀ divider, readWithoutOffset? divider ('-' :: rest) = some t →
      ∃ c rest', rest = c :: rest' ∧ isDecimalDigit c = true := by
    intro divider h
    obtain ⟨⟨y, cs⟩, hyear, -⟩ := Option.bind_eq_some_iff.mp h
    have hsigned : looseYear ('-' :: rest)
        = (number 1 rest.length rest).map fun (n, left) => (-Int.ofNat n, left) := rfl
    rw [hsigned] at hyear
    obtain ⟨⟨m, left⟩, hnumber, -⟩ := Option.map_eq_some_iff.mp hyear
    exact begins_of_number hnumber
  have hoffset : readWithOffset? ('-' :: rest) = none := by
    have hnone : number 4 4 ('-' :: rest) = none := rfl
    rw [readWithOffset?, hnone]
    rfl
  unfold readInstant? at h
  rw [hoffset, Option.none_or] at h
  rcases Option.or_eq_some_iff.mp h with h | ⟨-, h⟩
  · exact hyear _ h
  · exact hyear _ h

/-- What is left of a text without the blanks at its ends is read as one of three shapes. -/
theorem shape_of_read {s : String} {t : Timestamp} (h : read s = .ok t) :
    (∃ n, readInt64 (trimBlanks s.toList) = .ok n)
      ∨ (∃ x, Binary64.readFinite? (trimBlanks s.toList) = some x)
      ∨ ∃ i, readInstant? (trimBlanks s.toList) = some i := by
  unfold read at h
  dsimp only at h
  split at h
  · rename_i n hn
    exact .inl ⟨n, hn⟩
  · split at h
    · rename_i x hx
      exact .inr (.inl ⟨x, hx⟩)
    · split at h
      · rename_i i hi
        exact .inr (.inr ⟨i, hi⟩)
      · cases h

/-- A text that is read holds no equals sign. -/
theorem notMem_of_read {s : String} {t : Timestamp} (h : read s = .ok t) : '=' ∉ s.toList := by
  have htrimmed : '=' ∉ trimBlanks s.toList := by
    rcases shape_of_read h with ⟨n, hn⟩ | ⟨x, hx⟩ | ⟨i, hi⟩
    · exact notMem_of_readInteger hn
    · exact (Binary64.begins_of_readFinite? hx).1
    · exact notMem_of_readInstant? hi
  intro hx
  refine htrimmed ?_
  -- The equals sign is no blank, so trimming leaves it.
  have hfront := mem_dropWhile_of_mem (p := isBlank) rfl hx
  have hback := mem_dropWhile_of_mem (p := isBlank) rfl (List.mem_reverse.mpr hfront)
  exact List.mem_reverse.mpr hback

/-- Where a text that is read begins with a dash, a digit or a point follows. -/
theorem signed_of_read {s : String} {t : Timestamp} {rest : List Char}
    (hs : s.toList = '-' :: rest) (h : read s = .ok t) :
    ∃ c rest', rest = c :: rest' ∧ (isDecimalDigit c = true ∨ c = '.') := by
  -- Trimming only takes blanks from the end, as the dash is none.
  have htrim : ∃ left tail, trimBlanks s.toList = '-' :: left ∧ rest = left ++ tail := by
    have hfront : trimBlanks s.toList = ('-' :: rest).rdropWhile isBlank := by rw [hs]; rfl
    have hne : ('-' :: rest).rdropWhile isBlank ≠ [] := by
      rw [ne_eq, List.rdropWhile_eq_nil_iff]
      exact fun hall => absurd (hall '-' List.mem_cons_self) (by decide)
    obtain ⟨tail, htail⟩ := List.rdropWhile_prefix isBlank ('-' :: rest)
    obtain ⟨d, left, hleft⟩ := List.exists_cons_of_ne_nil hne
    rw [hleft, List.cons_append] at htail
    obtain ⟨hd, hrest⟩ := List.cons.inj htail
    rw [hd] at hleft
    exact ⟨left, tail, hfront.trans hleft, hrest.symm⟩
  obtain ⟨left, tail, htrim, rfl⟩ := htrim
  have hleft : ∃ c rest', left = c :: rest' ∧ (isDecimalDigit c = true ∨ c = '.') := by
    rcases shape_of_read h with ⟨n, hn⟩ | ⟨x, hx⟩ | ⟨i, hi⟩
    · rw [htrim] at hn
      obtain ⟨ds, hne, hdigits, hcs⟩ := digits_of_readInteger hn
      obtain ⟨c, ds', rfl⟩ := List.exists_cons_of_ne_nil hne
      have hc : isDecimalDigit c = true := hdigits c List.mem_cons_self
      rcases hcs with hcs | hcs | hcs
      · obtain ⟨rfl, -⟩ := List.cons.inj hcs
        exact absurd hc (by decide)
      · exact absurd (List.cons.inj hcs).1 (by decide)
      · exact ⟨c, ds', (List.cons.inj hcs).2, .inl hc⟩
    · exact (Binary64.begins_of_readFinite? hx).2 left htrim
    · rw [htrim] at hi
      obtain ⟨c, rest', hc, hdigit⟩ := signed_of_readInstant? hi
      exact ⟨c, rest', hc, .inl hdigit⟩
  obtain ⟨c, rest', rfl, hc⟩ := hleft
  exact ⟨c, rest' ++ tail, rfl, hc⟩

end Timestamp

end PowerBench
