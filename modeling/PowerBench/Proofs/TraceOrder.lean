import PowerBench.Proofs.RoundingOrder
import PowerBench.Proofs.TraceText

set_option autoImplicit false

/-! # A trace keeps its order

The numbers of a row and those of its line are compared as texts that denote decimal numbers
(`AtMost`). A column is read, divided and written (`Rescaled`), which keeps its order
(`Rescaled.order`); so in a trace that is converted, whatever its bytes are, two rows with ordered times
have ordered seconds, and two rows with ordered currents have ordered amperes (`order_kept`).
-/

namespace PowerBench

/-! ## Fields -/

namespace Utf8

theorem exists_blank_text {bytes : Bytes} (blank : ∀ b ∈ bytes, isAsciiBlank b = true) :
    ∃ cs, bytes = encodeChars cs ∧ ∀ c ∈ cs, isBlank c = true := by
  induction bytes with
  | nil => exact ⟨[], rfl, by simp⟩
  | cons b bytes ih =>
      obtain ⟨cs, hcs, hblank⟩ := ih fun x hx => blank x (List.mem_cons_of_mem _ hx)
      have hb : isAsciiBlank b = true := blank b List.mem_cons_self
      have hone : [b] = encodeChar (Char.ofNat b.toNat) ∧ isBlank (Char.ofNat b.toNat) = true := by
        simp only [isAsciiBlank, Bool.or_eq_true, beq_iff_eq] at hb
        rcases hb with (((rfl | rfl) | rfl) | rfl) | rfl <;> decide
      refine ⟨Char.ofNat b.toNat :: cs, ?_, ?_⟩
      · rw [encodeChars_cons, ← hone.1, ← hcs, List.singleton_append]
      · intro c hc
        rcases List.mem_cons.mp hc with rfl | hc
        · exact hone.2
        · exact hblank c hc

end Utf8

namespace Trace

/-- The field is a text with blanks around it. -/
def HoldsText (field : Bytes) (text : List Char) : Prop :=
  ∃ cs, field = Utf8.encodeChars cs ∧ trimBlanks cs = text

/-- A field that is a text without its ASCII blanks is a text with them. -/
theorem holdsText_of_trimmed {field : Bytes}
    (valid : (Utf8.decodeChars? (trimEnds isAsciiBlank field)).isSome = true) :
    HoldsText field (trimBlanks (Utf8.lossyChars (trimEnds isAsciiBlank field))) := by
  obtain ⟨cs, hcs⟩ := Option.isSome_iff_exists.mp valid
  have htrimmed := Utf8.eq_encodeChars_of_decodeChars? hcs
  obtain ⟨front, back, hfield, hfront, hback⟩ := trimEnds_split isAsciiBlank field
  obtain ⟨before, hbefore, hblank⟩ := Utf8.exists_blank_text hfront
  obtain ⟨behind, hbehind, hblank'⟩ := Utf8.exists_blank_text hback
  refine ⟨before ++ (cs ++ behind), ?_, ?_⟩
  · rw [Utf8.encodeChars_append, Utf8.encodeChars_append, ← hbefore, ← hbehind, ← htrimmed, ← hfield]
  · rw [htrimmed, Utf8.lossyChars_encodeChars]
    exact trimEnds_between hblank hblank' cs

theorem valid_of_firstNotText {fields : List Bytes} (h : firstNotText fields = none) :
    ∀ field ∈ fields, (Utf8.decodeChars? field).isSome = true := by
  intro field hfield
  obtain ⟨i, hi⟩ := List.mem_iff_getElem?.mp hfield
  have hmem : (field, i) ∈ fields.zipIdx := List.mem_zipIdx_iff_getElem?.mpr hi
  rw [firstNotText, Option.map_eq_none_iff, List.find?_eq_none] at h
  have hvalid := h _ hmem
  rw [Option.isNone_iff_eq_none] at hvalid
  exact Option.isSome_iff_ne_none.mpr hvalid

/-! ## Columns -/

/-- The text of a number is read, divided by `k` and written with `places`. -/
def Rescaled (k places : Nat) (text written : List Char) : Prop :=
  ∃ x, Binary64.readFinite? text = some x ∧ written = (x.divNat k).fixed places

/-- The one text denotes a number that is at most the number that the other denotes. -/
def AtMost (a b : List Char) : Prop := ∃ p q, Denotes a p ∧ Denotes b q ∧ p ≤ q

/-- A numeral with a fixed number of places is the text of a decimal. -/
theorem IsFixed.decimalText {places n : Nat} {negative : Bool} {text : List Char}
    (h : IsFixed places negative n text) : DecimalText text ⟨negative, n, -places⟩ := by
  obtain ⟨whole, fraction, rfl, nonempty, digits, rfl, rfl⟩ := h
  have hdecimal : ∀ c ∈ whole ++ fraction, isDecimalDigit c = true :=
    fun c hc => isDecimalDigit_of_isDigit (digits c hc)
  have hbody : UnsignedText negative (whole ++ (('.' :: fraction) ++ []))
      ⟨negative, digitsValue (whole ++ fraction), 0 - fraction.length⟩ :=
    .parts hdecimal (by simp [nonempty]) (.behindPoint fraction) .absent
  rw [List.append_nil, Int.zero_sub] at hbody
  refine ⟨_, negative, _, rfl, ?_, hbody⟩
  cases negative with
  | true => exact .minus
  | false => exact .bare

section

variable {k places : Nat} (hk : 0 < k) (hplaces : 0 < places) {a b a' b' : List Char}

include hk hplaces

/-- The text that is read and the one that is written are those of a decimal and its quotient. -/
theorem Rescaled.quotient (h : Rescaled k places a a') :
    ∃ d, DecimalText a d ∧ d.toBinary64.isFinite = true ∧ DecimalText a' (d.quotient k places) := by
  obtain ⟨x, hread, rfl⟩ := h
  obtain ⟨d, htext, rfl, finite⟩ := exists_decimal_of_readFinite? hread
  refine ⟨d, htext, finite, ?_⟩
  have hfixed := (isFixed_fixed hplaces (d.toBinary64.divNat k)).decimalText
  rwa [Binary64.isNegative_divNat finite hk, (Decimal.roundsTo_of_finite finite).1] at hfixed

theorem Rescaled.denotes (h : Rescaled k places a a') :
    (∃ q, Denotes a q) ∧ ∃ q, Denotes a' q := by
  obtain ⟨d, hd, -, hd'⟩ := h.quotient hk hplaces
  exact ⟨⟨_, hd.denotes⟩, _, hd'.denotes⟩

/-- Two texts of a column are written in their order. -/
theorem Rescaled.order (ha : Rescaled k places a a') (hb : Rescaled k places b b') (h : AtMost a b) :
    AtMost a' b' := by
  obtain ⟨d, hd, finite, hd'⟩ := ha.quotient hk hplaces
  obtain ⟨e, he, finite', he'⟩ := hb.quotient hk hplaces
  obtain ⟨p, q, hp, hq, hle⟩ := h
  rw [hp.unique hd.denotes, hq.unique he.denotes] at hle
  exact ⟨_, _, hd'.denotes, he'.denotes, Decimal.quotient_mono hk places finite finite' hle⟩

end

/-! ## Rows -/

/-- The two numbers of a row and the two numbers on its line, as texts. -/
structure Told where
  time : List Char
  current : List Char
  seconds : List Char
  amps : List Char

namespace Told

def line (t : Told) : List Char := t.seconds ++ ' ' :: t.amps ++ ['\n']

/-- The row has the two numbers in its first two fields. -/
def IsFrom (t : Told) (row : Row) : Prop :=
  ∃ first second more, row.fields = first :: second :: more ∧ HoldsText first t.time
    ∧ HoldsText second t.current

/-- The line is the one that is written for the row. -/
structure IsSound (t : Told) : Prop where
  seconds : Rescaled 1000000000 7 t.time t.seconds
  amps : Rescaled 1000 12 t.current t.amps

end Told

/-- A row that is converted has two numbers, and its line has their seconds and amperes. -/
theorem Row.told {row : Row} {line : List Char} (h : row.convert = .ok line) :
    ∃ t : Told, t.IsFrom row ∧ t.IsSound ∧ line = t.line := by
  have hcolumn : ∀ {index : Nat} {text : List Char} {x : Binary64},
      column row.line index text = .ok x → Binary64.readFinite? text = some x := by
    intro index text x hx
    unfold column at hx
    split at hx
    · rename_i hread
      rw [hread, Except.ok.inj hx]
    · cases hx
  unfold Row.convert convertRow at h
  dsimp only at h
  split at h
  · cases h
  rename_i hvalid
  split at h
  · rename_i a b more hfields
    obtain ⟨nanos, hnanos, h⟩ := bind_eq_ok.mp h
    obtain ⟨milliamps, hmilliamps, h⟩ := bind_eq_ok.mp h
    obtain rfl := Except.ok.inj h
    have htext := valid_of_firstNotText hvalid
    rw [hfields] at htext
    -- The fields are those of the row, without the blanks of ASCII.
    obtain ⟨first, rest, hrow, rfl, hrest⟩ := List.map_eq_cons_iff.mp hfields
    obtain ⟨second, rest, rfl, rfl, rfl⟩ := List.map_eq_cons_iff.mp hrest
    refine ⟨⟨_, _, (nanos.divNat 1000000000).fixed 7, (milliamps.divNat 1000).fixed 12⟩,
      ⟨first, second, rest, hrow, holdsText_of_trimmed (htext _ (by simp)),
        holdsText_of_trimmed (htext _ (by simp))⟩, ?_, rfl⟩
    exact ⟨⟨nanos, hcolumn hnanos, rfl⟩, ⟨milliamps, hcolumn hmilliamps, rfl⟩⟩
  · cases h

theorem Converted.told {rows : List Row} {lines : List (List Char)} (h : Converted rows lines) :
    ∃ told : List Told, List.Forall₂ (fun row t => t.IsFrom row) rows told
      ∧ (∀ t ∈ told, t.IsSound) ∧ lines = told.map Told.line := by
  induction h with
  | nil => exact ⟨[], .nil, by simp, rfl⟩
  | cons hrow _ ih =>
      obtain ⟨t, hfrom, hsound, rfl⟩ := Row.told hrow
      obtain ⟨told, hrows, hall, rfl⟩ := ih
      exact ⟨t :: told, .cons hfrom hrows, List.forall_mem_cons.mpr ⟨hsound, hall⟩, rfl⟩

/-! ## Traces -/

/-- **A trace keeps its order.** In a trace that is converted, each row has a time and a current, and
each line their seconds and amperes, all of which are decimal numbers. The seconds of two rows are in the
order of their times and the amperes in the order of the currents, so a trace that is sorted by time stays
sorted. -/
theorem order_kept {bytes : Bytes} {broken : Bool} {sink : Sink} {n : Nat}
    (accepted : (convert bytes broken sink).1 = .ok n) :
    ∃ told : List Told, List.Forall₂ (fun row t => t.IsFrom row) (rowsOf bytes broken) told
      ∧ told.length = n
      ∧ (convert bytes broken sink).2.written = sink.written ++ (told.map Told.line).flatten
      ∧ (∀ t ∈ told, t.IsSound ∧ (∃ q, Denotes t.time q) ∧ (∃ q, Denotes t.current q)
        ∧ (∃ q, Denotes t.seconds q) ∧ ∃ q, Denotes t.amps q)
      ∧ (∀ t ∈ told, ∀ u ∈ told, (AtMost t.time u.time → AtMost t.seconds u.seconds)
        ∧ (AtMost t.current u.current → AtMost t.amps u.amps))
      ∧ ((told.map Told.time).Pairwise AtMost → (told.map Told.seconds).Pairwise AtMost) := by
  obtain ⟨lines, hconverted, rfl, hwritten⟩ := convert_eq_ok accepted
  obtain ⟨told, hrows, hsound, rfl⟩ := hconverted.told
  have hseconds : ∀ t ∈ told, ∀ u ∈ told, AtMost t.time u.time → AtMost t.seconds u.seconds := by
    intro t ht u hu
    exact (hsound t ht).seconds.order (by decide) (by decide) (hsound u hu).seconds
  have hamps : ∀ t ∈ told, ∀ u ∈ told, AtMost t.current u.current → AtMost t.amps u.amps := by
    intro t ht u hu
    exact (hsound t ht).amps.order (by decide) (by decide) (hsound u hu).amps
  refine ⟨told, hrows, (List.length_map _).symm, hwritten, ?_, ?_, ?_⟩
  · intro t ht
    obtain ⟨htime, hseconds⟩ := (hsound t ht).seconds.denotes (by decide) (by decide)
    obtain ⟨hcurrent, hamps⟩ := (hsound t ht).amps.denotes (by decide) (by decide)
    exact ⟨hsound t ht, htime, hcurrent, hseconds, hamps⟩
  · intro t ht u hu
    exact ⟨hseconds t ht u hu, hamps t ht u hu⟩
  · intro sorted
    rw [List.pairwise_map] at sorted ⊢
    exact sorted.imp_of_mem fun ht hu => hseconds _ ht _ hu

/-- A time before 1970 and one after it. -/
theorem order_kept_twoRows :
    (convert (Utf8.encode "t,c\n-1.5e3,2\n 7 ,.5\n") false {}).1 = .ok 2
      ∧ ∃ told : List Told,
        List.Forall₂ (fun row t => t.IsFrom row)
          (rowsOf (Utf8.encode "t,c\n-1.5e3,2\n 7 ,.5\n") false) told
        ∧ told.length = 2
        ∧ ∀ t ∈ told, ∀ u ∈ told, AtMost t.time u.time → AtMost t.seconds u.seconds := by
  have accepted : (convert (Utf8.encode "t,c\n-1.5e3,2\n 7 ,.5\n") false {}).1 = .ok 2 := by
    decide +kernel
  obtain ⟨told, hrows, hlength, -, -, horder, -⟩ := order_kept accepted
  exact ⟨accepted, told, hrows, hlength, fun t ht u hu => (horder t ht u hu).1⟩

end Trace

end PowerBench
