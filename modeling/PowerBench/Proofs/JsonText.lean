import PowerBench.Json
import PowerBench.Proofs.DecimalText
import PowerBench.Yaml.Token

set_option autoImplicit false

/-! # JSON texts

`Json.read?` reads a JSON text: blanks between all parts, strings with their escapes, numbers without a
needless zero in front, a number with a point or an exponent as the nearest fractional number. The
entries of an object are read in their order, and one key may stand twice. Strings and numbers are read
from what is written for them.
-/

namespace PowerBench.Json

/-! ## Reading -/

/-- The blanks between the parts of a text. -/
def isSpace (c : Char) : Bool := c == ' ' || c == '\n' || c == '\t' || c == '\r'

def skipSpace (cs : List Char) : List Char := cs.dropWhile isSpace

def isNumberChar (c : Char) : Bool :=
  isDecimalDigit c || c == '-' || c == '.' || c == 'e' || c == 'E' || c == '+'

/-- The digits before a point: a zero only when it is alone. -/
def isWhole (ds : List Char) : Bool := ds == ['0'] || (!ds.isEmpty && ds.head? != some '0')

/-- What follows the digits before a point: the point and digits, if there is one, and an exponent, if
there is one. -/
def isFractional : List Char → Bool
  | '.' :: cs => !(cs.takeWhile isDecimalDigit).isEmpty
      && (Decimal.readExponent? (cs.dropWhile isDecimalDigit)).isSome
  | cs => (Decimal.readExponent? cs).isSome

/-- A minus sign at the front of a number, and what follows it. -/
def splitMinus : List Char → Bool × List Char
  | '-' :: cs => (true, cs)
  | cs => (false, cs)

/-- The number of a text, which is an integer if it has neither a point nor an exponent. -/
def number? (cs : List Char) : Option Json :=
  let (negative, body) := splitMinus cs
  let whole := body.takeWhile isDecimalDigit
  let rest := body.dropWhile isDecimalDigit
  if !isWhole whole || !isFractional rest then none
  else if rest.isEmpty then
    some (.int (if negative then -Int.ofNat (digitsValue whole) else Int.ofNat (digitsValue whole)))
  else (Binary64.readFinite? cs).map .float

def hex? : List Char → Option (Nat × List Char)
  | a :: b :: c :: d :: rest =>
    if [a, b, c, d].all Yaml.isHexDigit then
      some ([a, b, c, d].foldl (fun n x => n * 16 + Yaml.hexValue x) 0, rest)
    else none
  | _ => none

/-- The character behind a backslash and a `u`. One of more than 16 bits is written in two halves. -/
def codePoint? (cs : List Char) : Option (Char × List Char) := do
  let (high, rest) ← hex? cs
  if high < 0xD800 ∨ 0xDFFF < high then pure (Char.ofNat high, rest)
  else if 0xDBFF < high then none
  else
    match rest with
    | '\\' :: 'u' :: rest => do
      let (low, rest) ← hex? rest
      if 0xDC00 ≤ low ∧ low ≤ 0xDFFF then
        pure (Char.ofNat (0x10000 + (high - 0xD800) * 0x400 + (low - 0xDC00)), rest)
      else none
    | _ => none

/-- The character behind a backslash. -/
def escape? : List Char → Option (Char × List Char)
  | '"' :: rest => some ('"', rest)
  | '\\' :: rest => some ('\\', rest)
  | '/' :: rest => some ('/', rest)
  | 'b' :: rest => some ('\x08', rest)
  | 'f' :: rest => some ('\x0c', rest)
  | 'n' :: rest => some ('\n', rest)
  | 'r' :: rest => some ('\r', rest)
  | 't' :: rest => some ('\t', rest)
  | 'u' :: rest => codePoint? rest
  | _ => none

/-- The characters up to the closing quote. -/
def string? : Nat → List Char → Option (List Char × List Char)
  | 0, _ => none
  | _, [] => none
  | fuel + 1, c :: rest =>
    if c = '"' then some ([], rest)
    else if c = '\\' then do
      let (x, rest) ← escape? rest
      let (xs, rest) ← string? fuel rest
      pure (x :: xs, rest)
    else if c.toNat < 0x20 then none
    else do
      let (xs, rest) ← string? fuel rest
      pure (c :: xs, rest)

def word? (word : List Char) (v : Json) (cs : List Char) : Option (Json × List Char) :=
  if word.isPrefixOf cs then some (v, cs.drop word.length) else none

/-- The key at the front of an entry, up to its value. -/
def key? (fuel : Nat) : List Char → Option (String × List Char)
  | '"' :: rest => do
    let (k, rest) ← string? fuel rest
    match skipSpace rest with
    | ':' :: rest => pure (String.ofList k, skipSpace rest)
    | _ => none
  | _ => none

mutual

/-- The value at the front of a text. -/
def value? : Nat → List Char → Option (Json × List Char)
  | 0, _ => none
  | _, [] => none
  | fuel + 1, c :: rest =>
    if c = '"' then (string? fuel rest).map fun (s, rest) => (.string (String.ofList s), rest)
    else if c = '[' then
      match skipSpace rest with
      | ']' :: rest => some (.array [], rest)
      | rest => (items? fuel rest).map fun (items, rest) => (.array items, rest)
    else if c = '\x7b' then
      match skipSpace rest with
      | '\x7d' :: rest => some (.object [], rest)
      | rest => (entries? fuel rest).map fun (entries, rest) => (.object entries, rest)
    else if c = 'n' then word? ['n', 'u', 'l', 'l'] .null (c :: rest)
    else if c = 't' then word? ['t', 'r', 'u', 'e'] (.bool true) (c :: rest)
    else if c = 'f' then word? ['f', 'a', 'l', 's', 'e'] (.bool false) (c :: rest)
    else (number? ((c :: rest).takeWhile isNumberChar)).map
      fun v => (v, (c :: rest).dropWhile isNumberChar)

/-- The items of an array from the next one on. -/
def items? : Nat → List Char → Option (List Json × List Char)
  | 0, _ => none
  | fuel + 1, cs => do
    let (v, rest) ← value? fuel cs
    match skipSpace rest with
    | ',' :: rest => do
      let (items, rest) ← items? fuel (skipSpace rest)
      pure (v :: items, rest)
    | ']' :: rest => pure ([v], rest)
    | _ => none

/-- The entries of an object from the next one on. -/
def entries? : Nat → List Char → Option (List (String × Json) × List Char)
  | 0, _ => none
  | fuel + 1, cs => do
    let (k, rest) ← key? fuel cs
    let (v, rest) ← value? fuel rest
    match skipSpace rest with
    | ',' :: rest => do
      let (entries, rest) ← entries? fuel (skipSpace rest)
      pure ((k, v) :: entries, rest)
    | '\x7d' :: rest => pure ([(k, v)], rest)
    | _ => none

end

/-- The value of a text, with nothing but blanks around it. -/
def read? (text : String) : Option Json :=
  match value? text.toList.length (skipSpace text.toList) with
  | some (v, rest) => if (skipSpace rest).isEmpty then some v else none
  | none => none

/-! ## Strings -/

theorem hexDigit_spec : ∀ n < 16, Nat.toDigits 16 n = [Nat.digitChar n]
    ∧ Yaml.isHexDigit (Nat.digitChar n) = true ∧ Yaml.hexValue (Nat.digitChar n) = n := by
  decide

/-- Four digits, two of them zeros, are a control character. -/
theorem codePoint?_control {n : Nat} (hn : n < 0x20) (rest : List Char) :
    codePoint? ('0' :: '0' :: (Nat.toDigits 16 (n / 16) ++ (Nat.toDigits 16 (n % 16) ++ rest)))
      = some (Char.ofNat n, rest) := by
  obtain ⟨hhigh, hhigh_digit, hhigh_value⟩ := hexDigit_spec (n / 16) (by omega)
  obtain ⟨hlow, hlow_digit, hlow_value⟩ := hexDigit_spec (n % 16) (by omega)
  have hhex : hex? ('0' :: '0' :: Nat.digitChar (n / 16) :: Nat.digitChar (n % 16) :: rest)
      = some (n, rest) := by
    have hzero : Yaml.isHexDigit '0' = true ∧ Yaml.hexValue '0' = 0 := by decide
    have hsum : (((0 * 16 + 0) * 16 + 0) * 16 + n / 16) * 16 + n % 16 = n := by omega
    simp only [hex?, List.all_cons, List.all_nil, hzero, hhigh_digit, hlow_digit, Bool.and_true, if_true,
      List.foldl_cons, List.foldl_nil, hhigh_value, hlow_value]
    rw [hsum]
  rw [hhigh, hlow, List.singleton_append, List.singleton_append, codePoint?, hhex]
  simp only [Option.bind_eq_bind, Option.bind_some]
  rw [if_pos (by omega)]
  rfl

/-- A character is read from what it is escaped as. -/
theorem string?_escapeChar (c : Char) (fuel : Nat) (rest : List Char) :
    string? (fuel + 1) (escapeChar c ++ rest)
      = (string? fuel rest).map fun p => (c :: p.1, p.2) := by
  -- Whether it is escaped or not, the character is put in front of what is read of the rest.
  have hpush : ∀ x : Char, (do
      let (xs, rest) ← string? fuel rest
      pure (x :: xs, rest)) = (string? fuel rest).map fun p => (x :: p.1, p.2) := by
    intro x
    cases string? fuel rest <;> rfl
  have hescape : ∀ (cs : List Char) (x : Char), escape? (cs ++ rest) = some (x, rest) →
      string? (fuel + 1) ('\\' :: cs ++ rest) = (string? fuel rest).map fun p => (x :: p.1, p.2) := by
    intro cs x h
    rw [List.cons_append, string?, if_neg (by decide), if_pos rfl, h]
    exact hpush x
  unfold escapeChar
  split_ifs with hquote hslash hback hfeed hline hreturn htab hcontrol
  · exact hquote ▸ hescape ['"'] _ rfl
  · exact hslash ▸ hescape ['\\'] _ rfl
  · exact hback ▸ hescape ['b'] _ rfl
  · exact hfeed ▸ hescape ['f'] _ rfl
  · exact hline ▸ hescape ['n'] _ rfl
  · exact hreturn ▸ hescape ['r'] _ rfl
  · exact htab ▸ hescape ['t'] _ rfl
  · refine hescape ('u' :: '0' :: '0' :: (Nat.toDigits 16 (c.toNat / 16)
      ++ Nat.toDigits 16 (c.toNat % 16))) c ?_
    rw [List.cons_append, List.cons_append, List.cons_append, List.append_assoc, escape?,
      codePoint?_control hcontrol, Char.ofNat_toNat]
  · rw [List.singleton_append, string?, if_neg hquote, if_neg hslash, if_neg hcontrol]
    exact hpush c

theorem length_escapeChar_pos (c : Char) : 0 < (escapeChar c).length := by
  unfold escapeChar
  split_ifs <;> simp

/-- A string is read from what it is written as between quotes. -/
theorem string?_escaped {cs : List Char} {fuel : Nat} (rest : List Char)
    (hfuel : (cs.flatMap escapeChar).length < fuel) :
    string? fuel (cs.flatMap escapeChar ++ '"' :: rest) = some (cs, rest) := by
  induction cs generalizing fuel with
  | nil =>
      obtain ⟨fuel, rfl⟩ := Nat.exists_eq_add_of_lt hfuel
      rfl
  | cons c cs ih =>
      rw [List.flatMap_cons] at hfuel ⊢
      rw [List.length_append] at hfuel
      have hc := length_escapeChar_pos c
      obtain ⟨fuel, rfl⟩ : ∃ n, fuel = n + 1 := ⟨fuel - 1, by omega⟩
      rw [List.append_assoc, string?_escapeChar, ih (by omega)]
      rfl

/-! ## Numbers -/

theorem isNumberChar_of_digit {c : Char} (h : isDecimalDigit c = true) : isNumberChar c = true := by
  simp [isNumberChar, h]

/-- Where a number ends: at the end of the text or at a character that is none of a number. -/
def Stops (rest : List Char) : Prop := ∀ c ∈ rest.head?, isNumberChar c = false

/-- A number is read as the text that its token denotes. -/
theorem value?_number {c : Char} {cs rest : List Char} {v : Json} {fuel : Nat}
    (number : ∀ x ∈ c :: cs, isNumberChar x = true) (denotes : number? (c :: cs) = some v)
    (stops : Stops rest) : value? (fuel + 1) (c :: cs ++ rest) = some (v, rest) := by
  obtain ⟨htake, hdrop⟩ := takeWhile_front number stops
  have hother : ∀ x : Char, isNumberChar x = false → c ≠ x := by
    rintro x hx rfl
    rw [number c List.mem_cons_self] at hx
    cases hx
  rw [List.cons_append] at htake hdrop ⊢
  rw [value?, if_neg (hother _ rfl), if_neg (hother _ rfl), if_neg (hother _ rfl),
    if_neg (hother _ rfl), if_neg (hother _ rfl), if_neg (hother _ rfl), htake, hdrop, denotes]
  rfl

theorem splitMinus_sign (negative : Bool) {c : Char} (cs : List Char) (digit : isDecimalDigit c = true) :
    splitMinus ((if negative then ['-'] else []) ++ c :: cs) = (negative, c :: cs) := by
  cases negative with
  | true => rfl
  | false =>
      unfold splitMinus
      split
      · rename_i h
        exact absurd ((List.cons.inj h).1 ▸ digit) (by decide)
      · rfl

theorem isWhole_toDigits (n : Nat) : isWhole (Nat.toDigits 10 n) = true := by
  rcases Nat.eq_zero_or_pos n with rfl | hn
  · decide
  · have hempty : (Nat.toDigits 10 n).isEmpty = false :=
      List.isEmpty_eq_false_iff.mpr Nat.toDigits_ne_nil
    have hhead : ((Nat.toDigits 10 n).head? != some '0') = true := bne_iff_ne.mpr (head_toDigits hn)
    rw [isWhole, hempty, hhead]
    exact Bool.or_true _

theorem number?_toDigits (negative : Bool) (n : Nat) :
    number? ((if negative then ['-'] else []) ++ Nat.toDigits 10 n)
      = some (.int (if negative then -(n : Int) else n)) := by
  have hdigits : ∀ c ∈ Nat.toDigits 10 n, isDecimalDigit c = true := fun c hc =>
    isDecimalDigit_of_isDigit (isDigit_of_mem_decimal hc)
  have hend : ∀ c ∈ ([] : List Char).head?, isDecimalDigit c = false := nofun
  obtain ⟨htake, hdrop⟩ := takeWhile_front hdigits hend
  rw [List.append_nil] at htake hdrop
  have hsplit : splitMinus ((if negative then ['-'] else []) ++ Nat.toDigits 10 n)
      = (negative, Nat.toDigits 10 n) := by
    obtain ⟨d, ds, hds⟩ := List.exists_cons_of_ne_nil (Nat.toDigits_ne_nil (n := n) (b := 10))
    rw [hds] at hdigits ⊢
    exact splitMinus_sign negative ds (hdigits d List.mem_cons_self)
  have hwhole := isWhole_toDigits n
  have hvalue := digitsValue_toDigits n
  unfold number?
  rw [hsplit]
  dsimp only
  rw [htake, hdrop, hwhole, hvalue]
  rfl

theorem number?_toString (n : Int) : number? (toString n).toList = some (.int n) := by
  cases n with
  | ofNat n =>
      rw [toList_toString_ofNat]
      exact number?_toDigits false n
  | negSucc n =>
      rw [toList_toString_negSucc]
      exact number?_toDigits true (n + 1)

theorem isWhole_numeral {n : Numeral} (wellFormed : n.WellFormed) : isWhole n.whole = true := by
  have hempty : n.whole.isEmpty = false := List.isEmpty_eq_false_iff.mpr wellFormed.nonempty
  rcases wellFormed.unpadded with hzero | hhead
  · rw [hzero]
    rfl
  · rw [isWhole, hempty, bne_iff_ne.mpr hhead]
    exact Bool.or_true _

theorem isFractional_numeral {n : Numeral} (wellFormed : n.WellFormed) :
    isFractional (n.fractionText ++ n.exponentText) = true := by
  have hexponent : (Decimal.readExponent? n.exponentText).isSome = true := by
    rw [readExponent?_eq_some.mpr (Numeral.exponentText_of_wellFormed wellFormed)]
    rfl
  have hstop := (Numeral.exponentText_of_wellFormed wellFormed).head
  cases hfraction : n.fraction with
  | nil =>
      rw [Numeral.fractionText, hfraction, List.nil_append]
      unfold isFractional
      split
      · rename_i hpoint
        exact absurd rfl (hstop '.' (by rw [hpoint]; rfl)).2
      · exact hexponent
  | cons d ds =>
      obtain ⟨htake, hdrop⟩ := takeWhile_front (hfraction ▸ wellFormed.fraction)
        fun c hc => (hstop c hc).1
      rw [Numeral.fractionText, hfraction, List.cons_append, isFractional, htake, hdrop, hexponent]
      rfl

theorem number?_numeral {n : Numeral} (negative : Bool) (wellFormed : n.WellFormed)
    (fractional : n.fraction ≠ [] ∨ n.exponent? ≠ none) :
    number? ((if negative then ['-'] else []) ++ n.text)
      = (Binary64.readFinite? ((if negative then ['-'] else []) ++ n.text)).map .float := by
  have hstop : ∀ c ∈ (n.fractionText ++ n.exponentText).head?, isDecimalDigit c = false := by
    unfold Numeral.fractionText
    split
    · intro c hc
      exact ((Numeral.exponentText_of_wellFormed wellFormed).head c hc).1
    · simp [isDecimalDigit]
  obtain ⟨htake, hdrop⟩ := takeWhile_front wellFormed.whole hstop
  have hsplit : splitMinus ((if negative then ['-'] else []) ++ n.text) = (negative, n.text) := by
    obtain ⟨d, ds, hwhole⟩ := List.exists_cons_of_ne_nil wellFormed.nonempty
    have hdigit : isDecimalDigit d = true := wellFormed.whole d (by rw [hwhole]; exact List.mem_cons_self)
    rw [Numeral.text, hwhole]
    exact splitMinus_sign negative _ hdigit
  have hmore : (n.fractionText ++ n.exponentText).isEmpty = false := by
    rw [List.isEmpty_eq_false_iff, Ne, List.append_eq_nil_iff, not_and_or]
    unfold Numeral.fractionText Numeral.exponentText
    refine fractional.imp ?_ ?_
    · intro h
      split
      · rename_i hnil
        exact absurd hnil h
      · exact List.cons_ne_nil _ _
    · intro h
      split
      · rename_i hnone
        exact absurd hnone h
      · exact List.cons_ne_nil _ _
  have hwhole := isWhole_numeral wellFormed
  have hfractional := isFractional_numeral wellFormed
  unfold number?
  rw [hsplit]
  dsimp only
  rw [Numeral.text, htake, hdrop, hwhole, hfractional, hmore]
  rfl

theorem number?_scientific {x : Binary64} (finite : x.isFinite = true) :
    number? (x.scientific ['+']).toList = some (.float x) := by
  have hread := Binary64.readFinite?_scientific finite (.inr rfl)
  obtain ⟨n, wellFormed, fractional, htext, -⟩ := Binary64.exists_scientific x (.inr rfl)
  rw [htext] at hread
  rw [htext, number?_numeral x.isNegative wellFormed fractional, hread]
  rfl

/-- All characters of a numeral are characters of numbers. -/
theorem isNumberChar_of_numeral {n : Numeral} (wellFormed : n.WellFormed) :
    ∀ c ∈ n.text, isNumberChar c = true := by
  have hdigits : ∀ {ds : List Char}, (∀ c ∈ ds, isDecimalDigit c = true) →
      ∀ c ∈ ds, isNumberChar c = true := fun h c hc => isNumberChar_of_digit (h c hc)
  have hfraction : ∀ c ∈ n.fractionText, isNumberChar c = true := by
    have hall := hdigits wellFormed.fraction
    unfold Numeral.fractionText
    split
    · exact nofun
    · rename_i d ds h
      rw [h] at hall
      exact List.forall_mem_cons.mpr ⟨rfl, hall⟩
  have hexponent : ∀ c ∈ n.exponentText, isNumberChar c = true := by
    unfold Numeral.exponentText
    split
    · exact nofun
    · rename_i sign ds h
      have hsign : ∀ c ∈ sign, isNumberChar c = true := by
        rcases wellFormed.sign _ h with hsign | hsign | hsign <;> dsimp only at hsign <;> rw [hsign]
        · exact nofun
        · exact List.forall_mem_singleton.mpr rfl
        · exact List.forall_mem_singleton.mpr rfl
      exact List.forall_mem_cons.mpr ⟨rfl, List.forall_mem_append.mpr
        ⟨hsign, hdigits (wellFormed.exponent _ h).2⟩⟩
  exact List.forall_mem_append.mpr
    ⟨hdigits wellFormed.whole, List.forall_mem_append.mpr ⟨hfraction, hexponent⟩⟩

/-- The text of a number: characters of numbers only, at least one. -/
structure IsToken (cs : List Char) : Prop where
  nonempty : cs ≠ []
  number : ∀ c ∈ cs, isNumberChar c = true

theorem isToken_sign (negative : Bool) {cs : List Char} (h : IsToken cs) :
    IsToken ((if negative then ['-'] else []) ++ cs) := by
  refine ⟨List.append_ne_nil_of_right_ne_nil _ h.nonempty, List.forall_mem_append.mpr ⟨?_, h.number⟩⟩
  cases negative with
  | true => exact List.forall_mem_singleton.mpr rfl
  | false => exact nofun

theorem isToken_toString (n : Int) : IsToken (toString n).toList := by
  have hdigits : ∀ n, IsToken (Nat.toDigits 10 n) := fun n =>
    ⟨Nat.toDigits_ne_nil, fun c hc =>
      isNumberChar_of_digit (isDecimalDigit_of_isDigit (isDigit_of_mem_decimal hc))⟩
  cases n with
  | ofNat n =>
      rw [toList_toString_ofNat]
      exact hdigits n
  | negSucc n =>
      rw [toList_toString_negSucc]
      exact isToken_sign true (hdigits (n + 1))

theorem isToken_scientific (x : Binary64) : IsToken (x.scientific ['+']).toList := by
  obtain ⟨n, wellFormed, -, htext, -⟩ := Binary64.exists_scientific x (.inr rfl)
  rw [htext]
  refine isToken_sign x.isNegative ⟨?_, isNumberChar_of_numeral wellFormed⟩
  exact List.append_ne_nil_of_left_ne_nil wellFormed.nonempty _

end PowerBench.Json
