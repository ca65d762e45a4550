import PowerBench.Proofs.JsonText

set_option autoImplicit false

/-! # JSON texts read back

What is written for a value with line breaks is read as this value, except that a number that is not
finite is read as null (`read?_pretty`).
-/

namespace PowerBench.Json

/-! ## What is shown -/

mutual

/-- What is shown of a value: a number that is not finite is null. -/
def shown : Json → Json
  | .float x => if x.isFinite then .float x else .null
  | .array items => .array (shownItems items)
  | .object entries => .object (shownEntries entries)
  | .null => .null
  | .bool b => .bool b
  | .int n => .int n
  | .string s => .string s

/-- What is shown of the items of an array. -/
def shownItems : List Json → List Json
  | [] => []
  | v :: vs => shown v :: shownItems vs

/-- What is shown of the entries of an object. -/
def shownEntries : List (String × Json) → List (String × Json)
  | [] => []
  | (k, v) :: es => (k, shown v) :: shownEntries es

end

/-! ## How texts begin -/

theorem isSpace_of_number {c : Char} (h : isNumberChar c = true) : isSpace c = false := by
  have hother : ∀ x : Char, isNumberChar x = false → (c == x) = false := by
    intro x hx
    refine beq_eq_false_iff_ne.mpr ?_
    rintro rfl
    rw [h] at hx
    cases hx
  rw [isSpace, hother _ rfl, hother _ rfl, hother _ rfl, hother _ rfl]
  rfl

/-- How the text of a value begins: neither with a blank nor with the end of an array. -/
def Begins (cs : List Char) : Prop := ∃ c rest, cs = c :: rest ∧ isSpace c = false ∧ c ≠ ']'

theorem begins_cons {c : Char} (rest : List Char) (space : isSpace c = false) (bracket : c ≠ ']') :
    Begins (c :: rest) :=
  ⟨c, rest, rfl, space, bracket⟩

theorem Begins.length_pos {cs : List Char} (h : Begins cs) : 0 < cs.length := by
  obtain ⟨c, rest, rfl, -, -⟩ := h
  exact Nat.succ_pos _

theorem IsToken.begins {cs : List Char} (h : IsToken cs) : Begins cs := by
  obtain ⟨c, rest, rfl⟩ := List.exists_cons_of_ne_nil h.nonempty
  have hc := h.number c List.mem_cons_self
  refine begins_cons rest (isSpace_of_number hc) ?_
  rintro rfl
  exact absurd hc (by decide)

theorem toList_null : "null".toList = ['n', 'u', 'l', 'l'] := rfl

theorem toList_noItems : "[]".toList = ['[', ']'] := rfl

theorem toList_noEntries : "\x7b\x7d".toList = ['\x7b', '\x7d'] := rfl

theorem toList_bool (b : Bool) : (if b then "true" else "false").toList
    = if b then ['t', 'r', 'u', 'e'] else ['f', 'a', 'l', 's', 'e'] := by
  cases b <;> rfl

theorem toList_quote (s : String) :
    (quote s).toList = '"' :: (s.toList.flatMap escapeChar ++ ['"']) := by
  rw [quote, String.toList_ofList]
  rfl

theorem toList_array (level : Nat) (v : Json) (vs : List Json) :
    (prettyAt level (.array (v :: vs))).toList = '[' :: ((prettyItems level "" (v :: vs)).toList
      ++ ((newline level).toList ++ [']'])) := by
  rw [prettyAt]
  simp

theorem toList_object (level : Nat) (e : String × Json) (es : List (String × Json)) :
    (prettyAt level (.object (e :: es))).toList = '\x7b' :: ((prettyEntries level "" (e :: es)).toList
      ++ ((newline level).toList ++ ['\x7d'])) := by
  rw [prettyAt]
  simp

theorem begins_prettyAt (level : Nat) (v : Json) : Begins (prettyAt level v).toList := by
  cases v with
  | null =>
      rw [prettyAt, toList_null]
      exact begins_cons _ (by decide) (by decide)
  | bool b =>
      rw [prettyAt, toList_bool]
      cases b <;> exact begins_cons _ (by decide) (by decide)
  | int n => exact (isToken_toString n).begins
  | float x =>
      rw [prettyAt, floatText]
      split
      · exact (isToken_scientific x).begins
      · rw [toList_null]
        exact begins_cons _ (by decide) (by decide)
  | string s =>
      rw [prettyAt, toList_quote]
      exact begins_cons _ (by decide) (by decide)
  | array items =>
      cases items with
      | nil =>
          rw [prettyAt, toList_noItems]
          exact begins_cons _ (by decide) (by decide)
      | cons x xs =>
          rw [toList_array]
          exact begins_cons _ (by decide) (by decide)
  | object entries =>
      cases entries with
      | nil =>
          rw [prettyAt, toList_noEntries]
          exact begins_cons _ (by decide) (by decide)
      | cons e es =>
          rw [toList_object]
          exact begins_cons _ (by decide) (by decide)

/-! ## Between the parts -/

theorem skipSpace_of_begins {cs : List Char} (h : Begins cs) (rest : List Char) :
    skipSpace (cs ++ rest) = cs ++ rest := by
  obtain ⟨c, cs, rfl, hspace, -⟩ := h
  rw [List.cons_append, skipSpace, List.dropWhile_cons_of_neg (by simp [hspace])]

/-- Line breaks and the blanks behind them are skipped. -/
theorem skipSpace_newline (level : Nat) (cs : List Char) :
    skipSpace ((newline level).toList ++ cs) = skipSpace cs := by
  rw [newline, String.toList_ofList, skipSpace, List.dropWhile_append_of_pos]
  · rfl
  · refine List.forall_mem_cons.mpr ⟨rfl, fun c hc => ?_⟩
    rw [List.eq_of_mem_replicate hc]
    rfl

/-- The items of an array without the blanks in front. -/
theorem skipSpace_items (level : Nat) (v : Json) (vs : List Json) (rest : List Char) :
    skipSpace ((prettyItems level "" (v :: vs)).toList ++ rest)
      = (prettyAt (level + 1) v).toList ++ ((prettyItems level "," vs).toList ++ rest) := by
  rw [prettyItems]
  simp only [String.toList_append, String.toList_empty, List.nil_append, List.append_assoc]
  rw [skipSpace_newline, skipSpace_of_begins (begins_prettyAt _ v)]

/-- Only the first item has no comma in front. -/
theorem toList_moreItems {level : Nat} {vs : List Json} (h : vs ≠ []) :
    (prettyItems level "," vs).toList = ',' :: (prettyItems level "" vs).toList := by
  obtain ⟨v, vs, rfl⟩ := List.exists_cons_of_ne_nil h
  rw [prettyItems, prettyItems]
  simp

/-- The entries of an object without the blanks in front. -/
theorem skipSpace_entries (level : Nat) (k : String) (v : Json) (es : List (String × Json))
    (rest : List Char) :
    skipSpace ((prettyEntries level "" ((k, v) :: es)).toList ++ rest)
      = (quote k).toList ++ (':' :: ' ' :: ((prettyAt (level + 1) v).toList
        ++ ((prettyEntries level "," es).toList ++ rest))) := by
  have hcolon : ": ".toList = [':', ' '] := rfl
  have hbegins : Begins (quote k).toList := by
    rw [toList_quote]
    exact begins_cons _ (by decide) (by decide)
  rw [prettyEntries]
  simp only [String.toList_append, String.toList_empty, List.nil_append, List.append_assoc, hcolon,
    List.cons_append]
  rw [skipSpace_newline, skipSpace_of_begins hbegins]

theorem toList_moreEntries {level : Nat} {es : List (String × Json)} (h : es ≠ []) :
    (prettyEntries level "," es).toList = ',' :: (prettyEntries level "" es).toList := by
  obtain ⟨⟨k, v⟩, es, rfl⟩ := List.exists_cons_of_ne_nil h
  rw [prettyEntries, prettyEntries]
  simp

/-- A key is read up to its value. -/
theorem key?_quote {k : String} {text rest : List Char} {fuel : Nat} (begins : Begins text)
    (hfuel : (quote k).toList.length ≤ fuel) :
    key? fuel ((quote k).toList ++ (':' :: ' ' :: (text ++ rest))) = some (k, text ++ rest) := by
  have hskip : skipSpace (' ' :: (text ++ rest)) = text ++ rest := by
    rw [skipSpace, List.dropWhile_cons_of_pos (by decide), ← skipSpace, skipSpace_of_begins begins]
  rw [toList_quote] at hfuel ⊢
  rw [List.length_cons, List.length_append] at hfuel
  rw [List.cons_append, List.append_assoc, List.singleton_append, key?,
    string?_escaped _ (by omega)]
  have hcolon : skipSpace (':' :: ' ' :: (text ++ rest)) = ':' :: ' ' :: (text ++ rest) := rfl
  simp only [Option.bind_eq_bind, Option.bind_some, hcolon, hskip, String.ofList_toList]
  rfl

/-! ## Reading a value -/

theorem value?_null (fuel : Nat) (rest : List Char) :
    value? (fuel + 1) (['n', 'u', 'l', 'l'] ++ rest) = some (.null, rest) := by
  rw [List.cons_append, value?, if_neg (by decide), if_neg (by decide), if_neg (by decide),
    if_pos rfl]
  rfl

theorem value?_bool (b : Bool) (fuel : Nat) (rest : List Char) :
    value? (fuel + 1) ((if b then ['t', 'r', 'u', 'e'] else ['f', 'a', 'l', 's', 'e']) ++ rest)
      = some (.bool b, rest) := by
  cases b with
  | true =>
      rw [if_pos rfl, List.cons_append, value?, if_neg (by decide), if_neg (by decide),
        if_neg (by decide), if_neg (by decide), if_pos rfl]
      rfl
  | false =>
      rw [if_neg Bool.false_ne_true, List.cons_append, value?, if_neg (by decide),
        if_neg (by decide), if_neg (by decide), if_neg (by decide), if_neg (by decide), if_pos rfl]
      rfl

theorem value?_token {token rest : List Char} {v : Json} {fuel : Nat} (isToken : IsToken token)
    (denotes : number? token = some v) (stops : Stops rest) (hfuel : token.length ≤ fuel) :
    value? fuel (token ++ rest) = some (v, rest) := by
  obtain ⟨c, cs, rfl⟩ := List.exists_cons_of_ne_nil isToken.nonempty
  rw [List.length_cons] at hfuel
  obtain ⟨fuel, rfl⟩ : ∃ n, fuel = n + 1 := ⟨fuel - 1, by omega⟩
  exact value?_number isToken.number denotes stops

/-- What is written for a value is read as what is shown of it, at every level and in front of
everything that ends a number. -/
def ReadsBack (v : Json) : Prop :=
  ∀ (level fuel : Nat) (rest : List Char), (prettyAt level v).toList.length ≤ fuel → Stops rest →
    value? fuel ((prettyAt level v).toList ++ rest) = some (v.shown, rest)

/-- What is written for the items of an array is read up to its end. -/
def ItemsReadBack (vs : List Json) : Prop :=
  ∀ (level fuel : Nat) (rest : List Char), vs ≠ [] → (prettyItems level "" vs).toList.length ≤ fuel →
    items? fuel (skipSpace ((prettyItems level "" vs).toList
      ++ ((newline level).toList ++ ']' :: rest))) = some (shownItems vs, rest)

/-- What is written for the entries of an object is read up to its end. -/
def EntriesReadBack (es : List (String × Json)) : Prop :=
  ∀ (level fuel : Nat) (rest : List Char), es ≠ [] →
    (prettyEntries level "" es).toList.length ≤ fuel →
    entries? fuel (skipSpace ((prettyEntries level "" es).toList
      ++ ((newline level).toList ++ '\x7d' :: rest))) = some (shownEntries es, rest)

/-- Fuel for the text of a value is not nothing. -/
theorem exists_fuel {level fuel : Nat} {v : Json} (h : (prettyAt level v).toList.length ≤ fuel) :
    ∃ n, fuel = n + 1 :=
  ⟨fuel - 1, by have := (begins_prettyAt level v).length_pos; omega⟩

theorem readsBack_null : ReadsBack .null := by
  intro level fuel rest hfuel _
  obtain ⟨fuel, rfl⟩ := exists_fuel hfuel
  rw [prettyAt, toList_null]
  exact value?_null fuel rest

theorem readsBack_bool (b : Bool) : ReadsBack (.bool b) := by
  intro level fuel rest hfuel _
  obtain ⟨fuel, rfl⟩ := exists_fuel hfuel
  rw [prettyAt, toList_bool]
  exact value?_bool b fuel rest

theorem readsBack_int (n : Int) : ReadsBack (.int n) := by
  intro level fuel rest hfuel stops
  rw [prettyAt] at hfuel ⊢
  exact value?_token (isToken_toString n) (number?_toString n) stops hfuel

theorem readsBack_float (x : Binary64) : ReadsBack (.float x) := by
  intro level fuel rest hfuel stops
  rw [prettyAt, floatText] at hfuel ⊢
  rw [shown]
  split
  · rename_i finite
    rw [if_pos finite] at hfuel
    exact value?_token (isToken_scientific x) (number?_scientific finite) stops hfuel
  · rename_i infinite
    rw [if_neg infinite] at hfuel
    exact readsBack_null level fuel rest hfuel stops

theorem readsBack_string (s : String) : ReadsBack (.string s) := by
  intro level fuel rest hfuel _
  obtain ⟨fuel, rfl⟩ := exists_fuel hfuel
  rw [prettyAt, toList_quote, List.length_cons, List.length_append, List.length_singleton] at hfuel
  rw [prettyAt, toList_quote, List.cons_append, List.append_assoc, List.singleton_append, value?,
    if_pos rfl, string?_escaped _ (by omega), Option.map_some]
  dsimp only
  rw [String.ofList_toList]
  rfl

theorem readsBack_array {vs : List Json} (h : ItemsReadBack vs) : ReadsBack (.array vs) := by
  intro level fuel rest hfuel _
  obtain ⟨fuel, rfl⟩ := exists_fuel hfuel
  cases vs with
  | nil =>
      rw [prettyAt, toList_noItems, List.cons_append, value?, if_neg (by decide), if_pos rfl]
      rfl
  | cons v vs =>
      rw [toList_array, List.length_cons, List.length_append] at hfuel
      have hitems := h level fuel rest (List.cons_ne_nil v vs) (by omega)
      obtain ⟨c, cs, hbegins, -, hbracket⟩ := begins_prettyAt (level + 1) v
      -- The first item does not begin with a bracket, so the array is not taken for an empty one.
      rw [skipSpace_items, hbegins, List.cons_append] at hitems
      rw [toList_array, List.cons_append, List.append_assoc, List.append_assoc, List.singleton_append,
        value?, if_neg (by decide), if_pos rfl, skipSpace_items, hbegins, List.cons_append]
      split
      · rename_i h
        exact absurd (List.cons.inj h).1 hbracket
      · rw [hitems]
        rfl

theorem readsBack_object {es : List (String × Json)} (h : EntriesReadBack es) :
    ReadsBack (.object es) := by
  intro level fuel rest hfuel _
  obtain ⟨fuel, rfl⟩ := exists_fuel hfuel
  cases es with
  | nil =>
      rw [prettyAt, toList_noEntries, List.cons_append, value?, if_neg (by decide),
        if_neg (by decide), if_pos rfl]
      rfl
  | cons e es =>
      obtain ⟨k, v⟩ := e
      rw [toList_object, List.length_cons, List.length_append] at hfuel
      have hentries := h level fuel rest (List.cons_ne_nil _ es) (by omega)
      rw [skipSpace_entries, toList_quote, List.cons_append] at hentries
      rw [toList_object, List.cons_append, List.append_assoc, List.append_assoc, List.singleton_append,
        value?, if_neg (by decide), if_neg (by decide), if_pos rfl, skipSpace_entries, toList_quote,
        List.cons_append]
      split
      · rename_i h
        exact absurd (List.cons.inj h).1 (by decide)
      · rw [hentries]
        rfl

/-! ## Reading items and entries -/

/-- A number ends in front of the rest of an array. -/
theorem stops_items (level : Nat) (vs : List Json) (rest : List Char) :
    Stops ((prettyItems level "," vs).toList ++ ((newline level).toList ++ rest)) := by
  rcases eq_or_ne vs [] with rfl | hvs
  · rw [newline, String.toList_ofList]
    rintro _ ⟨⟩
    rfl
  · rw [toList_moreItems hvs]
    rintro _ ⟨⟩
    rfl

theorem stops_entries (level : Nat) (es : List (String × Json)) (rest : List Char) :
    Stops ((prettyEntries level "," es).toList ++ ((newline level).toList ++ rest)) := by
  rcases eq_or_ne es [] with rfl | hes
  · rw [newline, String.toList_ofList]
    rintro _ ⟨⟩
    rfl
  · rw [toList_moreEntries hes]
    rintro _ ⟨⟩
    rfl

theorem length_items (level : Nat) (v : Json) (vs : List Json) :
    (prettyAt (level + 1) v).toList.length + (prettyItems level "," vs).toList.length
      < (prettyItems level "" (v :: vs)).toList.length := by
  rw [prettyItems, newline]
  simp only [String.toList_append, List.length_append, String.toList_ofList, List.length_cons]
  omega

theorem length_entries (level : Nat) (k : String) (v : Json) (es : List (String × Json)) :
    (quote k).toList.length + (prettyAt (level + 1) v).toList.length
      + (prettyEntries level "," es).toList.length
      < (prettyEntries level "" ((k, v) :: es)).toList.length := by
  rw [prettyEntries, newline]
  simp only [String.toList_append, List.length_append, String.toList_ofList, List.length_cons]
  omega

theorem itemsReadBack_cons {v : Json} {vs : List Json} (hv : ReadsBack v) (hvs : ItemsReadBack vs) :
    ItemsReadBack (v :: vs) := by
  intro level fuel rest _ hfuel
  have hlength := length_items level v vs
  obtain ⟨fuel, rfl⟩ : ∃ n, fuel = n + 1 := ⟨fuel - 1, by omega⟩
  rw [skipSpace_items, items?,
    hv (level + 1) fuel _ (by omega) (stops_items level vs (']' :: rest))]
  simp only [Option.bind_eq_bind, Option.bind_some]
  -- Behind the last item the array ends, behind any other a comma leads to the next one.
  rcases eq_or_ne vs [] with rfl | hne
  · have hend : skipSpace ((prettyItems level "," []).toList ++ ((newline level).toList ++ ']' :: rest))
        = ']' :: rest := skipSpace_newline level (']' :: rest)
    rw [hend]
    rfl
  · rw [toList_moreItems hne, List.length_cons] at hlength
    rw [toList_moreItems hne, List.cons_append, skipSpace, List.dropWhile_cons_of_neg (by decide)]
    simp only [hvs level fuel rest hne (by omega), Option.bind_some]
    rfl

theorem entriesReadBack_cons {k : String} {v : Json} {es : List (String × Json)} (hv : ReadsBack v)
    (hes : EntriesReadBack es) : EntriesReadBack ((k, v) :: es) := by
  intro level fuel rest _ hfuel
  have hlength := length_entries level k v es
  obtain ⟨fuel, rfl⟩ : ∃ n, fuel = n + 1 := ⟨fuel - 1, by omega⟩
  rw [skipSpace_entries, entries?, key?_quote (begins_prettyAt (level + 1) v) (by omega)]
  simp only [Option.bind_eq_bind, Option.bind_some]
  rw [hv (level + 1) fuel _ (by omega) (stops_entries level es ('\x7d' :: rest))]
  simp only [Option.bind_some]
  rcases eq_or_ne es [] with rfl | hne
  · have hend : skipSpace ((prettyEntries level "," []).toList
        ++ ((newline level).toList ++ '\x7d' :: rest)) = '\x7d' :: rest :=
      skipSpace_newline level ('\x7d' :: rest)
    rw [hend]
    rfl
  · rw [toList_moreEntries hne, List.length_cons] at hlength
    rw [toList_moreEntries hne, List.cons_append, skipSpace, List.dropWhile_cons_of_neg (by decide)]
    simp only [hes level fuel rest hne (by omega), Option.bind_some]
    rfl

-- The recursion follows the value that is written. Fuel is counted in characters, so a part of a text
-- that is read with what its neighbours leave has enough.
mutual

theorem readsBack : ∀ v : Json, ReadsBack v
  | .null => readsBack_null
  | .bool b => readsBack_bool b
  | .int n => readsBack_int n
  | .float x => readsBack_float x
  | .string s => readsBack_string s
  | .array vs => readsBack_array (itemsReadBack vs)
  | .object es => readsBack_object (entriesReadBack es)

theorem itemsReadBack : ∀ vs : List Json, ItemsReadBack vs
  | [] => fun _ _ _ h => absurd rfl h
  | v :: vs => itemsReadBack_cons (readsBack v) (itemsReadBack vs)

theorem entriesReadBack : ∀ es : List (String × Json), EntriesReadBack es
  | [] => fun _ _ _ h => absurd rfl h
  | (_, v) :: es => entriesReadBack_cons (readsBack v) (entriesReadBack es)

end

/-- **JSON texts read back.** What is written for a value is read as what is shown of it. -/
theorem read?_pretty (v : Json) : read? v.pretty = some v.shown := by
  have hskip : skipSpace v.pretty.toList = v.pretty.toList := by
    have := skipSpace_of_begins (begins_prettyAt 0 v) []
    rwa [List.append_nil] at this
  have hread := readsBack v 0 v.pretty.toList.length [] (Nat.le_refl _) nofun
  rw [List.append_nil, ← pretty] at hread
  rw [read?, hskip, hread]
  rfl

end PowerBench.Json
