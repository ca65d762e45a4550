import PowerBench.Proofs.RequestTokens

set_option autoImplicit false

/-! # Blank arguments

The instrument takes a blank argument as a value, so an option without a value is left out. Where no
parameter of a request is empty, none of its tokens is (`ValueOf.ne_empty`), with one exception: the
names of channels are joined to one token, and no channels at all are joined to an empty one
(`blank_token_iff`).
-/

namespace PowerBench

/-- At least one character is shown of every path but the empty one. -/
theorem Path.shown_ne_empty {p : Path} (h : p.bytes ≠ []) : p.shown ≠ "" := by
  intro hempty
  have hchars : Utf8.lossyChars p.bytes = [] := by
    rw [← p.toList_shown, hempty]
    rfl
  cases hbytes : p.bytes with
  | nil => exact h hbytes
  | cons b rest =>
      rw [hbytes, Utf8.lossyChars_cons] at hchars
      cases hchars

namespace Request

open Call

/-- No parameter is empty: neither a text, nor a path, nor the name of a channel. There may be no
channels. -/
structure Filled (r : Request) : Prop where
  texts : ∀ t ∈ r.texts, t ≠ ""
  paths : ∀ p ∈ r.paths, p.bytes ≠ []

theorem number_ne_empty (n : Int) : toString n ≠ "" := by
  -- The text of a number reads as a number, and an empty text does not.
  intro hempty
  have hread : readInteger n.natAbs n.natAbs (toString n).toList = .ok n :=
    readInteger_toString (by omega) (by omega)
  rw [hempty] at hread
  cases hread

theorem joined_ne_empty {channels : List String} (listed : channels ≠ [])
    (filled : ∀ c ∈ channels, c ≠ "") : String.intercalate "," channels ≠ "" := by
  match channels with
  | [] => exact absurd rfl listed
  | [c] =>
      rw [String.intercalate_singleton]
      exact filled c List.mem_cons_self
  | a :: b :: rest =>
      intro hempty
      have hcomma := comma_mem_joined a b rest
      rw [hempty] at hcomma
      cases hcomma

/-- A value in a filled request is not empty, unless it stands for channels of which there are none. -/
theorem ValueOf.ne_empty {r : Request} {value : String} (h : ValueOf r value) (filled : r.Filled)
    (listed : ∀ name dest, r ≠ .csv [] name dest) : value ≠ "" := by
  have hwords : ∀ w ∈ words, w ≠ "" := by decide
  cases h with
  | text mem => exact filled.texts _ mem
  | @joined channels name dest csv =>
      subst csv
      refine joined_ne_empty ?_ fun channel hc => filled.texts channel (List.mem_cons_of_mem _ hc)
      rintro rfl
      exact listed name dest rfl
  | shown mem => exact Path.shown_ne_empty (filled.paths _ mem)
  | number n => exact number_ne_empty n
  | word mem => exact hwords _ mem

/-- **The only blank argument.** In a request none of whose parameters is empty, a token is empty
exactly if channels are asked for and there are none. -/
theorem blank_token_iff (c : ServiceConfig) {r : Request} (filled : r.Filled) :
    "" ∈ r.tokens c ↔ ∃ name dest, r = .csv [] name dest := by
  have hflags : ∀ flag ∈ flags, flag ≠ "" := by decide
  constructor
  · intro hblank
    by_contra hlisted
    rw [← tokens_items] at hblank
    obtain ⟨item, hitem, htoken⟩ := List.mem_flatMap.mp hblank
    cases items_cases c r item hitem with
    | flag known => exact hflags _ known (List.mem_singleton.mp htoken).symm
    | pair known origin =>
        rcases List.mem_cons.mp htoken with hname | hvalue
        · exact hflags _ known hname.symm
        · refine origin.ne_empty filled ?_ (List.mem_singleton.mp hvalue).symm
          rintro name dest rfl
          exact hlisted ⟨name, dest, rfl⟩
  · rintro ⟨name, dest, rfl⟩
    simp [tokens]

/-- Two channels of a service with a virtual metrics file. -/
theorem blank_token_iff_channels :
    let c := { ServiceConfig.default with virtualMetrics := true }
    let r := Request.csv ["a", "b"] "c1" (.ofText "out.csv")
    r.Filled ∧ "" ∉ r.tokens c := by
  intro c r
  have hfilled : r.Filled := ⟨by decide, by decide⟩
  refine ⟨hfilled, fun hblank => ?_⟩
  obtain ⟨name, dest, hr⟩ := (blank_token_iff c hfilled).mp hblank
  simp [r] at hr

/-- Without channels their names are a blank argument, although nothing else is empty. -/
theorem no_channels_blank :
    let r := Request.csv [] "c1" (.ofText "out.csv")
    r.Filled ∧ "" ∈ r.tokens .default ∧ valueOf "--channels" (r.tokens .default) = some "" := by
  intro r
  exact ⟨⟨by decide, by decide⟩, by decide, by decide⟩

end Request

end PowerBench
