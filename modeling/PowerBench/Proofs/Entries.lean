import PowerBench.Entries

set_option autoImplicit false

/-! # Entries written one after the other

Entries stand in ascending order of key. Writing one sets its key and leaves the others alone
(`mem_insert`), so of many pairs the last one of each key remains (`mem_foldl_insert`). Entries in
order are known by what is found under each key (`eq_of_get?`).
-/

namespace PowerBench

/-- The values under a key, in their order. -/
def under {α : Type} (key : String) (pairs : List (String × α)) : List α :=
  pairs.filterMap fun p => if p.1 = key then some p.2 else none

theorem under_cons_self {α : Type} (key : String) (a : α) (rest : List (String × α)) :
    under key ((key, a) :: rest) = a :: under key rest := by
  simp [under]

theorem under_cons_ne {α : Type} {key k : String} (h : k ≠ key) (a : α)
    (rest : List (String × α)) : under key ((k, a) :: rest) = under key rest := by
  simp [under, h]

theorem mem_under {α : Type} {key : String} {a : α} {pairs : List (String × α)} :
    a ∈ under key pairs ↔ (key, a) ∈ pairs := by
  unfold under
  rw [List.mem_filterMap]
  constructor
  · rintro ⟨⟨k, b⟩, hp, hsome⟩
    split at hsome
    · rename_i hkey
      obtain rfl := hkey
      obtain rfl := Option.some.inj hsome
      exact hp
    · cases hsome
  · intro hp
    exact ⟨(key, a), hp, if_pos rfl⟩

theorem under_eq_nil {α : Type} {key : String} {pairs : List (String × α)}
    (h : key ∉ pairs.map Prod.fst) : under key pairs = [] := by
  refine List.filterMap_eq_nil_iff.mpr fun p hp => if_neg ?_
  rintro rfl
  exact h (List.mem_map_of_mem hp)

/-- Where each key is written once, a key has one value. -/
theorem under_of_mem {α : Type} {key : String} {a : α} {pairs : List (String × α)}
    (once : (pairs.map Prod.fst).Nodup) (h : (key, a) ∈ pairs) : under key pairs = [a] := by
  induction pairs with
  | nil => cases h
  | cons p rest ih =>
      obtain ⟨hnew, hrest⟩ := List.nodup_cons.mp once
      rcases List.mem_cons.mp h with rfl | hmem
      · rw [under_cons_self, under_eq_nil hnew]
      · have hne : p.1 ≠ key := by
          rintro rfl
          exact hnew (List.mem_map.mpr ⟨_, hmem, rfl⟩)
        rw [under_cons_ne hne, ih hrest hmem]

namespace Entries

variable {α : Type}

/-- Ascending keys, and so each of them once. -/
def Ascending (es : Entries α) : Prop := es.Pairwise fun a b => a.1 < b.1

theorem ascending_iff_keys {es : Entries α} :
    es.Ascending ↔ (es.map Prod.fst).Pairwise (· < ·) := by
  rw [List.pairwise_map]
  rfl

/-- Inserting sets one key and leaves the others alone. -/
theorem mem_insert {k : String} {v : α} {es : Entries α} (ascending : es.Ascending)
    {p : String × α} :
    p ∈ es.insert k v ↔ p = (k, v) ∨ p.1 ≠ k ∧ p ∈ es := by
  induction es with
  | nil =>
      rw [insert, List.mem_singleton]
      simp
  | cons e rest ih =>
      obtain ⟨k', v'⟩ := e
      obtain ⟨hhead, hrest⟩ := List.pairwise_cons.mp ascending
      rw [insert]
      by_cases hbefore : k < k'
      · -- The new entry stands in front, and everything after it has a larger key.
        have hapart : ∀ q ∈ (k', v') :: rest, q.1 ≠ k := by
          intro q hq heq
          rcases List.mem_cons.mp hq with rfl | hq
          · exact String.lt_irrefl k (heq ▸ hbefore)
          · exact String.lt_irrefl k (String.lt_trans hbefore (heq ▸ hhead q hq))
        rw [if_pos hbefore, List.mem_cons]
        constructor
        · rintro (hp | hp)
          · exact .inl hp
          · exact .inr ⟨hapart p hp, hp⟩
        · rintro (hp | ⟨-, hp⟩)
          · exact .inl hp
          · exact .inr hp
      · rw [if_neg hbefore]
        by_cases hsame : k = k'
        · subst hsame
          have hapart : ∀ q ∈ rest, q.1 ≠ k := fun q hq heq =>
            String.lt_irrefl k (heq ▸ hhead q hq)
          rw [if_pos rfl, List.mem_cons]
          constructor
          · rintro (hp | hp)
            · exact .inl hp
            · exact .inr ⟨hapart p hp, List.mem_cons_of_mem _ hp⟩
          · rintro (hp | ⟨hne, hp⟩)
            · exact .inl hp
            · rcases List.mem_cons.mp hp with rfl | hp
              · exact absurd rfl hne
              · exact .inr hp
        · rw [if_neg hsame, List.mem_cons, ih hrest]
          constructor
          · rintro (rfl | hp | ⟨hne, hp⟩)
            · exact .inr ⟨Ne.symm hsame, List.mem_cons_self⟩
            · exact .inl hp
            · exact .inr ⟨hne, List.mem_cons_of_mem _ hp⟩
          · rintro (hp | ⟨hne, hp⟩)
            · exact .inr (.inl hp)
            · rcases List.mem_cons.mp hp with rfl | hp
              · exact .inl rfl
              · exact .inr (.inr ⟨hne, hp⟩)

theorem ascending_insert {k : String} {v : α} {es : Entries α} (ascending : es.Ascending) :
    (es.insert k v).Ascending := by
  induction es with
  | nil => exact List.pairwise_singleton _ _
  | cons e rest ih =>
      obtain ⟨k', v'⟩ := e
      obtain ⟨hhead, hrest⟩ := List.pairwise_cons.mp ascending
      rw [insert]
      by_cases hbefore : k < k'
      · rw [if_pos hbefore]
        refine List.pairwise_cons.mpr ⟨?_, ascending⟩
        intro q hq
        rcases List.mem_cons.mp hq with rfl | hq
        · exact hbefore
        · exact String.lt_trans hbefore (hhead q hq)
      · rw [if_neg hbefore]
        by_cases hsame : k = k'
        · subst hsame
          rw [if_pos rfl]
          exact List.pairwise_cons.mpr ⟨hhead, hrest⟩
        · rw [if_neg hsame]
          refine List.pairwise_cons.mpr ⟨?_, ih hrest⟩
          intro q hq
          rcases (mem_insert hrest).mp hq with rfl | ⟨-, hq⟩
          · have hle : k' ≤ k := String.not_lt.mp hbefore
            exact String.not_le.mp fun hge => hsame (String.le_antisymm hge hle)
          · exact hhead q hq

/-- A key after all others is added at the end. -/
theorem insert_of_last {k : String} {es : Entries α} (last : ∀ e ∈ es, e.1 < k) (v : α) :
    es.insert k v = es ++ [(k, v)] := by
  induction es with
  | nil => rfl
  | cons e rest ih =>
      obtain ⟨k', v'⟩ := e
      obtain ⟨hhead, hrest⟩ := List.forall_mem_cons.mp last
      have hlt : k' < k := hhead
      have hnot : ¬ k < k' := fun h => String.lt_irrefl k (String.lt_trans h hlt)
      have hne : k ≠ k' := fun h => String.lt_irrefl k (h ▸ hlt)
      rw [insert, if_neg hnot, if_neg hne, ih hrest]
      rfl

/-! ## Looking up a key -/

/-- An inserted value is found under its key, and what was found under the others still is. -/
theorem get?_insert (k key : String) (v : α) (es : Entries α) :
    (es.insert k v).get? key = if key = k then some v else es.get? key := by
  induction es with
  | nil => rfl
  | cons e rest ih =>
      obtain ⟨k', v'⟩ := e
      rw [insert]
      by_cases hbefore : k < k'
      · rw [if_pos hbefore, get?]
      · rw [if_neg hbefore]
        by_cases hsame : k = k'
        · subst hsame
          rw [if_pos rfl, get?, get?]
          by_cases hkey : key = k
          · rw [if_pos hkey, if_pos hkey]
          · rw [if_neg hkey, if_neg hkey, if_neg hkey]
        · rw [if_neg hsame, get?, get?, ih]
          by_cases hkey : key = k'
          · have hne : key ≠ k := fun h => hsame (h.symm.trans hkey)
            rw [if_pos hkey, if_neg hne, if_pos hkey]
          · rw [if_neg hkey, if_neg hkey]

/-- In ascending entries a key has just the value that is found under it. -/
theorem get?_eq_some {es : Entries α} (ascending : es.Ascending) {k : String} {v : α} :
    es.get? k = some v ↔ (k, v) ∈ es := by
  induction es with
  | nil => simp [get?]
  | cons e rest ih =>
      obtain ⟨k', v'⟩ := e
      obtain ⟨hhead, hrest⟩ := List.pairwise_cons.mp ascending
      rw [get?, List.mem_cons]
      by_cases hsame : k = k'
      · subst hsame
        have hfresh : (k, v) ∉ rest := fun hmem => String.lt_irrefl k (hhead _ hmem)
        rw [if_pos rfl]
        simp [hfresh, eq_comm]
      · rw [if_neg hsame, ih hrest]
        simp [hsame]

/-- Ascending entries are known by what is found under each key. -/
theorem eq_of_get? {es es' : Entries α} (ascending : es.Ascending) (ascending' : es'.Ascending)
    (h : ∀ k, es.get? k = es'.get? k) : es = es' := by
  have hnodup : ∀ {es : Entries α}, es.Ascending → es.Nodup := by
    intro es hes
    refine List.Pairwise.imp ?_ hes
    rintro a _ hlt rfl
    exact String.lt_irrefl _ hlt
  have hmem : ∀ p, p ∈ es ↔ p ∈ es' := by
    rintro ⟨k, v⟩
    rw [← get?_eq_some ascending, h, get?_eq_some ascending']
  have hperm : es.Perm es' :=
    (List.perm_ext_iff_of_nodup (hnodup ascending) (hnodup ascending')).mpr hmem
  refine hperm.eq_of_pairwise (fun a b _ _ hab hba => ?_) ascending ascending'
  exact absurd (String.lt_trans hab hba) (String.lt_irrefl _)

/-! ## Many pairs -/

/-- Pairs added one after the other: each key has the last value written under it. -/
theorem mem_foldl_insert (pairs : List (String × α)) {es : Entries α} (ascending : es.Ascending) :
    (pairs.foldl (fun es p => es.insert p.1 p.2) es).Ascending
      ∧ ∀ {key : String} {v : α},
        (key, v) ∈ pairs.foldl (fun es p => es.insert p.1 p.2) es ↔
          (under key pairs).getLast? = some v ∨ under key pairs = [] ∧ (key, v) ∈ es := by
  induction pairs generalizing es with
  | nil => simp [under, ascending]
  | cons p rest ih =>
      obtain ⟨k, w⟩ := p
      obtain ⟨hascending, hmem⟩ := ih (ascending_insert ascending : (es.insert k w).Ascending)
      refine ⟨hascending, ?_⟩
      intro key v
      rw [List.foldl_cons, hmem, mem_insert ascending]
      by_cases hkey : k = key
      · subst hkey
        rw [under_cons_self, List.getLast?_cons]
        cases hunder : under k rest with
        | nil => simp [eq_comm]
        | cons a as => simp [List.getLast?_cons]
      · rw [under_cons_ne hkey]
        simp [Ne.symm hkey]

/-- Of pairs in any order the last one of each key remains. -/
theorem mem_ofList (pairs : List (String × α)) :
    (ofList pairs).Ascending
      ∧ ∀ key v, (key, v) ∈ ofList pairs ↔ (under key pairs).getLast? = some v := by
  obtain ⟨hascending, hmem⟩ := mem_foldl_insert pairs (.nil : Ascending ([] : Entries α))
  refine ⟨hascending, fun key v => ?_⟩
  rw [ofList, hmem]
  simp only [List.not_mem_nil, and_false, or_false]

/-- Entries in ascending order stay as they are. -/
theorem ofList_of_ascending {es : Entries α} (ascending : es.Ascending) : ofList es = es := by
  have hadd : ∀ {later earlier : Entries α}, Ascending (earlier ++ later) →
      later.foldl (fun es p => es.insert p.1 p.2) earlier = earlier ++ later := by
    intro later
    induction later with
    | nil => exact fun _ => (List.append_nil _).symm
    | cons e rest ih =>
        intro earlier h
        have hlast : ∀ p ∈ earlier, p.1 < e.1 := fun p hp =>
          (List.pairwise_append.mp h).2.2 p hp e List.mem_cons_self
        rw [List.foldl_cons, insert_of_last hlast, ih (by rwa [List.append_assoc]), List.append_assoc]
        rfl
  exact hadd ascending

end Entries

end PowerBench
