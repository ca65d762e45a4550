import PowerBench.Proofs.Entries
import PowerBench.Proofs.Outcome
import PowerBench.Proofs.YamlTree
import PowerBench.Report.Read

set_option autoImplicit false

/-! # What a report keeps

A report has a place of its own for the entry `data` and, in each channel, for the entry `name`. The
other entries of these mappings are kept by key. Inside a value that is kept nothing is left out
(`holds_of_keep`), and a key that is written twice is refused there. In the mappings of the report and
of its channels it is not refused: the last entry counts (`read_keeps`), so an earlier one is lost
(`read_twice`).
-/

namespace PowerBench.Report

open Yaml (Node Value Document)

/-! ## Values of nodes -/

/-- The value that a scalar's meaning is kept as. An integer of more than 64 bits has none. -/
inductive Means : Yaml.Plain.Meaning → Value → Prop
  | null : Means .null .null
  | bool (b : Bool) : Means (.bool b) (.bool b)
  | int (n : Int) : Means (.int n) (.int n)
  | float (x : Binary64) : Means (.float x) (.float x)
  | string (s : String) : Means (.string s) (.string s)

mutual

/-- What a node holds: all items of a sequence and all entries of a mapping in their order, where no
key of a mapping is written twice. -/
inductive Holds : Node → Value → Prop
  | scalar {tag : Yaml.Tag} {text : String} {plain : Bool} {m : Yaml.Plain.Meaning} {v : Value}
      (common : isOwnTag tag = false) (read : meaning tag text plain = .ok m) (means : Means m v) :
      Holds (.scalar tag text plain) v
  | sequence {tag : Yaml.Tag} {items : List Node} {values : List Value}
      (common : isOwnTag tag = false) (all : List.Forall₂ Holds items values) :
      Holds (.sequence tag items) (.sequence values)
  | mapping {tag : Yaml.Tag} {entries : List (Node × Node)} {values : List (Value × Value)}
      (common : isOwnTag tag = false) (all : List.Forall₂ HoldsEntry entries values)
      (once : values.Pairwise fun p q => p.1.same q.1 = false) :
      Holds (.mapping tag entries) (.mapping values)
  | absent : Holds .absent .null

/-- What an entry of a mapping holds. -/
inductive HoldsEntry : Node × Node → Value × Value → Prop
  | entry {k n : Node} {key value : Value} (left : Holds k key) (right : Holds n value) :
      HoldsEntry (k, n) (key, value)

end

theorem checkItems_eq_ok {vs : List Value} (h : checkItems vs = .ok ()) :
    ∀ v ∈ vs, checkKeys v = .ok () := by
  induction vs with
  | nil => exact List.forall_mem_nil _
  | cons v rest ih =>
      rw [checkItems] at h
      obtain ⟨⟨⟩, hv, hrest⟩ := bind_eq_ok.mp h
      exact List.forall_mem_cons.mpr ⟨hv, ih hrest⟩

/-- Entries that pass the check have keys of their own, other than the earlier ones. -/
theorem checkEntries_eq_ok {earlier : List Value} {ps : List (Value × Value)}
    (h : checkEntries earlier ps = .ok ()) :
    (∀ p ∈ ps, checkKeys p.1 = .ok () ∧ checkKeys p.2 = .ok ())
      ∧ (ps.Pairwise fun p q => p.1.same q.1 = false)
      ∧ ∀ k ∈ earlier, ∀ p ∈ ps, k.same p.1 = false := by
  induction ps generalizing earlier with
  | nil =>
      exact ⟨List.forall_mem_nil _, .nil, fun _ _ => List.forall_mem_nil _⟩
  | cons p rest ih =>
      obtain ⟨key, value⟩ := p
      rw [checkEntries] at h
      obtain ⟨⟨⟩, hkey, h⟩ := bind_eq_ok.mp h
      cases hfind : earlier.find? (·.same key) with
      | some first =>
          rw [hfind] at h
          cases h
      | none =>
          rw [hfind] at h
          obtain ⟨⟨⟩, hvalue, h⟩ := bind_eq_ok.mp h
          obtain ⟨hchecked, hapart, hearlier⟩ := ih h
          have hnew : ∀ k ∈ earlier, k.same key = false := by
            intro k hk
            simpa using List.find?_eq_none.mp hfind k hk
          refine ⟨List.forall_mem_cons.mpr ⟨⟨hkey, hvalue⟩, hchecked⟩,
            List.pairwise_cons.mpr ⟨?_, hapart⟩, ?_⟩
          · exact hearlier key (List.mem_append_right _ (List.mem_singleton_self _))
          · intro k hk
            exact List.forall_mem_cons.mpr
              ⟨hnew k hk, hearlier k (List.mem_append_left _ hk)⟩

theorem holds_scalar {tag : Yaml.Tag} {text : String} {plain : Bool} {v : Value}
    (h : keepScalar tag text plain = .ok v) : Holds (.scalar tag text plain) v := by
  unfold keepScalar at h
  split at h
  · cases h
  · rename_i hown
    have hcommon : isOwnTag tag = false := by simpa using hown
    cases hread : meaning tag text plain with
    | error m =>
        rw [hread] at h
        cases h
    | ok m =>
        rw [hread] at h
        refine .scalar hcommon hread ?_
        cases m with
        | wide n word => cases h
        | _ =>
            obtain rfl := Except.ok.inj h
            constructor

-- The recursion follows the tree. Repeated keys are looked for in the value that comes out, not on
-- the way, so the check of the value is a hypothesis of its own and comes apart with the value.
mutual

/-- A value kept for a node, with no key twice, is what the node holds. -/
theorem holds_of_keep : ∀ {n : Node} {v : Value}, keep n = .ok v → checkKeys v = .ok () →
    Holds n v
  | .scalar tag text plain, v, h, _ => holds_scalar (by rwa [keep] at h)
  | .sequence tag items, v, h, checked => by
      rw [keep] at h
      split at h
      · cases h
      · rename_i hown
        obtain ⟨vs, hvs, rfl⟩ := map_eq_ok.mp h
        rw [checkKeys] at checked
        exact .sequence (by simpa using hown) (holds_of_keepItems hvs (checkItems_eq_ok checked))
  | .mapping tag entries, v, h, checked => by
      rw [keep] at h
      split at h
      · cases h
      · rename_i hown
        obtain ⟨ps, hps, rfl⟩ := map_eq_ok.mp h
        rw [checkKeys] at checked
        obtain ⟨hchecked, honce, -⟩ := checkEntries_eq_ok checked
        exact .mapping (by simpa using hown) (holds_of_keepEntries hps hchecked) honce
  | .absent, v, h, _ => by
      rw [keep] at h
      obtain rfl := Except.ok.inj h
      exact .absent
  | .cut cause, v, h, _ => by
      rw [keep] at h
      cases h

theorem holds_of_keepItems : ∀ {ns : List Node} {vs : List Value}, keepItems ns = .ok vs →
    (∀ v ∈ vs, checkKeys v = .ok ()) → List.Forall₂ Holds ns vs
  | [], vs, h, _ => by
      rw [keepItems] at h
      obtain rfl := Except.ok.inj h
      exact .nil
  | n :: ns, vs, h, checked => by
      rw [keepItems] at h
      obtain ⟨w, hw, h⟩ := bind_eq_ok.mp h
      obtain ⟨ws, hws, h⟩ := bind_eq_ok.mp h
      obtain rfl := Except.ok.inj h
      obtain ⟨hcheck, hchecks⟩ := List.forall_mem_cons.mp checked
      exact .cons (holds_of_keep hw hcheck) (holds_of_keepItems hws hchecks)

theorem holds_of_keepEntries : ∀ {es : List (Node × Node)} {ps : List (Value × Value)},
    keepEntries es = .ok ps → (∀ p ∈ ps, checkKeys p.1 = .ok () ∧ checkKeys p.2 = .ok ()) →
    List.Forall₂ HoldsEntry es ps
  | [], ps, h, _ => by
      rw [keepEntries] at h
      obtain rfl := Except.ok.inj h
      exact .nil
  | (k, n) :: rest, ps, h, checked => by
      rw [keepEntries] at h
      obtain ⟨key, hkey, h⟩ := bind_eq_ok.mp h
      obtain ⟨value, hvalue, h⟩ := bind_eq_ok.mp h
      obtain ⟨qs, hqs, h⟩ := bind_eq_ok.mp h
      obtain rfl := Except.ok.inj h
      obtain ⟨⟨hcheck, hcheck'⟩, hchecks⟩ := List.forall_mem_cons.mp checked
      exact .cons (.entry (holds_of_keep hkey hcheck) (holds_of_keep hvalue hcheck'))
        (holds_of_keepEntries hqs hchecks)

end

mutual

/-- Where a value is held nothing has been cut off. -/
theorem whole_of_holds : ∀ {n : Node} {v : Value}, Holds n v → n.Whole
  | .scalar tag text plain, _, _ => .scalar tag text plain
  | .sequence _ _, _, .sequence _ all => .sequence (whole_of_holdsItems all)
  | .mapping _ _, _, .mapping _ all _ =>
    .mapping (fun e he => (whole_of_holdsEntries all e he).1)
      fun e he => (whole_of_holdsEntries all e he).2
  | .absent, _, _ => .absent

theorem whole_of_holdsItems : ∀ {ns : List Node} {vs : List Value}, List.Forall₂ Holds ns vs →
    ∀ n ∈ ns, n.Whole
  | [], _, _ => List.forall_mem_nil _
  | _ :: _, _, .cons hn hns =>
    List.forall_mem_cons.mpr ⟨whole_of_holds hn, whole_of_holdsItems hns⟩

theorem whole_of_holdsEntries : ∀ {es : List (Node × Node)} {ps : List (Value × Value)},
    List.Forall₂ HoldsEntry es ps → ∀ e ∈ es, e.1.Whole ∧ e.2.Whole
  | [], _, _ => List.forall_mem_nil _
  | (_, _) :: _, _, .cons (.entry hk hn) hrest =>
    List.forall_mem_cons.mpr
      ⟨⟨whole_of_holds hk, whole_of_holds hn⟩, whole_of_holdsEntries hrest⟩

end

/-! ## Records -/

/-- The entries of a mapping whose keys are scalars, by the text of the key. -/
def named (entries : List (Node × Node)) : List (String × Node) :=
  entries.filterMap fun e =>
    match e.1 with
    | .scalar _ text _ => some (text, e.2)
    | _ => none

/-- Where only a scalar will do, its text is read as it is written. -/
theorem eq_scalar_of_ok {expected text : String} {n : Node}
    (h : (match n with
      | .scalar _ text _ => .ok text
      | n => .error (unexpected expected n) : Except Fault String) = .ok text) :
    ∃ tag plain, n = .scalar tag text plain := by
  cases n with
  | scalar tag text' plain =>
      obtain rfl := Except.ok.inj h
      exact ⟨tag, plain, rfl⟩
  | _ => cases h

/-- The entries of a record: every key is a scalar, the field is read where it is written, which is
at most once, and what is written under any other key is kept in its order. -/
theorem readEntries_eq_ok {α : Type} {field : String} {read : Node → Except Fault α}
    {seen a? : Option α} {entries : List (Node × Node)} {kept : List (String × Value)}
    (h : readEntries field read seen entries = .ok (a?, kept)) :
    (∀ e ∈ entries, ∃ tag text plain, e.1 = .scalar tag text plain)
      ∧ (∀ a, a? = some a →
          seen = some a ∧ under field (named entries) = []
            ∨ seen = none ∧ ∃ n, under field (named entries) = [n] ∧ read n = .ok a)
      ∧ under field kept = []
      ∧ ∀ key, key ≠ field →
          List.Forall₂ (fun n v => keep n = .ok v) (under key (named entries)) (under key kept) := by
  induction entries generalizing seen a? kept with
  | nil =>
      obtain ⟨rfl, rfl⟩ := Prod.mk.inj (Except.ok.inj h)
      exact ⟨List.forall_mem_nil _, fun a ha => .inl ⟨ha, rfl⟩, rfl, fun _ _ => .nil⟩
  | cons e rest ih =>
      obtain ⟨k, n⟩ := e
      rw [readEntries] at h
      obtain ⟨name, hname, hstep⟩ := bind_eq_ok.mp h
      obtain ⟨tag, plain, rfl⟩ := eq_scalar_of_ok hname
      have hkey : ∃ tag' text plain', Node.scalar tag name plain = .scalar tag' text plain' :=
        ⟨tag, name, plain, rfl⟩
      have hnamed : named ((.scalar tag name plain, n) :: rest) = (name, n) :: named rest := rfl
      rw [hnamed]
      by_cases hfield : name = field
      · subst hfield
        rw [if_pos rfl] at hstep
        cases hseen : seen with
        | some b => simp [hseen] at hstep
        | none =>
            rw [hseen, if_neg (by simp)] at hstep
            obtain ⟨b, hread, hrest⟩ := bind_eq_ok.mp hstep
            obtain ⟨hkeys, hfound, hbeside, hkept⟩ := ih hrest
            refine ⟨List.forall_mem_cons.mpr ⟨hkey, hkeys⟩, ?_, hbeside, ?_⟩
            · -- The field has been seen now, so it stands nowhere in the rest.
              intro a ha
              rw [under_cons_self]
              rcases hfound a ha with ⟨hb, hnone⟩ | ⟨hb, -⟩
              · obtain rfl := Option.some.inj hb
                exact .inr ⟨rfl, n, by rw [hnone], hread⟩
              · cases hb
            · intro key hne
              rw [under_cons_ne (Ne.symm hne)]
              exact hkept key hne
      · rw [if_neg hfield] at hstep
        obtain ⟨v, hv, hstep⟩ := bind_eq_ok.mp hstep
        obtain ⟨⟨b?, kept'⟩, hrest, hpair⟩ := bind_eq_ok.mp hstep
        obtain ⟨rfl, rfl⟩ := Prod.mk.inj (Except.ok.inj hpair)
        obtain ⟨hkeys, hfound, hbeside, hkept⟩ := ih hrest
        rw [under_cons_ne hfield, under_cons_ne hfield]
        refine ⟨List.forall_mem_cons.mpr ⟨hkey, hkeys⟩, hfound, hbeside, ?_⟩
        intro key hne
        by_cases hthis : name = key
        · subst hthis
          rw [under_cons_self, under_cons_self]
          exact .cons hv (hkept name hne)
        · rw [under_cons_ne hthis, under_cons_ne hthis]
          exact hkept key hne

theorem collect_eq_ok {es es' : Entries Value} {kept : List (String × Value)}
    (h : collect es kept = .ok es') :
    kept.foldl (fun es p => es.insert p.1 p.2) es = es'
      ∧ ∀ key, ∀ v ∈ under key kept, checkKeys v = .ok () := by
  induction kept generalizing es with
  | nil =>
      obtain rfl := Except.ok.inj h
      exact ⟨rfl, fun _ => List.forall_mem_nil _⟩
  | cons p rest ih =>
      obtain ⟨k, v⟩ := p
      rw [collect] at h
      obtain ⟨⟨⟩, hchecked, h⟩ := bind_eq_ok.mp h
      obtain ⟨hfold, hrest⟩ := ih h
      refine ⟨hfold, ?_⟩
      intro key
      by_cases hkey : k = key
      · subst hkey
        rw [under_cons_self]
        exact List.forall_mem_cons.mpr ⟨hchecked, hrest k⟩
      · rw [under_cons_ne hkey]
        exact hrest key

/-- Every entry beside a field is kept with its whole value. -/
def Lossless (field : String) (entries : List (Node × Node)) (es : Entries Value) : Prop :=
  ∀ p ∈ named entries, p.1 ≠ field → ∃ v, Holds p.2 v ∧ (p.1, v) ∈ es

/-- What is kept of the entries of a mapping beside a field: under each key the last value that is
written, and nothing else. So nothing is lost as long as no key is written twice. -/
structure KeptBeside (field : String) (entries : List (Node × Node)) (es : Entries Value) :
    Prop where
  scalars : ∀ e ∈ entries, ∃ tag text plain, e.1 = .scalar tag text plain
  ascending : es.Ascending
  beside : ∀ p ∈ es, p.1 ≠ field
  last : ∀ key, key ≠ field →
    ∃ vs, List.Forall₂ Holds (under key (named entries)) vs ∧
      ∀ v, (key, v) ∈ es ↔ vs.getLast? = some v
  lossless : ((named entries).map Prod.fst).Nodup → Lossless field entries es

/-- A mapping is whole where its field is: the other values are held. -/
theorem KeptBeside.whole {field : String} {tag : Yaml.Tag} {entries : List (Node × Node)}
    {es : Entries Value} {x : Node} (kept : KeptBeside field entries es)
    (found : under field (named entries) = [x]) (whole : x.Whole) :
    (Node.mapping tag entries).Whole := by
  refine .mapping ?_ ?_
  · intro e he
    obtain ⟨keyTag, text, plain, hkey⟩ := kept.scalars e he
    rw [hkey]
    exact .scalar keyTag text plain
  · -- An entry is the one of the field or has its value among those under its key.
    rintro ⟨k, n⟩ he
    obtain ⟨keyTag, text, plain, rfl⟩ := kept.scalars _ he
    have hn : n ∈ under text (named entries) :=
      mem_under.mpr (List.mem_filterMap.mpr ⟨_, he, rfl⟩)
    by_cases hfield : text = field
    · rw [hfield, found] at hn
      rw [List.mem_singleton.mp hn]
      exact whole
    · obtain ⟨vs, hvs, -⟩ := kept.last text hfield
      exact whole_of_holdsItems hvs n hn

theorem holds_of_kept {ns : List Node} {vs : List Value}
    (kept : List.Forall₂ (fun n v => keep n = .ok v) ns vs)
    (checked : ∀ v ∈ vs, checkKeys v = .ok ()) : List.Forall₂ Holds ns vs := by
  induction kept with
  | nil => exact .nil
  | cons hkeep _ ih =>
      obtain ⟨hcheck, hchecks⟩ := List.forall_mem_cons.mp checked
      exact .cons (holds_of_keep hkeep hcheck) (ih hchecks)

theorem keptBeside_of_collect {field : String} {entries : List (Node × Node)}
    {kept : List (String × Value)} {es : Entries Value}
    (scalars : ∀ e ∈ entries, ∃ tag text plain, e.1 = .scalar tag text plain)
    (beside : under field kept = [])
    (all : ∀ key, key ≠ field →
      List.Forall₂ (fun n v => keep n = .ok v) (under key (named entries)) (under key kept))
    (collected : collect [] kept = .ok es) : KeptBeside field entries es := by
  obtain ⟨rfl, hchecked⟩ := collect_eq_ok collected
  obtain ⟨hascending, hmem⟩ := Entries.mem_ofList kept
  have hholds : ∀ key, key ≠ field →
      List.Forall₂ Holds (under key (named entries)) (under key kept) :=
    fun key hne => holds_of_kept (all key hne) (hchecked key)
  refine ⟨scalars, hascending, ?_, fun key hne => ⟨_, hholds key hne, hmem key⟩, ?_⟩
  · rintro ⟨key, v⟩ hp rfl
    have hlast := (hmem key v).mp hp
    rw [beside] at hlast
    cases hlast
  · rintro once ⟨key, n⟩ hp hne
    have hvalues := hholds key hne
    rw [under_of_mem once hp] at hvalues
    obtain ⟨v, vs, hv, hvs, heq⟩ := List.forall₂_cons_left_iff.mp hvalues
    obtain rfl := List.forall₂_nil_left_iff.mp hvs
    exact ⟨v, hv, (hmem key v).mpr (by rw [heq]; rfl)⟩

/-- A record that is read is a mapping with one field that is read and the rest kept. -/
theorem readRecord_eq_ok {α : Type} {field expected : String} {read : Node → Except Fault α}
    {n : Node} {a : α} {es : Entries Value}
    (h : readRecord field expected read n = .ok (a, es)) :
    ∃ tag entries x, n = .mapping tag entries ∧ under field (named entries) = [x]
      ∧ read x = .ok a ∧ KeptBeside field entries es := by
  cases n with
  | scalar tag text plain =>
      unfold readRecord at h
      dsimp only at h
      split at h
      · cases h
      · cases h
  | mapping tag entries =>
      obtain ⟨⟨a?, kept⟩, hentries, h⟩ := bind_eq_ok.mp h
      cases a? with
      | none => cases h
      | some b =>
          obtain ⟨es', hcollect, hpair⟩ := bind_eq_ok.mp h
          obtain ⟨rfl, rfl⟩ := Prod.mk.inj (Except.ok.inj hpair)
          obtain ⟨hscalars, hfound, hbeside, hkept⟩ := readEntries_eq_ok hentries
          rcases hfound b rfl with ⟨hseen, -⟩ | ⟨-, x, hx, hread⟩
          · cases hseen
          · exact ⟨tag, entries, x, rfl, hx, hread,
              keptBeside_of_collect hscalars hbeside hkept hcollect⟩
  | _ => cases h

/-! ## Reports -/

/-- A channel of a report: the name in its one entry `name`, the others kept. -/
inductive HoldsChannel : Node → Channel → Prop
  | mapping {tag nameTag : Yaml.Tag} {entries : List (Node × Node)} {c : Channel} {plain : Bool}
      (name : under "name" (named entries) = [.scalar nameTag c.name plain])
      (rest : KeptBeside "name" entries c.fields) : HoldsChannel (.mapping tag entries) c

/-- The channels of a report: one for each item, in their order. Where nothing is written there are
none. -/
inductive HoldsChannels : Node → List Channel → Prop
  | sequence {tag : Yaml.Tag} {items : List Node} {channels : List Channel}
      (all : List.Forall₂ HoldsChannel items channels) :
      HoldsChannels (.sequence tag items) channels
  | unwritten {tag : Yaml.Tag} : HoldsChannels (.scalar tag "" true) []
  | absent : HoldsChannels .absent []

theorem HoldsChannel.whole {n : Node} {c : Channel} (h : HoldsChannel n c) : n.Whole := by
  cases h with
  | mapping name rest => exact rest.whole name (.scalar _ _ _)

theorem HoldsChannels.whole {n : Node} {cs : List Channel} (h : HoldsChannels n cs) :
    n.Whole := by
  cases h with
  | sequence all =>
      refine .sequence ?_
      induction all with
      | nil => exact List.forall_mem_nil _
      | cons hc _ ih => exact List.forall_mem_cons.mpr ⟨hc.whole, ih⟩
  | unwritten => exact .scalar _ _ _
  | absent => exact .absent

theorem readChannel_eq_ok {n : Node} {c : Channel} (h : readChannel n = .ok c) :
    HoldsChannel n c := by
  obtain ⟨⟨name, fields⟩, hrecord, hc⟩ := bind_eq_ok.mp h
  obtain rfl := Except.ok.inj hc
  obtain ⟨tag, entries, x, rfl, hx, hname, hkept⟩ := readRecord_eq_ok hrecord
  obtain ⟨nameTag, plain, rfl⟩ := eq_scalar_of_ok hname
  exact .mapping hx hkept

theorem readChannels_eq_ok {n : Node} {cs : List Channel} (h : readChannels n = .ok cs) :
    HoldsChannels n cs := by
  cases n with
  | scalar tag text plain =>
      unfold readChannels at h
      dsimp only at h
      split at h
      · rename_i hblank
        obtain ⟨rfl, rfl⟩ := hblank
        obtain rfl := Except.ok.inj h
        exact .unwritten
      · cases h
  | sequence tag items =>
      exact .sequence ((mapM_eq_ok h).imp fun _ _ => readChannel_eq_ok)
  | absent =>
      obtain rfl := Except.ok.inj h
      exact .absent
  | _ => cases h

/-- A document that is read has no fault, and nothing comes after it. -/
theorem ofDocument_eq_ok {d : Document} {r : Report} (h : ofDocument d = .ok r) :
    ofNode d.root = .ok r ∧ d = ⟨d.root, none, false⟩ := by
  obtain ⟨root, fault?, more⟩ := d
  obtain ⟨report, hnode, h⟩ := bind_eq_ok.mp h
  cases fault? with
  | some cause => cases h
  | none =>
      cases more with
      | true => cases h
      | false =>
          obtain rfl := Except.ok.inj h
          exact ⟨hnode, rfl⟩

/-- A tree that is read as a report. -/
theorem ofNode_eq_ok {n : Node} {r : Report} (h : ofNode n = .ok r) :
    ∃ tag entries data, n = .mapping tag entries ∧ under "data" (named entries) = [data]
      ∧ HoldsChannels data r.channels ∧ KeptBeside "data" entries r.other := by
  obtain ⟨⟨channels, other⟩, hrecord, hr⟩ := bind_eq_ok.mp h
  obtain rfl := Except.ok.inj hr
  obtain ⟨tag, entries, data, hn, hdata, hchannels, hkept⟩ := readRecord_eq_ok hrecord
  exact ⟨tag, entries, data, hn, hdata, readChannels_eq_ok hchannels, hkept⟩

/-- A text that is read as a report is one document, whose tree is. -/
theorem read_eq_ok {text : String} {r : Report} (h : read text = .ok r) :
    ∃ root, Document.ofText text.toList = ⟨root, none, false⟩ ∧ ofNode root = .ok r := by
  unfold read at h
  split at h
  · cases h
  · obtain ⟨hnode, hend⟩ := ofDocument_eq_ok h
    exact ⟨_, hend, hnode⟩

/-- **What a report keeps.** A text that is read as a report is one faultless document, and what its
events spell is a mapping with one entry `data`. The channels are the items of this entry, in their
order. Of the other entries in the mapping, and of those beside the name in each channel, the last
one with each key is kept with its whole value, and nothing else is. -/
theorem read_keeps {text : String} {r : Report} (h : read text = .ok r) :
    ∃ tag entries data, Document.ofText text.toList = ⟨.mapping tag entries, none, false⟩
      ∧ Document.Spelled text.toList (.mapping tag entries)
      ∧ under "data" (named entries) = [data] ∧ HoldsChannels data r.channels
      ∧ KeptBeside "data" entries r.other := by
  obtain ⟨root, hdocument, hnode⟩ := read_eq_ok h
  obtain ⟨tag, entries, data, rfl, hdata, hchannels, hkept⟩ := ofNode_eq_ok hnode
  have hwhole : (Node.mapping tag entries).Whole := hkept.whole hdata hchannels.whole
  have hspelled := Document.spelled_of_whole hdocument (by simp) hwhole
  exact ⟨tag, entries, data, hdocument, hspelled, hdata, hchannels, hkept⟩

/-- A dump with two channels of one name. -/
def sample : String := "data:\n- name: a\n  avg: 12.5\n- name: a\ncollection: c\n"

theorem read_keeps_sample : ∃ r tag entries data, read sample = .ok r
    ∧ Document.ofText sample.toList = ⟨.mapping tag entries, none, false⟩
    ∧ Document.Spelled sample.toList (.mapping tag entries)
    ∧ under "data" (named entries) = [data] ∧ HoldsChannels data r.channels
    ∧ KeptBeside "data" entries r.other := by
  have hok : (read sample).toBool = true := by decide +kernel
  cases hread : read sample with
  | error cause =>
      rw [hread] at hok
      cases hok
  | ok r =>
      obtain ⟨tag, entries, data, hkeeps⟩ := read_keeps hread
      exact ⟨r, tag, entries, data, rfl, hkeeps⟩

/-! ## Keys that are written twice -/

/-- A dump with one key twice. -/
def twice : String := "data: []\na: 1\na: 2\n"

/-- The text of a scalar without a tag or quotes. -/
def bare? : Node → Option String
  | .scalar none text true => some text
  | _ => none

theorem eq_scalar_of_bare {n : Node} {text : String} (h : bare? n = some text) :
    n = .scalar none text true := by
  unfold bare? at h
  split at h
  · obtain rfl := Option.some.inj h
    rfl
  · cases h

/-- The texts under a key, as far as they are bare. -/
def bareUnder (key : String) : Node → List (Option String)
  | .mapping _ entries => (under key (named entries)).map bare?
  | _ => []

theorem Holds.int {text : String} {n : Int} {v : Value} (h : Holds (.scalar none text true) v)
    (number : meaning none text true = .ok (.int n)) : v = .int n := by
  cases h with
  | scalar _ read means =>
      rw [number] at read
      obtain rfl := Except.ok.inj read
      cases means with
      | int => rfl

/-- Where a key is written twice the first value is lost. -/
theorem read_twice : ∃ r tag entries, read twice = .ok r
    ∧ Document.ofText twice.toList = ⟨.mapping tag entries, none, false⟩
    ∧ ¬ Lossless "data" entries r.other := by
  have hok : (read twice).toBool = true := by decide +kernel
  have hbare : bareUnder "a" (Document.ofText twice.toList).root = [some "1", some "2"] := by
    decide +kernel
  cases hread : read twice with
  | error cause =>
      rw [hread] at hok
      cases hok
  | ok r =>
      obtain ⟨root, hdocument, hnode⟩ := read_eq_ok hread
      obtain ⟨tag, entries, -, rfl, -, -, hkept⟩ := ofNode_eq_ok hnode
      refine ⟨r, tag, entries, rfl, hdocument, fun lossless => ?_⟩
      rw [hdocument] at hbare
      obtain ⟨first, ns, hunder, hfirst, hns⟩ := List.map_eq_cons_iff.mp hbare
      obtain ⟨second, rfl, hsecond⟩ := List.map_eq_singleton_iff.mp hns
      obtain rfl := eq_scalar_of_bare hfirst
      obtain rfl := eq_scalar_of_bare hsecond
      have hmem : ("a", Node.scalar none "1" true) ∈ named entries :=
        mem_under.mp (hunder ▸ List.mem_cons_self)
      -- The first value would be kept as 1, while the only value under the key is the last one, 2.
      obtain ⟨v, hv, hkeptFirst⟩ := lossless _ hmem (by decide)
      obtain ⟨vs, hvs, hlast⟩ := hkept.last "a" (by decide)
      rw [hunder] at hvs
      obtain _ | ⟨-, _ | ⟨hw, _ | _⟩⟩ := hvs
      have hone : v = .int 1 := hv.int rfl
      have htwo := Option.some.inj ((hlast v).mp hkeptFirst)
      have hsame : Value.int 2 = .int 1 := (hw.int rfl).symm.trans (htwo.trans hone)
      exact absurd (Value.int.inj hsame) (by decide)

end PowerBench.Report
