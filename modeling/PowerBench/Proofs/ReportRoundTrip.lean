import PowerBench.Proofs.ReportKept
import PowerBench.Proofs.YamlPage
import PowerBench.Report.Render

set_option autoImplicit false

/-! # Reports read back

A report that is written as YAML is one mapping, in which `data` stands beside the other entries, and
so is each of its channels, with `name` beside the other fields. Reading takes the two apart again.
A report that has been read keeps nothing under the reserved keys and holds no tags (`readable_read`),
and a report of this kind is read back as itself, as far as the tree is that was written
(`ofNode_of_holds`).
-/

namespace PowerBench

/-! ## Values without tags -/

/-- A value tree without tags, in which no mapping has a key twice. -/
inductive Yaml.Value.TagFree : Yaml.Value → Prop
  | null : TagFree .null
  | bool (b : Bool) : TagFree (.bool b)
  | int (n : Int) : TagFree (.int n)
  | float (x : Binary64) : TagFree (.float x)
  | string (s : String) : TagFree (.string s)
  | sequence {items : List Yaml.Value} (all : ∀ v ∈ items, TagFree v) : TagFree (.sequence items)
  | mapping {entries : List (Yaml.Value × Yaml.Value)} (keys : ∀ e ∈ entries, TagFree e.1)
      (values : ∀ e ∈ entries, TagFree e.2)
      (once : entries.Pairwise fun p q => p.1.same q.1 = false) : TagFree (.mapping entries)

namespace Report

open Yaml (Node Value Document)

mutual

theorem tagFree_of_holds : ∀ {n : Node} {v : Value}, Holds n v → v.TagFree
  | .scalar _ _ _, _, .scalar _ _ means => by
      cases means with
      | null => exact .null
      | bool b => exact .bool b
      | int n => exact .int n
      | float x => exact .float x
      | string s => exact .string s
  | .sequence _ _, _, .sequence _ all => .sequence (tagFree_of_holdsItems all)
  | .mapping _ _, _, .mapping _ all once =>
    .mapping (fun e he => (tagFree_of_holdsEntries all e he).1)
      (fun e he => (tagFree_of_holdsEntries all e he).2) once
  | .absent, _, .absent => .null

theorem tagFree_of_holdsItems : ∀ {ns : List Node} {vs : List Value}, List.Forall₂ Holds ns vs →
    ∀ v ∈ vs, v.TagFree
  | [], _, .nil => List.forall_mem_nil _
  | _ :: _, _, .cons hn hns =>
    List.forall_mem_cons.mpr ⟨tagFree_of_holds hn, tagFree_of_holdsItems hns⟩

theorem tagFree_of_holdsEntries : ∀ {es : List (Node × Node)} {ps : List (Value × Value)},
    List.Forall₂ HoldsEntry es ps → ∀ p ∈ ps, p.1.TagFree ∧ p.2.TagFree
  | [], _, .nil => List.forall_mem_nil _
  | (_, _) :: _, _, .cons (.entry hk hn) hrest =>
    List.forall_mem_cons.mpr
      ⟨⟨tagFree_of_holds hk, tagFree_of_holds hn⟩, tagFree_of_holdsEntries hrest⟩

end

mutual

/-- A value without tags passes the check for repeated keys. -/
theorem checkKeys_of_tagFree : ∀ {v : Value}, v.TagFree → checkKeys v = .ok ()
  | .null, _ => by simp [checkKeys]
  | .bool _, _ => by simp [checkKeys]
  | .int _, _ => by simp [checkKeys]
  | .float _, _ => by simp [checkKeys]
  | .string _, _ => by simp [checkKeys]
  | .sequence _, .sequence all => by
      rw [checkKeys]
      exact checkItems_of_tagFree all
  | .mapping _, .mapping keys values once => by
      rw [checkKeys]
      exact checkEntries_of_tagFree keys values once fun _ => by simp

theorem checkItems_of_tagFree : ∀ {vs : List Value}, (∀ v ∈ vs, v.TagFree) → checkItems vs = .ok ()
  | [], _ => by rw [checkItems]
  | _ :: _, all => by
      obtain ⟨hv, hvs⟩ := List.forall_mem_cons.mp all
      rw [checkItems, checkKeys_of_tagFree hv]
      exact checkItems_of_tagFree hvs

theorem checkEntries_of_tagFree : ∀ {ps : List (Value × Value)} {earlier : List Value},
    (∀ p ∈ ps, p.1.TagFree) → (∀ p ∈ ps, p.2.TagFree) →
    (ps.Pairwise fun p q => p.1.same q.1 = false) →
    (∀ k ∈ earlier, ∀ p ∈ ps, k.same p.1 = false) → checkEntries earlier ps = .ok ()
  | [], _, _, _, _, _ => by rw [checkEntries]
  | (key, value) :: rest, earlier, keys, values, once, apart => by
      obtain ⟨hkey, hkeys⟩ := List.forall_mem_cons.mp keys
      obtain ⟨hvalue, hvalues⟩ := List.forall_mem_cons.mp values
      obtain ⟨hnew, hrest⟩ := List.pairwise_cons.mp once
      have hfind : earlier.find? (·.same key) = none := by
        refine List.find?_eq_none.mpr fun k hk => ?_
        simpa using (List.forall_mem_cons.mp (apart k hk)).1
      have hlater : ∀ k ∈ earlier ++ [key], ∀ p ∈ rest, k.same p.1 = false := by
        intro k hk
        rcases List.mem_append.mp hk with hk | hk
        · exact (List.forall_mem_cons.mp (apart k hk)).2
        · rw [List.mem_singleton.mp hk]
          exact hnew
      rw [checkEntries, checkKeys_of_tagFree hkey]
      simp only [bind, Except.bind, hfind, checkKeys_of_tagFree hvalue]
      exact checkEntries_of_tagFree hkeys hvalues hrest hlater

end

/-! ## Readable reports -/

/-- Entries that stand beside a reserved key: ascending, none under that key, without tags. -/
structure Beside (field : String) (es : Entries Value) : Prop where
  ascending : es.Ascending
  reserved : ∀ e ∈ es, e.1 ≠ field
  tagFree : ∀ e ∈ es, e.2.TagFree

/-- A report without tags whose channels keep nothing under `name` and which keeps nothing under
`data`. -/
structure Readable (r : Report) : Prop where
  channels : ∀ c ∈ r.channels, Beside "name" c.fields
  other : Beside "data" r.other

theorem KeptBeside.beside_field {field : String} {entries : List (Node × Node)} {es : Entries Value}
    (kept : KeptBeside field entries es) : Beside field es := by
  refine ⟨kept.ascending, kept.beside, ?_⟩
  rintro ⟨key, v⟩ he
  obtain ⟨vs, hvs, hlast⟩ := kept.last key (kept.beside _ he)
  have hmem : v ∈ vs := List.mem_of_getLast? ((hlast v).mp he)
  exact tagFree_of_holdsItems hvs v hmem

theorem HoldsChannels.readable {n : Node} {cs : List Channel} (h : HoldsChannels n cs) :
    ∀ c ∈ cs, Beside "name" c.fields := by
  cases h with
  | sequence all =>
      induction all with
      | nil => exact List.forall_mem_nil _
      | cons hc _ ih =>
          obtain ⟨-, rest⟩ := hc
          exact List.forall_mem_cons.mpr ⟨rest.beside_field, ih⟩
  | unwritten => exact List.forall_mem_nil _
  | absent => exact List.forall_mem_nil _

theorem readable_read {text : String} {r : Report} (h : read text = .ok r) : r.Readable := by
  obtain ⟨root, -, hnode⟩ := read_eq_ok h
  obtain ⟨_, _, _, -, -, hchannels, hkept⟩ := ofNode_eq_ok hnode
  exact ⟨hchannels.readable, hkept.beside_field⟩

/-! ## Nodes of values -/

theorem classify_eq_string {text s : String} (h : Yaml.Plain.classify text = .string s) :
    s = text := by
  unfold Yaml.Plain.classify at h
  dsimp only at h
  split at h
  · cases h
  · split at h
    · cases h
    · split at h
      · rename_i form _
        cases form <;> cases h
      · split at h
        · exact (Yaml.Plain.Meaning.string.inj h).symm
        · split at h
          · cases h
          · exact (Yaml.Plain.Meaning.string.inj h).symm

theorem meaning_eq_string {tag : Yaml.Tag} {text s : String} {plain : Bool}
    (h : meaning tag text plain = .ok (.string s)) : s = text := by
  unfold meaning at h
  split at h
  · split at h <;> cases h
  · split at h
    · rename_i form _
      cases form <;> cases h
    · cases h
  · split at h <;> cases h
  · split at h <;> cases h
  · split at h
    · exact classify_eq_string (Except.ok.inj h)
    · cases h
      rfl

/-- Only a scalar holds a text, and the text is its own. -/
theorem Holds.eq_scalar {n : Node} {s : String} (h : Holds n (.string s)) :
    ∃ tag plain, n = .scalar tag s plain := by
  cases h with
  | @scalar tag text plain _ _ _ read means =>
      cases means with
      | string => exact ⟨tag, plain, by rw [meaning_eq_string read]⟩

mutual

theorem keep_of_holds : ∀ {n : Node} {v : Value}, Holds n v → keep n = .ok v
  | .scalar _ _ _, _, .scalar common read means => by
      rw [keep, keepScalar, if_neg (by simp [common]), read]
      cases means <;> rfl
  | .sequence _ _, _, .sequence common all => by
      rw [keep, if_neg (by simp [common]), keepItems_of_holds all]
      rfl
  | .mapping _ _, _, .mapping common all _ => by
      rw [keep, if_neg (by simp [common]), keepEntries_of_holds all]
      rfl
  | .absent, _, .absent => by rw [keep]

theorem keepItems_of_holds : ∀ {ns : List Node} {vs : List Value}, List.Forall₂ Holds ns vs →
    keepItems ns = .ok vs
  | [], _, .nil => by rw [keepItems]
  | _ :: _, _, .cons hn hns => by
      rw [keepItems, keep_of_holds hn, keepItems_of_holds hns]
      rfl

theorem keepEntries_of_holds : ∀ {es : List (Node × Node)} {ps : List (Value × Value)},
    List.Forall₂ HoldsEntry es ps → keepEntries es = .ok ps
  | [], _, .nil => by rw [keepEntries]
  | (_, _) :: _, _, .cons (.entry hk hn) hrest => by
      rw [keepEntries, keep_of_holds hk, keep_of_holds hn, keepEntries_of_holds hrest]
      rfl

end

/-! ## Taking a record apart -/

section

variable {α : Type} {field expected : String} {read : Node → Except Fault α}

/-- Entries under other keys are kept as they are written. -/
theorem readEntries_of_holds {seen : Option α} {entries : List (Node × Node)} {es : Entries Value}
    (all : List.Forall₂ HoldsEntry entries (yamlEntries es)) (apart : ∀ e ∈ es, e.1 ≠ field) :
    readEntries field read seen entries = .ok (seen, es) := by
  induction es generalizing entries with
  | nil =>
      obtain rfl := List.forall₂_nil_right_iff.mp all
      rfl
  | cons e rest ih =>
      obtain ⟨key, v⟩ := e
      obtain ⟨_, entries', ⟨hkey, hvalue⟩, hrest, rfl⟩ := List.forall₂_cons_right_iff.mp all
      obtain ⟨hne, hapart⟩ := List.forall_mem_cons.mp apart
      obtain ⟨tag, plain, rfl⟩ := hkey.eq_scalar
      rw [readEntries, fieldName]
      simp only [bind, Except.bind, if_neg hne, keep_of_holds hvalue, ih hrest hapart]
      rfl

theorem collect_of_ascending {earlier es : Entries Value}
    (ascending : Entries.Ascending (earlier ++ es)) (tagFree : ∀ e ∈ es, e.2.TagFree) :
    collect earlier es = .ok (earlier ++ es) := by
  induction es generalizing earlier with
  | nil => rw [collect, List.append_nil]
  | cons e rest ih =>
      obtain ⟨key, v⟩ := e
      obtain ⟨hv, hrest⟩ := List.forall_mem_cons.mp tagFree
      have hlast : ∀ e ∈ earlier, e.1 < key := fun e he =>
        (List.pairwise_append.mp ascending).2.2 e he _ List.mem_cons_self
      have happend : earlier ++ (key, v) :: rest = (earlier ++ [(key, v)]) ++ rest := by simp
      rw [happend] at ascending ⊢
      rw [collect, checkKeys_of_tagFree hv]
      simp only [bind, Except.bind, Entries.insert_of_last hlast]
      exact ih ascending hrest

/-- A record that is a mapping of its field and other entries. -/
theorem readRecord_of_holds {n : Node} {value : Value} {a : α} {es : Entries Value}
    (holds : Holds n (.mapping ((.string field, value) :: yamlEntries es)))
    (reads : ∀ x, Holds x value → read x = .ok a) (beside : Beside field es) :
    readRecord field expected read n = .ok (a, es) := by
  cases holds with
  | scalar _ _ means => cases means
  | mapping _ all _ =>
      obtain ⟨_, entries, ⟨hkey, hvalue⟩, hrest, rfl⟩ := List.forall₂_cons_right_iff.mp all
      obtain ⟨tag, plain, rfl⟩ := hkey.eq_scalar
      rw [readRecord, readEntries, fieldName]
      simp only [bind, Except.bind, if_true, Option.isSome_none, Bool.false_eq_true, if_false,
        reads _ hvalue, readEntries_of_holds hrest beside.reserved]
      have hcollect : collect [] _ = .ok ([] ++ _) :=
        collect_of_ascending beside.ascending beside.tagFree
      rw [hcollect]
      rfl

end

/-! ## Reading back -/

theorem readChannel_of_holds {n : Node} {c : Channel} (holds : Holds n (channelValue c))
    (beside : Beside "name" c.fields) : readChannel n = .ok c := by
  have hname : ∀ x, Holds x (.string c.name) → readText x = .ok c.name := by
    intro x hx
    obtain ⟨tag, plain, rfl⟩ := hx.eq_scalar
    rfl
  rw [readChannel, readRecord_of_holds holds hname beside]
  rfl

theorem readChannels_of_holds {n : Node} {cs : List Channel}
    (holds : Holds n (.sequence (cs.map channelValue)))
    (beside : ∀ c ∈ cs, Beside "name" c.fields) : readChannels n = .ok cs := by
  cases holds with
  | scalar _ _ means => cases means
  | sequence _ all =>
      refine mapM_of_forall₂ ?_
      rw [List.forall₂_map_right_iff] at all
      induction all with
      | nil => exact .nil
      | cons hc _ ih =>
          obtain ⟨hfirst, hrest⟩ := List.forall_mem_cons.mp beside
          exact .cons (readChannel_of_holds hc hfirst) (ih hrest)

/-- A tree that holds what a report is written as is read as this report. -/
theorem ofNode_of_holds {root : Node} {r : Report} (holds : Holds root (.mapping r.toEntries))
    (readable : r.Readable) : ofNode root = .ok r := by
  have hchannels : ∀ x, Holds x (.sequence (r.channels.map channelValue)) →
      readChannels x = .ok r.channels :=
    fun x hx => readChannels_of_holds hx readable.channels
  rw [ofNode, readRecord_of_holds holds hchannels readable.other]
  rfl

/-- What is written for a report reads back as the tree that was written: one faultless document,
which holds it. -/
def Restored (r : Report) : Prop :=
  ∃ root, Document.ofText r.yaml.toList = ⟨root, none, false⟩
    ∧ Holds root (.mapping r.toEntries)

theorem not_allBlank_yaml (r : Report) : allBlank r.yaml = false := by
  have hbegins : "data".toList <+: r.yaml.toList :=
    Yaml.renderMapping_begins (by decide) (by decide) _ _
  obtain ⟨rest, hrest⟩ := hbegins
  unfold allBlank
  rw [← hrest]
  rfl

/-- A text whose document holds what a report is written as is read as this report. -/
theorem read_of_holds {text : String} {root : Node} {r : Report} (visible : allBlank text = false)
    (document : Document.ofText text.toList = ⟨root, none, false⟩)
    (holds : Holds root (.mapping r.toEntries)) (readable : r.Readable) : read text = .ok r := by
  rw [read, visible, document, ofDocument]
  simp only [Bool.false_eq_true, if_false, ofNode_of_holds holds readable, bind, Except.bind]

theorem read_of_restored {r : Report} (readable : r.Readable) (restored : r.Restored) :
    read r.yaml = .ok r := by
  obtain ⟨root, hdocument, hholds⟩ := restored
  exact read_of_holds (not_allBlank_yaml r) hdocument hholds readable

/-- **Reports read back.** A report that has been read keeps nothing under the names of its own
fields and has no tags. And every report of this kind, wherever it comes from, is read back from what
is written for it, as far as the tree that is written is restored. -/
theorem read_yaml :
    (∀ text r, read text = .ok r →
      (∀ c ∈ r.channels, ∀ e ∈ c.fields, e.1 ≠ "name" ∧ e.2.TagFree)
        ∧ (∀ e ∈ r.other, e.1 ≠ "data" ∧ e.2.TagFree)
        ∧ (r.Restored → read r.yaml = .ok r))
      ∧ ∀ r : Report, r.Readable → r.Restored → read r.yaml = .ok r := by
  refine ⟨?_, fun r readable restored => read_of_restored readable restored⟩
  intro text r hread
  have hreadable := readable_read hread
  refine ⟨?_, ?_, read_of_restored hreadable⟩
  · intro c hc e he
    have hbeside := hreadable.channels c hc
    exact ⟨hbeside.reserved e he, hbeside.tagFree e he⟩
  · intro e he
    exact ⟨hreadable.other.reserved e he, hreadable.other.tagFree e he⟩

/-- A dump with a fractional number and a mapping with keys that are no texts. -/
def mixed : String :=
  "data:\n- name: a\n  avg: 12.5\n  m:\n    1: null\n    ? - x\n    : y\nc: '1'\n"

/-- The document of `mixed`. -/
def mixedRoot : Node :=
  let plain (text : String) : Node := .scalar none text true
  .mapping none
    [(plain "data", .sequence none
      [.mapping none
        [(plain "name", plain "a"), (plain "avg", plain "12.5"),
          (plain "m", .mapping none
            [(plain "1", plain "null"), (.sequence none [plain "x"], plain "y")])]]),
      (plain "c", .scalar none "1" false)]

/-- What `mixed` holds. -/
def mixedReport : Report :=
  { channels :=
      [{ name := "a"
         fields :=
          [("avg", .float ⟨0x4029000000000000⟩),
            ("m", .mapping [(.int 1, .null), (.sequence [.string "x"], .string "y")])] }]
    other := [("c", .string "1")] }

theorem holds_mixed : Holds mixedRoot (.mapping mixedReport.toEntries) := by
  have hword : ∀ text : String, meaning none text true = .ok (.string text) →
      Holds (.scalar none text true) (.string text) := fun _ h => .scalar rfl h (.string _)
  have havg : Holds (.scalar none "12.5" true) (.float ⟨0x4029000000000000⟩) :=
    .scalar rfl (by decide +kernel) (.float _)
  have hone : Holds (.scalar none "1" true) (.int 1) := .scalar rfl (by decide +kernel) (.int _)
  have hlist : Holds (.sequence none [.scalar none "x" true]) (.sequence [.string "x"]) :=
    .sequence rfl (.cons (hword "x" (by decide +kernel)) .nil)
  have hmap : Holds (.mapping none [(.scalar none "1" true, .scalar none "null" true),
      (.sequence none [.scalar none "x" true], .scalar none "y" true)])
      (.mapping [(.int 1, .null), (.sequence [.string "x"], .string "y")]) :=
    .mapping rfl
      (.cons (.entry hone (.scalar rfl rfl .null))
        (.cons (.entry hlist (hword "y" (by decide +kernel))) .nil))
      (by decide)
  refine .mapping rfl (.cons (.entry (hword "data" (by decide +kernel)) ?_)
    (.cons (.entry (hword "c" (by decide +kernel)) (.scalar rfl rfl (.string _))) .nil)) (by decide)
  refine .sequence rfl (.cons (.mapping rfl ?_ (by decide)) .nil)
  exact .cons (.entry (hword "name" (by decide +kernel)) (hword "a" (by decide +kernel)))
    (.cons (.entry (hword "avg" (by decide +kernel)) havg)
      (.cons (.entry (hword "m" (by decide +kernel)) hmap) .nil))

theorem readable_mixed : mixedReport.Readable where
  channels := by
    refine List.forall_mem_singleton.mpr ⟨by unfold Entries.Ascending; decide, by decide, ?_⟩
    have hword : ∀ s : String, (Value.string s).TagFree := .string
    refine List.forall_mem_cons.mpr ⟨.float _, List.forall_mem_singleton.mpr (.mapping ?_ ?_ ?_)⟩
    · exact List.forall_mem_cons.mpr ⟨.int 1, List.forall_mem_singleton.mpr
        (.sequence (List.forall_mem_singleton.mpr (hword "x")))⟩
    · exact List.forall_mem_cons.mpr ⟨.null, List.forall_mem_singleton.mpr (hword "y")⟩
    · decide
  other := ⟨List.pairwise_singleton _ _, by decide, List.forall_mem_singleton.mpr (.string "1")⟩

set_option maxRecDepth 10000 in
theorem document_mixed : Document.ofText mixed.toList = ⟨mixedRoot, none, false⟩ := by rfl

theorem read_yaml_mixed : read mixed = .ok mixedReport
    ∧ mixedReport.Restored ∧ read mixedReport.yaml = .ok mixedReport := by
  have hread := read_of_holds (by rfl) document_mixed holds_mixed readable_mixed
  have hyaml : mixedReport.yaml = mixed := by decide +kernel
  have hrestored : mixedReport.Restored := ⟨mixedRoot, by rw [hyaml, document_mixed], holds_mixed⟩
  exact ⟨hread, hrestored, (read_yaml.1 mixed mixedReport hread).2.2 hrestored⟩

end Report

end PowerBench
