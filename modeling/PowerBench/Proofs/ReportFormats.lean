import PowerBench.Proofs.JsonRoundTrip
import PowerBench.Proofs.ReportRoundTrip

set_option autoImplicit false

/-! # One report in two formats

A report that is written as JSON is read back with its channels in their order and with the same keys
in the report and in each channel (`readJson_of_json`). A value comes back as JSON has it
(`Yaml.Value.inJson`): a number that is not finite is null, and a key that is no text is its text, so
that two keys of one mapping may come back as one text. On a report whose values have neither of the
two, and on no other, the two formats agree (`inJson_eq_self_of_json`).
-/

namespace PowerBench

open Yaml (Node Value Document)

/-! ## Values of both formats -/

mutual

def Json.toValue : Json → Value
  | .null => .null
  | .bool b => .bool b
  | .int n => .int n
  | .float x => .float x
  | .string s => .string s
  | .array items => .sequence (Json.toValues items)
  | .object entries => .mapping (Json.toPairs entries)

def Json.toValues : List Json → List Value
  | [] => []
  | v :: vs => v.toValue :: Json.toValues vs

def Json.toPairs : List (String × Json) → List (Value × Value)
  | [] => []
  | (k, v) :: es => (.string k, v.toValue) :: Json.toPairs es

end

/-- A key as JSON has it: its text, if it has one. -/
def Report.keyInJson (k : Value) : Value :=
  match Report.keyOfValue k with
  | .ok s => .string s
  | .error _ => k

mutual

/-- A value as JSON has it: numbers that are not finite are null, keys are texts, and a tag is the key of
its value. -/
def Yaml.Value.inJson : Value → Value
  | .null => .null
  | .bool b => .bool b
  | .int n => .int n
  | .float x => if x.isFinite then .float x else .null
  | .string s => .string s
  | .sequence items => .sequence (Yaml.Value.itemsInJson items)
  | .mapping entries => .mapping (Yaml.Value.entriesInJson entries)
  | .tagged tag v => .mapping [(.string tag, v.inJson)]

def Yaml.Value.itemsInJson : List Value → List Value
  | [] => []
  | v :: vs => v.inJson :: Yaml.Value.itemsInJson vs

def Yaml.Value.entriesInJson : List (Value × Value) → List (Value × Value)
  | [] => []
  | (k, v) :: es => (Report.keyInJson k, v.inJson) :: Yaml.Value.entriesInJson es

end

/-- A value that both formats can hold: its numbers are finite and its keys are texts. -/
inductive Yaml.Value.Common : Value → Prop
  | null : Common .null
  | bool (b : Bool) : Common (.bool b)
  | int (n : Int) : Common (.int n)
  | float {x : Binary64} (finite : x.isFinite = true) : Common (.float x)
  | string (s : String) : Common (.string s)
  | sequence {items : List Value} (all : ∀ v ∈ items, Common v) : Common (.sequence items)
  | mapping {entries : List (Value × Value)} (keys : ∀ e ∈ entries, ∃ s, e.1 = .string s)
      (values : ∀ e ∈ entries, Common e.2) : Common (.mapping entries)

namespace Report

/-! ## Values in JSON -/

theorem jsonOfItems_cons {v : Value} {vs : List Value} {js : List Json}
    (h : jsonOfItems (v :: vs) = .ok js) :
    ∃ j rest, jsonOfValue v = .ok j ∧ jsonOfItems vs = .ok rest ∧ js = j :: rest := by
  rw [jsonOfItems] at h
  obtain ⟨j, hj, h⟩ := bind_eq_ok.mp h
  obtain ⟨rest, hrest, h⟩ := bind_eq_ok.mp h
  exact ⟨j, rest, hj, hrest, (Except.ok.inj h).symm⟩

theorem jsonOfEntries_cons {k v : Value} {es : List (Value × Value)} {js : List (String × Json)}
    (h : jsonOfEntries ((k, v) :: es) = .ok js) :
    ∃ key j rest, keyOfValue k = .ok key ∧ jsonOfValue v = .ok j ∧ jsonOfEntries es = .ok rest
      ∧ js = (key, j) :: rest := by
  rw [jsonOfEntries] at h
  obtain ⟨key, hkey, h⟩ := bind_eq_ok.mp h
  obtain ⟨j, hj, h⟩ := bind_eq_ok.mp h
  obtain ⟨rest, hrest, h⟩ := bind_eq_ok.mp h
  exact ⟨key, j, rest, hkey, hj, hrest, (Except.ok.inj h).symm⟩

mutual

/-- What is shown of the JSON form of a value is the value as JSON has it. -/
theorem toValue_shown : ∀ {v : Value} {j : Json}, jsonOfValue v = .ok j → j.shown.toValue = v.inJson
  | .null, j, h => by
      obtain rfl := Except.ok.inj h
      rfl
  | .bool _, j, h => by
      obtain rfl := Except.ok.inj h
      rfl
  | .int _, j, h => by
      obtain rfl := Except.ok.inj h
      rfl
  | .float x, j, h => by
      obtain rfl := Except.ok.inj h
      rw [Json.shown, Value.inJson]
      split <;> rfl
  | .string _, j, h => by
      obtain rfl := Except.ok.inj h
      rfl
  | .sequence items, j, h => by
      rw [jsonOfValue] at h
      obtain ⟨js, hjs, rfl⟩ := map_eq_ok.mp h
      rw [Json.shown, Json.toValue, Value.inJson, toValues_shown hjs]
  | .mapping entries, j, h => by
      rw [jsonOfValue] at h
      obtain ⟨js, hjs, rfl⟩ := map_eq_ok.mp h
      rw [Json.shown, Json.toValue, Value.inJson, toPairs_shown hjs]
  | .tagged tag v, j, h => by
      rw [jsonOfValue] at h
      obtain ⟨j, hj, rfl⟩ := map_eq_ok.mp h
      rw [Json.shown, Json.toValue, Value.inJson, Json.shownEntries, Json.shownEntries, Json.toPairs,
        Json.toPairs, toValue_shown hj]

theorem toValues_shown : ∀ {vs : List Value} {js : List Json}, jsonOfItems vs = .ok js →
    Json.toValues (Json.shownItems js) = Value.itemsInJson vs
  | [], js, h => by
      obtain rfl := Except.ok.inj h
      rfl
  | v :: vs, js, h => by
      obtain ⟨j, rest, hj, hrest, rfl⟩ := jsonOfItems_cons h
      rw [Json.shownItems, Json.toValues, Value.itemsInJson, toValue_shown hj, toValues_shown hrest]

theorem toPairs_shown : ∀ {es : List (Value × Value)} {js : List (String × Json)},
    jsonOfEntries es = .ok js → Json.toPairs (Json.shownEntries js) = Value.entriesInJson es
  | [], js, h => by
      obtain rfl := Except.ok.inj h
      rfl
  | (k, v) :: es, js, h => by
      obtain ⟨key, j, rest, hkey, hj, hrest, rfl⟩ := jsonOfEntries_cons h
      rw [Json.shownEntries, Json.toPairs, Value.entriesInJson, keyInJson, hkey, toValue_shown hj,
        toPairs_shown hrest]

end

mutual

/-- A value that has a JSON form is that form exactly if both formats can hold it. -/
theorem inJson_eq_self : ∀ {v : Value} {j : Json}, jsonOfValue v = .ok j → (v.inJson = v ↔ v.Common)
  | .null, _, _ => iff_of_true rfl .null
  | .bool b, _, _ => iff_of_true rfl (.bool b)
  | .int n, _, _ => iff_of_true rfl (.int n)
  | .float x, _, _ => by
      rw [Value.inJson]
      split
      · rename_i finite
        exact iff_of_true rfl (.float finite)
      · rename_i infinite
        refine iff_of_false nofun ?_
        rintro ⟨⟩
        exact infinite ‹_›
  | .string s, _, _ => iff_of_true rfl (.string s)
  | .sequence items, j, h => by
      rw [jsonOfValue] at h
      obtain ⟨js, hjs, -⟩ := map_eq_ok.mp h
      rw [Value.inJson, Value.sequence.injEq, itemsInJson_eq_self hjs]
      exact ⟨.sequence, fun h => by cases h; assumption⟩
  | .mapping entries, j, h => by
      rw [jsonOfValue] at h
      obtain ⟨js, hjs, -⟩ := map_eq_ok.mp h
      rw [Value.inJson, Value.mapping.injEq, entriesInJson_eq_self hjs]
      exact ⟨fun h => .mapping (fun e he => (h e he).1) fun e he => (h e he).2,
        fun h => by cases h with | mapping keys values => exact fun e he => ⟨keys e he, values e he⟩⟩
  | .tagged tag v, _, _ => iff_of_false nofun nofun

theorem itemsInJson_eq_self : ∀ {vs : List Value} {js : List Json}, jsonOfItems vs = .ok js →
    (Value.itemsInJson vs = vs ↔ ∀ v ∈ vs, v.Common)
  | [], _, _ => iff_of_true rfl (List.forall_mem_nil _)
  | v :: vs, js, h => by
      obtain ⟨j, rest, hj, hrest, -⟩ := jsonOfItems_cons h
      rw [Value.itemsInJson, List.cons.injEq, inJson_eq_self hj, itemsInJson_eq_self hrest,
        List.forall_mem_cons]

theorem entriesInJson_eq_self : ∀ {es : List (Value × Value)} {js : List (String × Json)},
    jsonOfEntries es = .ok js →
    (Value.entriesInJson es = es ↔ ∀ e ∈ es, (∃ s, e.1 = .string s) ∧ e.2.Common)
  | [], _, _ => iff_of_true rfl (List.forall_mem_nil _)
  | (k, v) :: es, js, h => by
      obtain ⟨key, j, rest, hkey, hj, hrest, -⟩ := jsonOfEntries_cons h
      have htext : keyInJson k = k ↔ ∃ s, k = .string s := by
        rw [keyInJson, hkey]
        refine ⟨fun h => ⟨key, h.symm⟩, ?_⟩
        rintro ⟨s, rfl⟩
        rw [Except.ok.inj hkey]
      rw [Value.entriesInJson, List.cons.injEq, Prod.mk.injEq, htext, inJson_eq_self hj,
        entriesInJson_eq_self hrest, List.forall_mem_cons]

end

/-! ## Reports of JSON texts -/

/-- The value of the only entry under a key, and the other entries. -/
def takeField (field : String) (es : List (String × Json)) : Option (Json × List (String × Json)) :=
  match es.filter (·.1 == field) with
  | [(_, v)] => some (v, es.filter (·.1 != field))
  | _ => none

/-- The entries of a JSON object by key. -/
def entriesOfJson (es : List (String × Json)) : Entries Value :=
  Entries.ofList (es.map fun e => (e.1, e.2.toValue))

def channelOfJson : Json → Option Channel
  | .object es =>
    match takeField "name" es with
    | some (.string name, rest) => some { name, fields := entriesOfJson rest }
    | _ => none
  | _ => none

def ofJson : Json → Option Report
  | .object es =>
    match takeField "data" es with
    | some (.array items, rest) =>
      (items.mapM channelOfJson).map fun channels => { channels, other := entriesOfJson rest }
    | _ => none
  | _ => none

def readJson (text : String) : Option Report := (Json.read? text).bind ofJson

def fieldsInJson (es : Entries Value) : Entries Value := es.map fun e => (e.1, e.2.inJson)

def channelInJson (c : Channel) : Channel := { c with fields := fieldsInJson c.fields }

/-- A report with its values as JSON has them. -/
def inJson (r : Report) : Report :=
  { channels := r.channels.map channelInJson
    other := fieldsInJson r.other }

/-- A report whose values both formats can hold. -/
structure Common (r : Report) : Prop where
  channels : ∀ c ∈ r.channels, ∀ e ∈ c.fields, e.2.Common
  other : ∀ e ∈ r.other, e.2.Common

/-- The JSON form of a field in front of others. -/
theorem jsonOfRecord {field : String} {v : Value} {es : Entries Value} {js : List (String × Json)}
    (h : jsonOfEntries ((.string field, v) :: yamlEntries es) = .ok js) :
    ∃ j rest, jsonOfValue v = .ok j ∧ jsonOfEntries (yamlEntries es) = .ok rest
      ∧ js = (field, j) :: rest := by
  obtain ⟨key, j, rest, hkey, hj, hrest, rfl⟩ := jsonOfEntries_cons h
  obtain rfl := Except.ok.inj hkey
  exact ⟨j, rest, hj, hrest, rfl⟩

/-- Entries with text keys keep their keys in the JSON form. -/
theorem entries_shown {es : Entries Value} {js : List (String × Json)}
    (h : jsonOfEntries (yamlEntries es) = .ok js) :
    (Json.shownEntries js).map (fun e => (e.1, e.2.toValue)) = fieldsInJson es := by
  induction es generalizing js with
  | nil =>
      obtain rfl := Except.ok.inj h
      rfl
  | cons e es ih =>
      obtain ⟨k, v⟩ := e
      obtain ⟨j, rest, hj, hrest, rfl⟩ := jsonOfRecord h
      rw [Json.shownEntries, List.map_cons, ih hrest, toValue_shown hj]
      rfl

/-- The field of a record and its other entries are told apart. -/
theorem takeField_shown {field : String} {v : Json} {es : Entries Value} {js : List (String × Json)}
    (h : jsonOfEntries (yamlEntries es) = .ok js) (beside : Beside field es) :
    takeField field ((field, v) :: Json.shownEntries js) = some (v, Json.shownEntries js)
      ∧ entriesOfJson (Json.shownEntries js) = fieldsInJson es := by
  have hshown := entries_shown h
  have hkeys : ∀ e ∈ Json.shownEntries js, (e.1 == field) = false := by
    intro e he
    have hmem : (e.1, e.2.toValue) ∈ fieldsInJson es := by
      rw [← hshown]
      exact List.mem_map_of_mem he
    obtain ⟨e', he', hsame⟩ := List.mem_map.mp hmem
    rw [← (Prod.mk.inj hsame).1]
    exact beq_eq_false_iff_ne.mpr (beside.reserved e' he')
  -- The entries ascend already, so sorting them by key leaves them as they are.
  refine ⟨?_, ?_⟩
  · have hnone : (Json.shownEntries js).filter (·.1 == field) = [] :=
      List.filter_eq_nil_iff.mpr fun e he => by simp [hkeys e he]
    have hall : (Json.shownEntries js).filter (·.1 != field) = Json.shownEntries js :=
      List.filter_eq_self.mpr fun e he => by simp [bne, hkeys e he]
    rw [takeField, List.filter_cons_of_pos (by simp), hnone, List.filter_cons_of_neg (by simp), hall]
  · rw [entriesOfJson, hshown]
    exact Entries.ofList_of_ascending (List.pairwise_map.mpr beside.ascending)

theorem channelOfJson_shown {c : Channel} {j : Json} (h : jsonOfValue (channelValue c) = .ok j)
    (beside : Beside "name" c.fields) : channelOfJson j.shown = some (channelInJson c) := by
  rw [channelValue, jsonOfValue] at h
  obtain ⟨js, hjs, rfl⟩ := map_eq_ok.mp h
  obtain ⟨name, rest, hname, hrest, rfl⟩ := jsonOfRecord hjs
  obtain rfl := Except.ok.inj hname
  obtain ⟨htake, hentries⟩ := takeField_shown (v := .string c.name) hrest beside
  rw [Json.shown, Json.shownEntries, Json.shown, channelOfJson, htake]
  dsimp only
  rw [hentries]
  rfl

theorem channelsOfJson_shown {cs : List Channel} {js : List Json}
    (h : jsonOfItems (cs.map channelValue) = .ok js) (beside : ∀ c ∈ cs, Beside "name" c.fields) :
    (Json.shownItems js).mapM channelOfJson = some (cs.map channelInJson) := by
  induction cs generalizing js with
  | nil =>
      obtain rfl := Except.ok.inj h
      rfl
  | cons c cs ih =>
      obtain ⟨hfirst, hrest⟩ := List.forall_mem_cons.mp beside
      obtain ⟨j, js, hj, hjs, rfl⟩ := jsonOfItems_cons h
      rw [Json.shownItems, List.mapM_cons, channelOfJson_shown hj hfirst, ih hjs hrest]
      rfl

/-- The JSON text of a report is read as the report with its values as JSON has them. -/
theorem readJson_of_json {r : Report} {text : String} (h : r.json = .ok text)
    (readable : r.Readable) : readJson text = some r.inJson := by
  obtain ⟨j, hj, rfl⟩ := map_eq_ok.mp h
  rw [toJson, toEntries] at hj
  obtain ⟨js, hjs, rfl⟩ := map_eq_ok.mp hj
  obtain ⟨data, rest, hdata, hrest, rfl⟩ := jsonOfRecord hjs
  rw [jsonOfValue] at hdata
  obtain ⟨items, hitems, rfl⟩ := map_eq_ok.mp hdata
  obtain ⟨htake, hentries⟩ := takeField_shown (v := .array (Json.shownItems items)) hrest readable.other
  rw [readJson, Json.read?_pretty, Option.bind_some, Json.shown, Json.shownEntries, Json.shown, ofJson,
    htake]
  dsimp only
  rw [channelsOfJson_shown hitems readable.channels, hentries]
  rfl

/-! ## Where the formats agree -/

theorem fieldsInJson_eq_self {es : Entries Value} {js : List (String × Json)}
    (h : jsonOfEntries (yamlEntries es) = .ok js) :
    fieldsInJson es = es ↔ ∀ e ∈ es, e.2.Common := by
  induction es generalizing js with
  | nil => exact iff_of_true rfl (List.forall_mem_nil _)
  | cons e es ih =>
      obtain ⟨k, v⟩ := e
      obtain ⟨j, rest, hj, hrest, -⟩ := jsonOfRecord h
      have hrest := ih hrest
      rw [fieldsInJson] at hrest ⊢
      rw [List.map_cons, List.cons.injEq, Prod.mk.injEq, hrest, inJson_eq_self hj, List.forall_mem_cons]
      simp only [true_and]

theorem channelsInJson_eq_self {cs : List Channel} {js : List Json}
    (h : jsonOfItems (cs.map channelValue) = .ok js) :
    cs.map channelInJson = cs ↔ ∀ c ∈ cs, ∀ e ∈ c.fields, e.2.Common := by
  induction cs generalizing js with
  | nil => exact iff_of_true rfl (List.forall_mem_nil _)
  | cons c cs ih =>
      obtain ⟨name, fields⟩ := c
      obtain ⟨j, js, hj, hjs, -⟩ := jsonOfItems_cons h
      rw [channelValue, jsonOfValue] at hj
      obtain ⟨entries, hentries, -⟩ := map_eq_ok.mp hj
      obtain ⟨-, rest, -, hrest, -⟩ := jsonOfRecord hentries
      rw [List.map_cons, List.cons.injEq, channelInJson, Channel.mk.injEq, fieldsInJson_eq_self hrest,
        ih hjs, List.forall_mem_cons]
      simp only [true_and]

/-- A report that can be written as JSON is its JSON form exactly if both formats can hold its values. -/
theorem inJson_eq_self_of_json {r : Report} {text : String} (h : r.json = .ok text) :
    r.inJson = r ↔ r.Common := by
  obtain ⟨channels, other⟩ := r
  obtain ⟨j, hj, -⟩ := map_eq_ok.mp h
  rw [toJson, toEntries] at hj
  obtain ⟨js, hjs, -⟩ := map_eq_ok.mp hj
  obtain ⟨data, rest, hdata, hrest, -⟩ := jsonOfRecord hjs
  rw [jsonOfValue] at hdata
  obtain ⟨items, hitems, -⟩ := map_eq_ok.mp hdata
  rw [inJson, Report.mk.injEq, channelsInJson_eq_self hitems, fieldsInJson_eq_self hrest]
  exact ⟨fun h => ⟨h.1, h.2⟩, fun h => ⟨h.1, h.2⟩⟩

/-- **One report in two formats.** The JSON text of a report that has been read holds the same channels
in the same order and the same keys in the report and in each channel, with the values as JSON has
them. It holds the report itself, which the YAML text does as far as the tree that is written is
restored, exactly if both formats can hold all its values. -/
theorem read_json {text json : String} {r : Report} (hread : read text = .ok r)
    (hjson : r.json = .ok json) :
    readJson json = some r.inJson
      ∧ r.inJson.channels.map (fun c => (c.name, c.fields.map Prod.fst))
        = r.channels.map (fun c => (c.name, c.fields.map Prod.fst))
      ∧ r.inJson.other.map Prod.fst = r.other.map Prod.fst
      ∧ (r.inJson = r ↔ r.Common)
      ∧ (r.Restored → read r.yaml = .ok r) := by
  have hreadable := readable_read hread
  have hkeys : ∀ es : Entries Value, (fieldsInJson es).map Prod.fst = es.map Prod.fst := by
    intro es
    rw [fieldsInJson, List.map_map]
    rfl
  refine ⟨readJson_of_json hjson hreadable, ?_, hkeys r.other, inJson_eq_self_of_json hjson,
    read_of_restored hreadable⟩
  rw [inJson, List.map_map]
  refine List.map_congr_left fun c _ => ?_
  rw [Function.comp_apply, channelInJson, hkeys]

/-- A dump with a number that is not finite and with two keys of one mapping that have one text. -/
def lossy : String := "data:\n- name: a\n  avg: .nan\nb:\n  1: x\n  '1': y\n"

/-- The document of `lossy`. -/
def lossyRoot : Node :=
  let plain (text : String) : Node := .scalar none text true
  .mapping none
    [(plain "data", .sequence none
      [.mapping none [(plain "name", plain "a"), (plain "avg", plain ".nan")]]),
      (plain "b", .mapping none [(plain "1", plain "x"), (.scalar none "1" false, plain "y")])]

/-- What `lossy` holds. -/
def lossyReport : Report :=
  { channels := [{ name := "a", fields := [("avg", .float .nan)] }]
    other := [("b", .mapping [(.int 1, .string "x"), (.string "1", .string "y")])] }

theorem holds_lossy : Holds lossyRoot (.mapping lossyReport.toEntries) := by
  have hword : ∀ text : String, meaning none text true = .ok (.string text) →
      Holds (.scalar none text true) (.string text) := fun _ h => .scalar rfl h (.string _)
  have hnan : Holds (.scalar none ".nan" true) (.float .nan) :=
    .scalar rfl (by decide +kernel) (.float _)
  have hone : Holds (.scalar none "1" true) (.int 1) := .scalar rfl (by decide +kernel) (.int _)
  have hmap : Holds (.mapping none [(.scalar none "1" true, .scalar none "x" true),
      (.scalar none "1" false, .scalar none "y" true)])
      (.mapping [(.int 1, .string "x"), (.string "1", .string "y")]) :=
    .mapping rfl
      (.cons (.entry hone (hword "x" (by decide +kernel)))
        (.cons (.entry (.scalar rfl rfl (.string _)) (hword "y" (by decide +kernel))) .nil))
      (by decide)
  refine .mapping rfl (.cons (.entry (hword "data" (by decide +kernel)) ?_)
    (.cons (.entry (hword "b" (by decide +kernel)) hmap) .nil)) (by decide)
  refine .sequence rfl (.cons (.mapping rfl ?_ (by decide)) .nil)
  exact .cons (.entry (hword "name" (by decide +kernel)) (hword "a" (by decide +kernel)))
    (.cons (.entry (hword "avg" (by decide +kernel)) hnan) .nil)

theorem readable_lossy : lossyReport.Readable where
  channels := List.forall_mem_singleton.mpr
    ⟨List.pairwise_singleton _ _, by decide, List.forall_mem_singleton.mpr (.float _)⟩
  other := by
    have hword : ∀ s : String, (Value.string s).TagFree := .string
    refine ⟨List.pairwise_singleton _ _, by decide, List.forall_mem_singleton.mpr (.mapping ?_ ?_ ?_)⟩
    · exact List.forall_mem_cons.mpr ⟨.int 1, List.forall_mem_singleton.mpr (hword "1")⟩
    · exact List.forall_mem_cons.mpr ⟨hword "x", List.forall_mem_singleton.mpr (hword "y")⟩
    · decide

set_option maxRecDepth 10000 in
theorem document_lossy : Document.ofText lossy.toList = ⟨lossyRoot, none, false⟩ := by rfl

theorem yaml_lossy : lossyReport.yaml = lossy := by decide +kernel

theorem read_lossy : read lossy = .ok lossyReport :=
  read_of_holds (by rfl) document_lossy holds_lossy readable_lossy

theorem restored_lossy : lossyReport.Restored :=
  ⟨lossyRoot, by rw [yaml_lossy, document_lossy], holds_lossy⟩

/-- The JSON form of what `lossy` holds. -/
def lossyJson : Json :=
  .object
    [("data", .array [.object [("name", .string "a"), ("avg", .float .nan)]]),
      ("b", .object [("1", .string "x"), ("1", .string "y")])]

theorem json_lossy : lossyReport.json = .ok lossyJson.pretty := by rfl

def lossyFromJson : Report :=
  { channels := [{ name := "a", fields := [("avg", .null)] }]
    other := [("b", .mapping [(.string "1", .string "x"), (.string "1", .string "y")])] }

theorem inJson_lossy : lossyReport.inJson = lossyFromJson := by rfl

theorem read_json_lossy : read lossy = .ok lossyReport
    ∧ readJson lossyJson.pretty = some lossyFromJson
    ∧ ¬ lossyReport.Common
    ∧ read lossyReport.yaml = .ok lossyReport := by
  obtain ⟨hfromJson, -, -, hcommon, hyaml⟩ := read_json read_lossy json_lossy
  rw [inJson_lossy] at hfromJson hcommon
  refine ⟨read_lossy, hfromJson, fun h => ?_, hyaml restored_lossy⟩
  have hother := congrArg Report.other (hcommon.mpr h)
  simp [lossyFromJson, lossyReport] at hother

/-- The number that is not finite is another value in the JSON text than in the YAML text, and two entries
with keys of their own have one key. -/
theorem json_differs_from_yaml : read lossy = .ok lossyReport
    ∧ lossyReport.json = .ok lossyJson.pretty
    ∧ read lossyReport.yaml = .ok lossyReport
    ∧ readJson lossyJson.pretty = some lossyFromJson
    ∧ lossyFromJson.channels ≠ lossyReport.channels
    ∧ lossyFromJson.other ≠ lossyReport.other := by
  refine ⟨read_lossy, json_lossy, read_of_restored readable_lossy restored_lossy, ?_, ?_, ?_⟩
  · rw [readJson_of_json json_lossy readable_lossy, inJson_lossy]
  · simp [lossyFromJson, lossyReport]
  · simp [lossyFromJson, lossyReport]

end Report

end PowerBench
