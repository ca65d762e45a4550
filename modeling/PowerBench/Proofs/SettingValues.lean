import PowerBench.Proofs.Binary64Quotient
import PowerBench.Proofs.ConfigFile

set_option autoImplicit false

/-! # What the settings tell of their table

The settings of a configuration are JSON values. What they tell of the table that a text gives is the
value `carried` of it (`settings_carried`): the table without the sign of its zeros, which makes no
number a different one, but also without the difference between the numbers that are not finite, and
between a date and the table with one key that stands for it. A table in which the numbers are finite
and no table looks like a date can be had back (`restored_carried`).
-/

namespace PowerBench

open Toml (Value Scalar)

/-! ## Zeros -/

namespace Binary64

/-- A number, the positive zero for both zeros. -/
def withOneZero (x : Binary64) : Binary64 := if x.code = 0 then ofCode false 0 else x

/-- Numbers are equal if they are the same up to the sign of a zero. -/
theorem numEq_iff {x y : Binary64} (hx : x.isFinite = true) (hy : y.isFinite = true) :
    x.numEq y = true ↔ x.withOneZero = y.withOneZero := by
  have hbits : x.bits = y.bits ↔ x = y := by rw [Binary64.mk.injEq]
  have hzero : ∀ {z : Binary64}, z.code ≠ 0 → ofCode false 0 ≠ z := by
    rintro z hz rfl
    exact hz (by decide)
  simp only [numEq, not_isNaN_of_isFinite hx, not_isNaN_of_isFinite hy, Bool.not_false, Bool.true_and,
    Bool.or_eq_true, Bool.and_eq_true, beq_iff_eq, hbits, withOneZero]
  by_cases hxz : x.code = 0 <;> by_cases hyz : y.code = 0
  · simp [hxz, hyz]
  · have hne : x ≠ y := fun h => hyz (h ▸ hxz)
    simp [hxz, hyz, hne, hzero hyz]
  · have hne : x ≠ y := fun h => hxz (h ▸ hyz)
    simp [hxz, hyz, hne, (hzero hxz).symm]
  · simp [hxz, hyz]

theorem withOneZero_withOneZero (x : Binary64) : x.withOneZero.withOneZero = x.withOneZero := by
  unfold withOneZero
  split <;> simp_all

theorem isFinite_withOneZero (x : Binary64) : x.withOneZero.isFinite = x.isFinite := by
  unfold withOneZero
  split
  · rename_i hzero
    rw [isFinite, isFinite, hzero]
    rfl
  · rfl

theorem withOneZero_ne_nan {x : Binary64} (finite : x.isFinite = true) : x.withOneZero ≠ nan := by
  intro h
  rw [← isFinite_withOneZero, h] at finite
  exact absurd finite (by decide)

end Binary64

/-! ## JSON values as TOML values -/

namespace Json

/-- A value whose numbers are finite. -/
inductive Finite : Json → Prop
  | null : Finite .null
  | bool (b : Bool) : Finite (.bool b)
  | int (n : Int) : Finite (.int n)
  | float {x : Binary64} (finite : x.isFinite = true) : Finite (.float x)
  | string (s : String) : Finite (.string s)
  | array {items : List Json} (all : ∀ v ∈ items, Finite v) : Finite (.array items)
  | object {entries : List (String × Json)} (all : ∀ e ∈ entries, Finite e.2) :
      Finite (.object entries)

mutual

/-- The TOML value that a JSON value stands for. Null stands for all numbers that are not finite. -/
def toToml : Json → Value
  | .null => .scalar (.float .nan)
  | .bool b => .scalar (.bool b)
  | .int n => .scalar (.int n)
  | .float x => .scalar (.float x.withOneZero)
  | .string s => .scalar (.string s)
  | .array items => .array (itemsToToml items)
  | .object entries => .table (entriesToToml entries)

def itemsToToml : List Json → List Value
  | [] => []
  | v :: vs => v.toToml :: itemsToToml vs

def entriesToToml : List (String × Json) → List (String × Value)
  | [] => []
  | (k, v) :: es => (k, v.toToml) :: entriesToToml es

end

mutual

/-- Two values are equal if they stand for the same. -/
theorem same_iff : ∀ {j j' : Json}, j.Finite → j'.Finite → (j.same j' = true ↔ j.toToml = j'.toToml)
  | .null, j', _, h' => by
      cases h' with
      | float finite => simp [same, toToml, (Binary64.withOneZero_ne_nan finite).symm]
      | _ => simp [same, toToml]
  | .bool _, j', _, h' => by cases h' <;> simp [same, toToml]
  | .int _, j', _, h' => by cases h' <;> simp [same, toToml]
  | .float x, j', .float finite, h' => by
      cases h' with
      | null => simp [same, toToml, Binary64.withOneZero_ne_nan finite]
      | float finite' => simp [same, toToml, Binary64.numEq_iff finite finite']
      | _ => simp [same, toToml]
  | .string _, j', _, h' => by cases h' <;> simp [same, toToml]
  | .array items, j', .array all, h' => by
      cases h' with
      | array all' => rw [same, toToml, toToml, Value.array.injEq, sameItems_iff all all']
      | _ => simp [same, toToml]
  | .object entries, j', .object all, h' => by
      cases h' with
      | object all' => rw [same, toToml, toToml, Value.table.injEq, sameEntries_iff all all']
      | _ => simp [same, toToml]

theorem sameItems_iff : ∀ {js js' : List Json}, (∀ j ∈ js, j.Finite) → (∀ j ∈ js', j.Finite) →
    (sameItems js js' = true ↔ itemsToToml js = itemsToToml js')
  | [], [], _, _ => iff_of_true rfl rfl
  | [], _ :: _, _, _ => iff_of_false nofun nofun
  | _ :: _, [], _, _ => iff_of_false nofun nofun
  | j :: js, j' :: js', h, h' => by
      obtain ⟨hj, hjs⟩ := List.forall_mem_cons.mp h
      obtain ⟨hj', hjs'⟩ := List.forall_mem_cons.mp h'
      rw [sameItems, Bool.and_eq_true, same_iff hj hj', sameItems_iff hjs hjs', itemsToToml,
        itemsToToml, List.cons.injEq]

theorem sameEntries_iff : ∀ {es es' : List (String × Json)}, (∀ e ∈ es, e.2.Finite) →
    (∀ e ∈ es', e.2.Finite) → (sameEntries es es' = true ↔ entriesToToml es = entriesToToml es')
  | [], [], _, _ => iff_of_true rfl rfl
  | [], _ :: _, _, _ => iff_of_false nofun nofun
  | _ :: _, [], _, _ => iff_of_false nofun nofun
  | (k, j) :: es, (k', j') :: es', h, h' => by
      obtain ⟨hj, hes⟩ := List.forall_mem_cons.mp h
      obtain ⟨hj', hes'⟩ := List.forall_mem_cons.mp h'
      rw [sameEntries, Bool.and_eq_true, Bool.and_eq_true, beq_iff_eq, same_iff hj hj',
        sameEntries_iff hes hes', entriesToToml, entriesToToml, List.cons.injEq, Prod.mk.injEq]

end

end Json

/-! ## TOML values rebuilt -/

namespace Toml

namespace Value

mutual

/-- A value with something in the place of each scalar and of each table. -/
def replaced (scalar : Scalar → Value) (table : List (String × Value) → Value) : Value → Value
  | .scalar s => scalar s
  | .array items => .array (itemsReplaced scalar table items)
  | .table entries => table (entriesReplaced scalar table entries)

def itemsReplaced (scalar : Scalar → Value) (table : List (String × Value) → Value) :
    List Value → List Value
  | [] => []
  | v :: vs => v.replaced scalar table :: itemsReplaced scalar table vs

def entriesReplaced (scalar : Scalar → Value) (table : List (String × Value) → Value) :
    List (String × Value) → List (String × Value)
  | [] => []
  | (k, v) :: es => (k, v.replaced scalar table) :: entriesReplaced scalar table es

end

section

variable (scalar : Scalar → Value) (table : List (String × Value) → Value)

theorem replaced_array (items : List Value) :
    (Value.array items).replaced scalar table = .array (items.map (replaced scalar table)) := by
  rw [replaced, Value.array.injEq]
  induction items with
  | nil => rfl
  | cons v vs ih => rw [itemsReplaced, ih, List.map_cons]

theorem replaced_table (entries : List (String × Value)) :
    (Value.table entries).replaced scalar table
      = table (entries.map fun e => (e.1, e.2.replaced scalar table)) := by
  rw [replaced]
  congr 1
  induction entries with
  | nil => rfl
  | cons e es ih => rw [entriesReplaced, ih, List.map_cons]

variable (first : Scalar → Value)

mutual

/-- Scalars that are replaced in what stands in their place are replaced at once. -/
theorem replaced_replaced : ∀ v : Value, (v.replaced first .table).replaced scalar table
    = v.replaced (fun s => (first s).replaced scalar table) table
  | .scalar _ => rfl
  | .array items => by
      rw [replaced, replaced, replaced, itemsReplaced_replaced items]
  | .table entries => by
      rw [replaced, replaced, replaced, entriesReplaced_replaced entries]

theorem itemsReplaced_replaced : ∀ vs : List Value,
    itemsReplaced scalar table (itemsReplaced first .table vs)
      = itemsReplaced (fun s => (first s).replaced scalar table) table vs
  | [] => rfl
  | v :: vs => by
      rw [itemsReplaced, itemsReplaced, itemsReplaced, replaced_replaced v, itemsReplaced_replaced vs]

theorem entriesReplaced_replaced : ∀ es : List (String × Value),
    entriesReplaced scalar table (entriesReplaced first .table es)
      = entriesReplaced (fun s => (first s).replaced scalar table) table es
  | [] => rfl
  | (_, v) :: es => by
      rw [entriesReplaced, entriesReplaced, entriesReplaced, replaced_replaced v,
        entriesReplaced_replaced es]

end

end

end Value

/-- A scalar, the positive zero for both zeros. -/
def Scalar.withOneZero : Scalar → Scalar
  | .float x => .float x.withOneZero
  | s => s

/-- A value, the positive zero for both zeros. -/
def Value.withOneZero : Value → Value := Value.replaced (fun s => .scalar s.withOneZero) .table

theorem Value.withOneZero_eq_string {v : Value} {s : String}
    (h : v.withOneZero = .scalar (.string s)) : v = .scalar (.string s) := by
  unfold Value.withOneZero at h
  cases v with
  | scalar t =>
      rw [Value.replaced, Value.scalar.injEq] at h
      cases t with
      | string t => exact congrArg Value.scalar h
      | _ => cases h
  | array items =>
      rw [Value.replaced] at h
      cases h
  | table entries =>
      rw [Value.replaced] at h
      cases h

end Toml

namespace ServiceConfig

/-! ## What is carried -/

/-- What the settings tell of a scalar. -/
def carriedScalar : Scalar → Value
  | .float x => .scalar (.float (if x.isFinite then x.withOneZero else .nan))
  | .datetime text => .table [(datetimeKey, .scalar (.string text))]
  | s => .scalar s

/-- What the settings tell of a value: both zeros are one, the numbers that are not finite are one, and
a date is a table with one key. -/
def carried : Value → Value := Value.replaced carriedScalar .table

theorem settingOfScalar_carried {s : Scalar} {j : Json} (h : settingOfScalar s = .ok j) :
    j.Finite ∧ j.toToml = carriedScalar s := by
  cases s with
  | string s =>
      obtain rfl := Except.ok.inj h
      exact ⟨.string s, rfl⟩
  | int n =>
      rw [settingOfScalar] at h
      split at h
      · obtain rfl := Except.ok.inj h
        exact ⟨.int n, rfl⟩
      · cases h
  | float x =>
      obtain rfl := Except.ok.inj h
      rw [carriedScalar]
      split
      · rename_i finite
        exact ⟨.float finite, rfl⟩
      · exact ⟨.null, rfl⟩
  | tooLarge => cases h
  | bool b =>
      obtain rfl := Except.ok.inj h
      exact ⟨.bool b, rfl⟩
  | datetime text =>
      obtain rfl := Except.ok.inj h
      exact ⟨.object (List.forall_mem_singleton.mpr (.string text)), rfl⟩

mutual

/-- A setting stands for what is carried of its value. -/
theorem readSetting_carried : ∀ {v : Value} {j : Json}, readSetting v = .ok j →
    j.Finite ∧ j.toToml = carried v
  | .scalar _, _, h => settingOfScalar_carried h
  | .array items, j, h => by
      rw [readSetting] at h
      obtain ⟨js, hjs, rfl⟩ := map_eq_ok.mp h
      obtain ⟨hfinite, hcarried⟩ := readSettingItems_carried hjs
      refine ⟨.array hfinite, ?_⟩
      rw [Json.toToml, hcarried, carried, Value.replaced]
  | .table entries, j, h => by
      rw [readSetting] at h
      obtain ⟨js, hjs, rfl⟩ := map_eq_ok.mp h
      obtain ⟨hfinite, hcarried⟩ := readSettingEntries_carried hjs
      refine ⟨.object hfinite, ?_⟩
      rw [Json.toToml, hcarried, carried, Value.replaced]

theorem readSettingItems_carried : ∀ {vs : List Value} {js : List Json},
    readSettingItems vs = .ok js →
      (∀ j ∈ js, j.Finite) ∧ Json.itemsToToml js = Value.itemsReplaced carriedScalar .table vs
  | [], _, h => by
      obtain rfl := Except.ok.inj h
      exact ⟨List.forall_mem_nil _, rfl⟩
  | v :: vs, _, h => by
      rw [readSettingItems] at h
      obtain ⟨j, hj, h⟩ := bind_eq_ok.mp h
      obtain ⟨js, hjs, h⟩ := bind_eq_ok.mp h
      obtain rfl := Except.ok.inj h
      obtain ⟨hfinite, hcarried⟩ := readSetting_carried hj
      obtain ⟨hall, hrest⟩ := readSettingItems_carried hjs
      refine ⟨List.forall_mem_cons.mpr ⟨hfinite, hall⟩, ?_⟩
      rw [Json.itemsToToml, Value.itemsReplaced, hcarried, hrest, carried]

theorem readSettingEntries_carried : ∀ {es : List (String × Value)} {js : List (String × Json)},
    readSettingEntries es = .ok js →
      (∀ e ∈ js, e.2.Finite) ∧ Json.entriesToToml js = Value.entriesReplaced carriedScalar .table es
  | [], _, h => by
      obtain rfl := Except.ok.inj h
      exact ⟨List.forall_mem_nil _, rfl⟩
  | (_, v) :: es, _, h => by
      rw [readSettingEntries] at h
      obtain ⟨j, hj, h⟩ := bind_eq_ok.mp h
      obtain ⟨js, hjs, h⟩ := bind_eq_ok.mp h
      obtain rfl := Except.ok.inj h
      obtain ⟨hfinite, hcarried⟩ := readSetting_carried hj
      obtain ⟨hall, hrest⟩ := readSettingEntries_carried hjs
      refine ⟨List.forall_mem_cons.mpr ⟨hfinite, hall⟩, ?_⟩
      rw [Json.entriesToToml, Value.entriesReplaced, hcarried, hrest, carried]

end

/-- The settings of a value that is read are the parts of its setting. -/
theorem readSetting_of_readSettings {v : Value} {settings : Entries Json}
    (h : readSettings v = .ok settings) : readSetting v = .ok (.object settings) := by
  unfold readSettings at h
  split at h
  · rw [readSetting, h]
    rfl
  · obtain rfl := Except.ok.inj h
    rfl
  · obtain ⟨found, -, h⟩ := bind_eq_ok.mp h
    cases h

/-! ## What is not lost -/

/-- A value in which the numbers are finite and no table looks like a date. -/
inductive Faithful : Value → Prop
  | scalar {s : Scalar} (finite : ∀ x, s = .float x → x.isFinite = true) : Faithful (.scalar s)
  | array {items : List Value} (all : ∀ v ∈ items, Faithful v) : Faithful (.array items)
  | table {entries : List (String × Value)} (all : ∀ e ∈ entries, Faithful e.2)
      (undated : ∀ text, entries ≠ [(datetimeKey, .scalar (.string text))]) :
      Faithful (.table entries)

/-- A table, or the date that it stands for. -/
def dateOrTable : List (String × Value) → Value
  | [(key, .scalar (.string text))] =>
    if key = datetimeKey then .scalar (.datetime text) else .table [(key, .scalar (.string text))]
  | entries => .table entries

theorem dateOrTable_eq_table {entries : List (String × Value)}
    (undated : ∀ text, entries ≠ [(datetimeKey, .scalar (.string text))]) :
    dateOrTable entries = .table entries := by
  unfold dateOrTable
  split
  · split
    · rename_i hkey
      subst hkey
      exact absurd rfl (undated _)
    · rfl
  · rfl

/-- The value that what is carried comes from. -/
def restored : Value → Value := Value.replaced .scalar dateOrTable

theorem restored_carriedScalar {s : Scalar} (finite : ∀ x, s = .float x → x.isFinite = true) :
    restored (carriedScalar s) = .scalar s.withOneZero := by
  cases s with
  | float x =>
      rw [carriedScalar, if_pos (finite x rfl)]
      rfl
  | datetime text =>
      rw [carriedScalar, restored, Value.replaced, Value.entriesReplaced, Value.entriesReplaced,
        Value.replaced, dateOrTable, if_pos rfl]
      rfl
  | _ => rfl

/-- **A faithful value comes back** from what is carried of it, up to the sign of its zeros. -/
theorem restored_carried {v : Value} (h : Faithful v) : restored (carried v) = v.withOneZero := by
  induction h with
  | scalar finite => exact restored_carriedScalar finite
  | @array items _ ih =>
      calc restored (carried (.array items))
          = .array (items.map fun v => restored (carried v)) := by
            rw [carried, Value.replaced_array, restored, Value.replaced_array, List.map_map]
            rfl
        _ = .array (items.map Value.withOneZero) := by rw [List.map_congr_left ih]
        _ = (Value.array items).withOneZero := (Value.replaced_array _ _ items).symm
  | @table entries _ undated ih =>
      have hundated : ∀ text, (entries.map fun e => (e.1, e.2.withOneZero))
          ≠ [(datetimeKey, .scalar (.string text))] := by
        intro text h
        obtain ⟨⟨key, v⟩, rfl, he⟩ := List.map_eq_singleton_iff.mp h
        obtain ⟨rfl, hzero⟩ := Prod.mk.inj he
        have hv : v = .scalar (.string text) := Value.withOneZero_eq_string hzero
        exact undated text (by rw [hv])
      calc restored (carried (.table entries))
          = dateOrTable (entries.map fun e => (e.1, restored (carried e.2))) := by
            rw [carried, Value.replaced_table, restored, Value.replaced_table, List.map_map]
            rfl
        _ = dateOrTable (entries.map fun e => (e.1, e.2.withOneZero)) := by
            rw [List.map_congr_left fun e he => by rw [ih e he]]
        _ = .table (entries.map fun e => (e.1, e.2.withOneZero)) := dateOrTable_eq_table hundated
        _ = (Value.table entries).withOneZero := (Value.replaced_table _ _ entries).symm

theorem carried_withOneZero (v : Value) : carried v.withOneZero = carried v := by
  have hscalar : ∀ s : Scalar, carried (.scalar s.withOneZero) = carriedScalar s := by
    rintro (_ | _ | x | _ | _ | _)
    case float =>
      rw [carried, Value.replaced, Scalar.withOneZero, carriedScalar, carriedScalar,
        Binary64.isFinite_withOneZero, Binary64.withOneZero_withOneZero]
    all_goals rfl
  rw [carried, Value.withOneZero, Value.replaced_replaced]
  exact congrArg (fun scalar => v.replaced scalar .table) (funext hscalar)

/-- Of faithful values all is carried but the sign of their zeros. -/
theorem carried_eq_iff {v v' : Value} (h : Faithful v) (h' : Faithful v') :
    carried v = carried v' ↔ v.withOneZero = v'.withOneZero := by
  constructor
  · intro heq
    rw [← restored_carried h, heq, restored_carried h']
  · intro heq
    rw [← carried_withOneZero v, heq, carried_withOneZero v']

/-! ## Texts -/

/-- The table of settings that a text gives, which is empty where the text does not give one. -/
def settingsTable (text : String) : Value :=
  ((Toml.read? text).bind (Entries.get? "settings")).getD (.table [])

theorem Reads.settings_eq {f f' : FileContent} {key : String} {v : Value} (h : Reads f key v f')
    (other : key ≠ "settings") : f'.settings = f.settings := by
  cases h with
  | settings read => exact absurd rfl other
  | _ => rfl

theorem Reads.readSettings_eq {f f' : FileContent} {v : Value} (h : Reads f "settings" v f') :
    readSettings v = .ok f'.settings := by
  generalize hkey : "settings" = key at h
  cases h with
  | settings read => exact read
  | _ => simp at hkey

/-- The settings of entries are those of the entry under their key. -/
theorem ofEntries_settings {f f' : FileContent} {entries : Entries Value}
    (ascending : entries.Ascending) (h : FileContent.ofEntries f entries = .ok f') :
    (entries.get? "settings" = none → f'.settings = f.settings)
      ∧ ∀ v, entries.get? "settings" = some v → readSettings v = .ok f'.settings := by
  induction entries generalizing f with
  | nil =>
      obtain rfl := Except.ok.inj h
      refine ⟨fun _ => rfl, fun v hget => ?_⟩
      cases hget
  | cons e rest ih =>
      obtain ⟨key, v⟩ := e
      obtain ⟨next, hreads, h⟩ := ofEntries_cons h
      obtain ⟨hfirst, hrest⟩ := List.pairwise_cons.mp ascending
      obtain ⟨hnone, hsome⟩ := ih hrest h
      rw [Entries.get?]
      split
      · rename_i hkey
        subst hkey
        -- The key stands only once, so that the entries behind it leave the settings alone.
        have hlast : Entries.get? "settings" rest = none := by
          cases hget : Entries.get? "settings" rest with
          | none => rfl
          | some w =>
              have hmem := (Entries.get?_eq_some hrest).mp hget
              exact absurd (hfirst _ hmem) (String.lt_irrefl _)
        refine ⟨fun hget => (by cases hget), fun w hw => ?_⟩
        obtain rfl := Option.some.inj hw
        rw [hnone hlast]
        exact hreads.readSettings_eq
      · rename_i hkey
        refine ⟨fun hget => ?_, hsome⟩
        rw [hnone hget, hreads.settings_eq (Ne.symm hkey)]

/-- The settings of a text are read from its table. -/
theorem readSettings_settingsTable {text : String} {f : FileContent}
    (h : FileContent.read text = .ok f) : readSettings (settingsTable text) = .ok f.settings := by
  unfold FileContent.read at h
  rw [settingsTable]
  cases hentries : Toml.read? text with
  | none =>
      rw [hentries] at h
      cases h
  | some entries =>
      rw [hentries] at h
      have hascending : entries.Ascending := by
        obtain ⟨d, -, rfl⟩ := Option.map_eq_some_iff.mp hentries
        exact (Entries.mem_ofList _).1
      obtain ⟨hnone, hsome⟩ := ofEntries_settings hascending h
      rw [Option.bind_some]
      cases hget : entries.get? "settings" with
      | none =>
          rw [hnone hget]
          rfl
      | some v => exact hsome v hget

/-- The settings of a configuration stand for what is carried of the table of its text. -/
theorem settings_carried {text : String} {c : ServiceConfig} (h : read text = .ok c) :
    (Json.object c.settings).Finite
      ∧ (Json.object c.settings).toToml = carried (settingsTable text) := by
  obtain ⟨f, hf, h⟩ := bind_eq_ok.mp h
  obtain ⟨d, hd, hbuild⟩ := bind_eq_ok.mp h
  obtain ⟨added, -, hd⟩ := bind_eq_ok.mp hd
  obtain rfl := Except.ok.inj hd
  obtain ⟨m?, -, hbuild⟩ := bind_eq_ok.mp hbuild
  obtain ⟨-, -, hbuild⟩ := bind_eq_ok.mp hbuild
  obtain rfl := Except.ok.inj hbuild
  exact readSetting_carried (readSetting_of_readSettings (readSettings_settingsTable hf))

/-- **What the settings tell.** Two texts that are accepted have the same settings exactly if the same is
carried of their tables of settings. So if the numbers in both are finite and no table in them looks
like a date, the settings differ whenever the tables do, in their keys or anywhere in their values, up
to the sign of a zero. -/
theorem same_settings_iff {text text' : String} {c c' : ServiceConfig} (h : read text = .ok c)
    (h' : read text' = .ok c') :
    (Json.sameEntries c.settings c'.settings = true
        ↔ carried (settingsTable text) = carried (settingsTable text'))
      ∧ (Faithful (settingsTable text) → Faithful (settingsTable text') →
        (Json.sameEntries c.settings c'.settings = true
          ↔ (settingsTable text).withOneZero = (settingsTable text').withOneZero)) := by
  obtain ⟨hfinite, hcarried⟩ := settings_carried h
  obtain ⟨hfinite', hcarried'⟩ := settings_carried h'
  have hsame : Json.sameEntries c.settings c'.settings = true
      ↔ carried (settingsTable text) = carried (settingsTable text') := by
    have hobjects := Json.same_iff hfinite hfinite'
    rwa [Json.same, hcarried, hcarried'] at hobjects
  exact ⟨hsame, fun hfaithful hfaithful' => hsame.trans (carried_eq_iff hfaithful hfaithful')⟩

def onlyScalar? (key : String) : Value → Option Scalar
  | .table [(k, .scalar s)] => if k = key then some s else none
  | _ => none

theorem eq_table_of_onlyScalar? {key : String} {v : Value} {s : Scalar}
    (h : onlyScalar? key v = some s) : v = .table [(key, .scalar s)] := by
  unfold onlyScalar? at h
  split at h
  · split at h
    · rename_i hkey
      rw [hkey, Option.some.inj h]
    · cases h
  · cases h

/-- A number that is written as an integer and as a fraction. -/
theorem same_settings_iff_twoKinds :
    let text := "[settings]\nrate = 2\n"
    let text' := "[settings]\nrate = 2.0\n"
    ∃ c c', read text = .ok c ∧ read text' = .ok c' ∧ Faithful (settingsTable text)
      ∧ Faithful (settingsTable text') ∧ Json.sameEntries c.settings c'.settings = false := by
  intro text text'
  obtain ⟨c, hc⟩ : ∃ c, read text = .ok c := exists_of_toBool (by decide +kernel)
  obtain ⟨c', hc'⟩ : ∃ c', read text' = .ok c' := exists_of_toBool (by decide +kernel)
  have htable : settingsTable text = .table [("rate", .scalar (.int 2))] :=
    eq_table_of_onlyScalar? (by decide +kernel)
  have htable' : settingsTable text' = .table [("rate", .scalar (.float ⟨0x4000000000000000⟩))] :=
    eq_table_of_onlyScalar? (by decide +kernel)
  have hfaithful : Faithful (settingsTable text) := by
    rw [htable]
    exact .table (List.forall_mem_singleton.mpr (.scalar nofun)) (by simp)
  have hfaithful' : Faithful (settingsTable text') := by
    rw [htable']
    refine .table (List.forall_mem_singleton.mpr (.scalar ?_)) (by simp)
    rintro x ⟨⟩
    decide
  refine ⟨c, c', hc, hc', hfaithful, hfaithful', ?_⟩
  rw [← Bool.not_eq_true, (same_settings_iff hc hc').2 hfaithful hfaithful', htable, htable']
  nofun

theorem infinities_one_setting :
    let text := "[settings]\nx = inf\n"
    let text' := "[settings]\nx = -inf\n"
    ∃ c c', read text = .ok c ∧ read text' = .ok c'
      ∧ Json.sameEntries c.settings c'.settings = true
      ∧ settingsTable text = .table [("x", .scalar (.float (.infinity false)))]
      ∧ settingsTable text' = .table [("x", .scalar (.float (.infinity true)))]
      ∧ (settingsTable text).withOneZero ≠ (settingsTable text').withOneZero := by
  intro text text'
  have htable : settingsTable text = .table [("x", .scalar (.float (.infinity false)))] :=
    eq_table_of_onlyScalar? (by decide +kernel)
  have htable' : settingsTable text' = .table [("x", .scalar (.float (.infinity true)))] :=
    eq_table_of_onlyScalar? (by decide +kernel)
  obtain ⟨c, hc⟩ : ∃ c, read text = .ok c := exists_of_toBool (by decide +kernel)
  obtain ⟨c', hc'⟩ : ∃ c', read text' = .ok c' := exists_of_toBool (by decide +kernel)
  have hsame : (do
      let c ← read text
      let c' ← read text'
      pure (Json.sameEntries c.settings c'.settings)).toOption = some true := by decide +kernel
  rw [hc, hc'] at hsame
  refine ⟨c, c', hc, hc', Option.some.inj hsame, htable, htable', ?_⟩
  rw [htable, htable']
  intro heq
  exact absurd (congrArg (onlyScalar? "x") heq) (by decide)

end ServiceConfig

end PowerBench
