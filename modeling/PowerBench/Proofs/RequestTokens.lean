import PowerBench.Client
import PowerBench.Proofs.AsciiText
import PowerBench.Proofs.WrittenInteger
import PowerBench.Script

set_option autoImplicit false

/-! # The tokens of requests

A request is told by its tokens. The first tokens name its operation (`operation_tokens`), and then
every parameter has a place of its own, so equal tokens come from requests alike (`alike_of_tokens`).
The tokens are flags, and values that come from parameters, numbers and a few words (`items_cases`).
Looking for a flag scans the tokens from the left, whatever they stand for. As long as no parameter
reads like a flag, the scan finds flags only (`valueOf_items`, `hasFlag_items`), and so each setting
of the request and nothing else.
-/

namespace PowerBench

/-! ## Scanning for a flag -/

namespace Call

/-- A part of an argument list: a flag, or a flag with its value. -/
inductive Item where
  | flag (name : String)
  | pair (name value : String)
deriving DecidableEq, Repr

def Item.tokens : Item → List String
  | .flag name => [name]
  | .pair name value => [name, value]

def Item.value? (flag : String) : Item → Option String
  | .flag _ => none
  | .pair name value => if name = flag then some value else none

/-- Whether an item is a flag, with or without a value. -/
def Item.gives (flag : String) (item : Item) : Bool :=
  item == .flag flag || (item.value? flag).isSome

/-- No value among the items is a certain flag. -/
def NoValue (flag : String) (items : List Item) : Prop :=
  ∀ name value, .pair name value ∈ items → value ≠ flag

theorem NoValue.tail {flag : String} {item : Item} {items : List Item}
    (h : NoValue flag (item :: items)) : NoValue flag items :=
  fun name value hmem => h name value (List.mem_cons_of_mem _ hmem)

theorem valueOf_cons_ne {flag a : String} (h : a ≠ flag) (rest : List String) :
    valueOf flag (a :: rest) = valueOf flag rest := by
  cases rest with
  | nil => rfl
  | cons b rest => rw [valueOf, if_neg h]

/-- Where no value is taken for it, a flag with a value has the value of its first item. -/
theorem valueOf_items {flag : String} {items : List Item} (values : NoValue flag items)
    (valued : .flag flag ∉ items) :
    valueOf flag (items.flatMap Item.tokens) = items.findSome? (Item.value? flag) := by
  induction items with
  | nil => rfl
  | cons item rest ih =>
      have hrest := ih values.tail fun hmem => valued (List.mem_cons_of_mem _ hmem)
      rw [List.flatMap_cons, List.findSome?_cons]
      cases item with
      | flag name =>
          have hname : name ≠ flag := by
            rintro rfl
            exact valued List.mem_cons_self
          rw [Item.tokens, List.singleton_append, valueOf_cons_ne hname, hrest]
          rfl
      | pair name value =>
          have hvalue := values name value List.mem_cons_self
          by_cases hname : name = flag
          · simp [Item.tokens, Item.value?, valueOf, hname]
          · rw [Item.tokens, List.cons_append, List.singleton_append, valueOf_cons_ne hname,
              valueOf_cons_ne hvalue, hrest, Item.value?, if_neg hname]

/-- Where no value is taken for it, a flag occurs exactly as an item. -/
theorem hasFlag_items {flag : String} {items : List Item} (values : NoValue flag items) :
    hasFlag flag (items.flatMap Item.tokens) = items.any (Item.gives flag) := by
  induction items with
  | nil => rfl
  | cons item rest ih =>
      have hrest := ih values.tail
      unfold hasFlag at hrest ⊢
      rw [List.flatMap_cons, List.contains_append, List.any_cons, hrest]
      congr 1
      cases item with
      | flag name =>
          by_cases hname : name = flag
          · simp [Item.tokens, Item.gives, hname]
          · simp [Item.tokens, Item.gives, Item.value?, hname, Ne.symm hname]
      | pair name value =>
          have hvalue := values name value List.mem_cons_self
          by_cases hname : name = flag
          · simp [Item.tokens, Item.gives, Item.value?, hname]
          · simp [Item.tokens, Item.gives, Item.value?, hname, Ne.symm hname,
              Ne.symm hvalue]

end Call

namespace Request

open Call

/-! ## Parameters -/

def flags : List String :=
  ["--name", "--non_blocking", "--time", "--default_sampling_rate", "--disk_space_saver", "--stop",
    "--ignore_gaps", "--export", "--export_path", "--csv_rawtimestamps", "--channels", "--vm_file",
    "--log_ts", "--log", "--aggregates_yaml_path", "--abs_start_time", "--abs_stop_time", "--list",
    "--collector", "--collector_cmd"]

/-- The texts among the parameters of a request. -/
def texts : Request → List String
  | .start name _ => [name]
  | .stop name => [name]
  | .archive name _ => [name]
  | .csv channels name _ => name :: channels
  | .marker name _ text => [name, text]
  | .metrics name _ _ _ => [name]
  | .listDevices => []
  | .monitor _ => []

/-- The paths among the parameters of a request. -/
def paths : Request → List Path
  | .archive _ dest => [dest]
  | .csv _ _ dest => [dest]
  | .metrics _ _ _ dump => [dump]
  | _ => []

/-- No parameter of the request is a flag. -/
structure Plain (r : Request) : Prop where
  texts : ∀ t ∈ r.texts, t ∉ flags
  paths : ∀ p ∈ r.paths, ∀ flag ∈ flags, p ≠ .ofText flag

/-- The same operation with the same parameters; of channels the joined text counts, and of paths
the shown one. -/
def Alike : Request → Request → Prop
  | .start name rate, .start name' rate' => name = name' ∧ rate = rate'
  | .stop name, .stop name' => name = name'
  | .archive name dest, .archive name' dest' => name = name' ∧ dest.shown = dest'.shown
  | .csv channels name dest, .csv channels' name' dest' =>
    String.intercalate "," channels = String.intercalate "," channels' ∧ name = name'
      ∧ dest.shown = dest'.shown
  | .marker name time text, .marker name' time' text' => name = name' ∧ time = time' ∧ text = text'
  | .metrics name start? stop? dump, .metrics name' start?' stop?' dump' =>
    name = name' ∧ start? = start?' ∧ stop? = stop?' ∧ dump.shown = dump'.shown
  | .listDevices, .listDevices => True
  | .monitor action, .monitor action' => action = action'
  | _, _ => False

/-- What a flag with a value is given: a text, a number in decimal, or nothing at all. -/
inductive Setting where
  | text (value : String)
  | number (value : Int)
  | omitted
deriving DecidableEq, Repr

def Setting.token? : Setting → Option String
  | .text value => some value
  | .number value => some (toString value)
  | .omitted => none

/-- A setting is found where its flag has the text itself, a text from which every range with the
number reads the number, or no value at all. -/
def Setting.FoundAs : Setting → Option String → Prop
  | .text value, found => found = some value
  | .number n, found =>
    ∃ text, found = some text ∧
      ∀ below above : Nat, -(below : Int) ≤ n → n ≤ above →
        readInteger below above text.toList = .ok n
  | .omitted, found => found = none

def Setting.bound : Option Int → Setting
  | some n => .number n
  | none => .omitted

/-- The virtual metrics file, where the service has one. -/
def Setting.metricsFile (c : ServiceConfig) : Setting :=
  if c.virtualMetrics then .text virtualMetricsFile else .omitted

/-- The flags with values of a request, and what they are given. -/
def settings (c : ServiceConfig) : Request → List (String × Setting)
  | .start name rate =>
    [("--name", .text name), ("--time", .number oneYearSecs),
      ("--default_sampling_rate", .number rate)]
  | .stop name => [("--name", .text name)]
  | .archive name dest => [("--name", .text name), ("--export_path", .text dest.shown)]
  | .csv channels name dest =>
    [("--name", .text name), ("--channels", .text (String.intercalate "," channels)),
      ("--export_path", .text dest.shown), ("--vm_file", .metricsFile c)]
  | .marker name time text =>
    [("--name", .text name), ("--log_ts", .number time), ("--log", .text text)]
  | .metrics name start? stop? dump =>
    [("--name", .text name), ("--aggregates_yaml_path", .text dump.shown),
      ("--abs_start_time", .bound start?), ("--abs_stop_time", .bound stop?),
      ("--vm_file", .metricsFile c)]
  | .listDevices => [("--list", .text "devices")]
  | .monitor action =>
    [("--collector", .text monitorCollector), ("--collector_cmd", .text action.token)]

/-- Whether a request selects the virtual metrics file. -/
def selectsMetricsFile : Request → Bool
  | .csv _ _ _ => true
  | .metrics _ _ _ _ => true
  | _ => false

/-- Whether a request saves disk space where it can. -/
def savesSpace : Request → Bool
  | .start _ _ => true
  | _ => false

/-! ## Requests by their tokens -/

/-- The token that tells the operation: the first one, or the first flag that stands after the name
of a collection and is no word on gaps. -/
def operation (tokens : List String) : Option String :=
  if tokens[0]? = some "--name" then
    if tokens[2]? = some "--ignore_gaps" then tokens[3]? else tokens[2]?
  else tokens[0]?

def word : Request → String
  | .start _ _ => "--non_blocking"
  | .stop _ => "--stop"
  | .archive _ _ => "--export"
  | .csv _ _ _ => "--csv_rawtimestamps"
  | .marker _ _ _ => "--log_ts"
  | .metrics _ _ _ _ => "--aggregates_yaml_path"
  | .listDevices => "--list"
  | .monitor _ => "--collector"

theorem operation_tokens (c : ServiceConfig) (r : Request) :
    operation (r.tokens c) = some r.word := by
  cases r <;> simp [tokens, operation, word]

theorem optional_inj {flag : String} {a b : Option Int} (h : optional flag a = optional flag b) :
    a = b := by
  cases a with
  | none =>
      cases b with
      | none => rfl
      | some n => simp [optional] at h
  | some m =>
      cases b with
      | none => simp [optional] at h
      | some n =>
          simp only [optional, List.cons.injEq, true_and, and_true] at h
          exact congrArg some (toString_int_inj h)

/-- Two options after one another: the flag tells which of them a value belongs to. -/
theorem optionals_inj {flag flag' : String} (apart : flag ≠ flag') {a b a' b' : Option Int}
    (h : optional flag a ++ optional flag' b = optional flag a' ++ optional flag' b') :
    a = a' ∧ b = b' := by
  have hhead : ∀ n x, [flag, toString (n : Int)] ++ x ≠ optional flag' b
      ∧ [flag, toString n] ++ x ≠ optional flag' b' := by
    intro n x
    cases b <;> cases b' <;> simp [optional, apart]
  cases a with
  | none =>
      cases a' with
      | none => exact ⟨rfl, optional_inj h⟩
      | some n' => exact absurd h.symm (hhead n' _).1
  | some n =>
      cases a' with
      | none => exact absurd h (hhead n _).2
      | some n' =>
          have hlen : (optional flag (some n)).length = (optional flag (some n')).length := rfl
          obtain ⟨hfirst, hsecond⟩ := List.append_inj h hlen
          exact ⟨optional_inj hfirst, optional_inj hsecond⟩

theorem token_action_inj {a b : MonitorAction} (h : a.token = b.token) : a = b := by
  cases a <;> cases b <;> first | rfl | exact absurd h (by decide)

/-- Equal tokens come from requests alike. -/
theorem alike_of_tokens {c : ServiceConfig} {r s : Request} (h : r.tokens c = s.tokens c) :
    r.Alike s := by
  have hword : r.word = s.word := by
    have hoperation := congrArg operation h
    rw [operation_tokens, operation_tokens] at hoperation
    exact Option.some.inj hoperation
  cases r with
  | start name rate =>
      cases s with
      | start name' rate' =>
          have hsame := (List.append_inj h rfl).1
          simp only [List.cons.injEq, true_and, and_true] at hsame
          refine ⟨hsame.1, ?_⟩
          have hrate : (rate : Int) = rate' := toString_int_inj hsame.2
          omega
      | _ => simp [word] at hword
  | stop name =>
      cases s with
      | stop name' => simpa [tokens, Alike] using h
      | _ => simp [word] at hword
  | archive name dest =>
      cases s with
      | archive name' dest' => simpa [tokens, Alike] using h
      | _ => simp [word] at hword
  | csv channels name dest =>
      cases s with
      | csv channels' name' dest' =>
          have hsame := List.append_cancel_right h
          simp only [List.cons.injEq, true_and, and_true] at hsame
          exact ⟨hsame.2.1, hsame.1, hsame.2.2⟩
      | _ => simp [word] at hword
  | marker name time text =>
      cases s with
      | marker name' time' text' =>
          simp only [tokens, List.cons.injEq, true_and, and_true] at h
          exact ⟨h.1, toString_int_inj h.2.1, h.2.2⟩
      | _ => simp [word] at hword
  | metrics name start? stop? dump =>
      cases s with
      | metrics name' start?' stop?' dump' =>
          have hsame := List.append_cancel_right h
          rw [List.append_assoc, List.append_assoc] at hsame
          obtain ⟨hfixed, hbounds⟩ := List.append_inj hsame rfl
          obtain ⟨hstart, hstop⟩ := optionals_inj (by decide) hbounds
          simp only [List.cons.injEq, true_and, and_true] at hfixed
          exact ⟨hfixed.1, hstart, hstop, hfixed.2⟩
      | _ => simp [word] at hword
  | listDevices =>
      cases s with
      | listDevices => trivial
      | _ => simp [word] at hword
  | monitor action =>
      cases s with
      | monitor action' =>
          simp only [tokens, List.cons.injEq, true_and, and_true] at h
          exact token_action_inj h
      | _ => simp [word] at hword

/-! ## Requests as items -/

def boundItems (flag : String) : Option Int → List Item
  | some n => [.pair flag (toString n)]
  | none => []

def metricsFileItems (c : ServiceConfig) : List Item :=
  if c.virtualMetrics then [.pair "--vm_file" virtualMetricsFile] else []

def items (c : ServiceConfig) : Request → List Item
  | .start name rate =>
    [.pair "--name" name, .flag "--non_blocking", .pair "--time" (toString oneYearSecs),
      .pair "--default_sampling_rate" (toString rate)]
      ++ if c.kibbles then [.flag "--disk_space_saver"] else []
  | .stop name => [.pair "--name" name, .flag "--stop"]
  | .archive name dest =>
    [.pair "--name" name, .flag "--ignore_gaps", .flag "--export",
      .pair "--export_path" dest.shown]
  | .csv channels name dest =>
    [.pair "--name" name, .flag "--ignore_gaps", .flag "--csv_rawtimestamps",
      .pair "--channels" (String.intercalate "," channels), .flag "--export",
      .pair "--export_path" dest.shown] ++ metricsFileItems c
  | .marker name time text =>
    [.pair "--name" name, .pair "--log_ts" (toString time), .pair "--log" text]
  | .metrics name start? stop? dump =>
    [.pair "--name" name, .flag "--ignore_gaps", .pair "--aggregates_yaml_path" dump.shown]
      ++ boundItems "--abs_start_time" start? ++ boundItems "--abs_stop_time" stop?
      ++ metricsFileItems c
  | .listDevices => [.pair "--list" "devices"]
  | .monitor action =>
    [.pair "--collector" monitorCollector, .pair "--collector_cmd" action.token]

theorem tokens_boundItems (flag : String) (n? : Option Int) :
    (boundItems flag n?).flatMap Item.tokens = optional flag n? := by
  cases n? <;> rfl

theorem tokens_metricsFileItems (c : ServiceConfig) :
    (metricsFileItems c).flatMap Item.tokens = virtualMetricsTokens c := by
  unfold metricsFileItems virtualMetricsTokens
  cases c.virtualMetrics <;> rfl

theorem tokens_items (c : ServiceConfig) (r : Request) :
    (r.items c).flatMap Item.tokens = r.tokens c := by
  cases r with
  | start name rate =>
      rw [items, tokens, List.flatMap_append]
      cases c.kibbles <;> rfl
  | csv channels name dest =>
      rw [items, tokens, List.flatMap_append, tokens_metricsFileItems]
      rfl
  | metrics name start? stop? dump =>
      rw [items, tokens, List.flatMap_append, List.flatMap_append, List.flatMap_append,
        tokens_metricsFileItems, tokens_boundItems, tokens_boundItems]
      rfl
  | _ => rfl

/-! ## Where values come from -/

/-- The values that stand for no parameter. -/
def words : List String :=
  [virtualMetricsFile, "devices", monitorCollector]
    ++ [MonitorAction.acquire, .release, .usbConnect, .usbDisconnect].map MonitorAction.token

/-- A value in a request: a parameter as text, a number in decimal, or a word of the instrument. -/
inductive ValueOf (r : Request) : String → Prop where
  | text {t : String} (mem : t ∈ r.texts) : ValueOf r t
  | joined {channels : List String} {name : String} {dest : Path}
      (csv : r = .csv channels name dest) : ValueOf r (String.intercalate "," channels)
  | shown {p : Path} (mem : p ∈ r.paths) : ValueOf r p.shown
  | number (n : Int) : ValueOf r (toString n)
  | word {w : String} (mem : w ∈ words) : ValueOf r w

/-- An item of a request: a flag that requests use, alone or with a value in the request. -/
inductive ItemOf (r : Request) : Item → Prop where
  | flag {name : String} (known : name ∈ flags) : ItemOf r (.flag name)
  | pair {name value : String} (known : name ∈ flags) (origin : ValueOf r value) :
      ItemOf r (.pair name value)

theorem boundItems_cases (r : Request) {flag : String} (known : flag ∈ flags) (n? : Option Int) :
    ∀ item ∈ boundItems flag n?, ItemOf r item := by
  cases n? with
  | none => exact List.forall_mem_nil _
  | some n => exact List.forall_mem_singleton.mpr (.pair known (.number n))

theorem metricsFileItems_cases (c : ServiceConfig) (r : Request) :
    ∀ item ∈ metricsFileItems c, ItemOf r item := by
  have hfile : ItemOf r (.pair "--vm_file" virtualMetricsFile) :=
    .pair (by decide) (.word (by decide))
  unfold metricsFileItems
  split
  · exact List.forall_mem_singleton.mpr hfile
  · exact List.forall_mem_nil _

theorem items_cases (c : ServiceConfig) (r : Request) : ∀ item ∈ r.items c, ItemOf r item := by
  cases r with
  | start name rate =>
      have hspace : ∀ item ∈ (if c.kibbles then [Item.flag "--disk_space_saver"] else []),
          ItemOf (.start name rate) item := by
        split
        · exact List.forall_mem_singleton.mpr (.flag (by decide))
        · exact List.forall_mem_nil _
      simp only [Request.items, List.forall_mem_append, List.forall_mem_cons]
      exact ⟨⟨.pair (by decide) (.text List.mem_cons_self), .flag (by decide),
        .pair (by decide) (.number oneYearSecs), .pair (by decide) (.number rate),
        List.forall_mem_nil _⟩, hspace⟩
  | stop name =>
      simp only [Request.items, List.forall_mem_cons]
      exact ⟨.pair (by decide) (.text List.mem_cons_self), .flag (by decide), List.forall_mem_nil _⟩
  | archive name dest =>
      simp only [Request.items, List.forall_mem_cons]
      exact ⟨.pair (by decide) (.text List.mem_cons_self), .flag (by decide), .flag (by decide),
        .pair (by decide) (.shown List.mem_cons_self), List.forall_mem_nil _⟩
  | csv channels name dest =>
      simp only [Request.items, List.forall_mem_append, List.forall_mem_cons]
      exact ⟨⟨.pair (by decide) (.text List.mem_cons_self), .flag (by decide), .flag (by decide),
        .pair (by decide) (.joined rfl), .flag (by decide),
        .pair (by decide) (.shown List.mem_cons_self), List.forall_mem_nil _⟩,
        metricsFileItems_cases c _⟩
  | marker name time text =>
      simp only [Request.items, List.forall_mem_cons]
      exact ⟨.pair (by decide) (.text List.mem_cons_self), .pair (by decide) (.number time),
        .pair (by decide) (.text (List.mem_cons_of_mem _ List.mem_cons_self)), List.forall_mem_nil _⟩
  | metrics name start? stop? dump =>
      simp only [Request.items, List.forall_mem_append, List.forall_mem_cons]
      exact ⟨⟨⟨⟨.pair (by decide) (.text List.mem_cons_self), .flag (by decide),
        .pair (by decide) (.shown List.mem_cons_self), List.forall_mem_nil _⟩,
        boundItems_cases _ (by decide) start?⟩, boundItems_cases _ (by decide) stop?⟩,
        metricsFileItems_cases c _⟩
  | listDevices => exact List.forall_mem_singleton.mpr (.pair (by decide) (.word (by decide)))
  | monitor action =>
      have haction : action.token ∈ words := by cases action <;> decide
      simp only [Request.items, List.forall_mem_cons]
      exact ⟨.pair (by decide) (.word (by decide)), .pair (by decide) (.word haction),
        List.forall_mem_nil _⟩

/-! ## Values that are no flags -/

theorem flag_dashes {flag : String} (h : flag ∈ flags) :
    ∃ rest, flag.toList = '-' :: '-' :: rest := by
  have hall : ∀ flag ∈ flags, flag.toList = '-' :: '-' :: flag.toList.drop 2 := by
    decide +kernel
  exact ⟨_, hall flag h⟩

theorem flag_ascii {flag : String} (h : flag ∈ flags) : ∀ c ∈ flag.toList, IsAscii c := by
  have hall : ∀ flag ∈ flags, (flag.toList.all fun c => decide (IsAscii c)) = true := by
    decide +kernel
  exact ascii_of_all (hall flag h)

theorem flag_noComma {flag : String} (h : flag ∈ flags) : ',' ∉ flag.toList := by
  have hall : ∀ flag ∈ flags, ',' ∉ flag.toList := by
    decide +kernel
  exact hall flag h

theorem number_not_flag (n : Int) : toString n ∉ flags := by
  -- The text of a number reads as a number, and two dashes do not.
  intro hmem
  obtain ⟨rest, hdashes⟩ := flag_dashes hmem
  have hread : readInteger n.natAbs n.natAbs (toString n).toList = .ok n :=
    readInteger_toString (by omega) (by omega)
  rw [hdashes, readInteger] at hread
  split at hread
  · cases hread
  · rw [accumulateDigits, if_pos (by decide)] at hread
    cases hread

/-- Two names are joined by a comma. -/
theorem comma_mem_joined (a b : String) (rest : List String) :
    ',' ∈ (String.intercalate "," (a :: b :: rest)).toList := by
  rw [String.intercalate_cons_cons, String.toList_append, String.toList_append]
  exact List.mem_append_left _ (List.mem_append_right _ (by decide))

theorem joined_not_flag {channels : List String} (h : ∀ c ∈ channels, c ∉ flags) :
    String.intercalate "," channels ∉ flags := by
  match channels with
  | [] => decide
  | [c] =>
      rw [String.intercalate_singleton]
      exact h c List.mem_cons_self
  | a :: b :: rest =>
      -- No flag has a comma.
      exact fun hmem => flag_noComma hmem (comma_mem_joined a b rest)

theorem shown_not_flag {p : Path} (h : ∀ flag ∈ flags, p ≠ .ofText flag) : p.shown ∉ flags :=
  fun hmem => h _ hmem (Path.eq_ofText_of_shown rfl (flag_ascii hmem))

/-- An item whose value, if it has one, is no flag. -/
def PlainItem : Item → Prop
  | .flag _ => True
  | .pair _ value => value ∉ flags

/-- The values of a plain request are no flags. -/
theorem Plain.items {r : Request} (h : r.Plain) (c : ServiceConfig) :
    ∀ item ∈ r.items c, PlainItem item := by
  have hwords : ∀ w ∈ words, w ∉ flags := by decide
  intro item hitem
  cases items_cases c r item hitem with
  | flag _ => trivial
  | pair _ origin =>
      cases origin with
      | text mem => exact h.texts _ mem
      | joined csv =>
          subst csv
          exact joined_not_flag fun channel hc => h.texts channel (List.mem_cons_of_mem _ hc)
      | shown mem => exact shown_not_flag (h.paths _ mem)
      | number n => exact number_not_flag n
      | word mem => exact hwords _ mem

/-! ## What is found -/

def callItems (c : ServiceConfig) (service : Nat) (r : Request) : List Item :=
  .pair "--port" (toString service) :: r.items c

theorem noValue_callItems {r : Request} (h : r.Plain) (c : ServiceConfig) (service : Nat)
    {flag : String} (known : flag ∈ flags) : NoValue flag (r.callItems c service) := by
  rintro name value hmem rfl
  rcases List.mem_cons.mp hmem with hport | hitem
  · obtain ⟨-, rfl⟩ := Item.pair.inj hport
    exact number_not_flag service known
  · exact h.items c _ hitem known

/-- Each setting of a request is the value of the first item with its flag, which never stands alone. -/
theorem settings_callItems (c : ServiceConfig) (service : Nat) (r : Request) :
    ∀ p ∈ r.settings c,
      p.1 ∈ flags ∧ .flag p.1 ∉ r.callItems c service
        ∧ (r.callItems c service).findSome? (Item.value? p.1) = p.2.token? := by
  cases r with
  | start name rate =>
      have hnat : ∀ n : Nat, (n : Int).repr = n.repr := fun _ => rfl
      cases hkibbles : c.kibbles <;>
        simp [settings, flags, callItems, Request.items, List.findSome?_cons, Item.value?,
          Setting.token?, hnat, hkibbles]
  | csv channels name dest =>
      cases hfile : c.virtualMetrics <;>
        simp [settings, flags, callItems, Request.items, List.findSome?_cons, Item.value?,
          Setting.token?, Setting.metricsFile, metricsFileItems, hfile]
  | metrics name start? stop? dump =>
      cases start? <;> cases stop? <;> cases hfile : c.virtualMetrics <;>
        simp [settings, flags, callItems, Request.items, List.findSome?_cons, Item.value?,
          Setting.token?, Setting.metricsFile, Setting.bound, boundItems, metricsFileItems,
          hfile]
  | _ =>
      simp [settings, flags, callItems, Request.items, List.findSome?_cons, Item.value?,
        Setting.token?]

theorem foundAs_token (setting : Setting) : setting.FoundAs setting.token? := by
  cases setting with
  | text value => rfl
  | number n => exact ⟨toString n, rfl, fun _ _ low high => readInteger_toString low high⟩
  | omitted => rfl

/-- The two flags that a service configuration decides on stand where the operation wants them. -/
theorem gives_callItems (c : ServiceConfig) (service : Nat) (r : Request) :
    (r.callItems c service).any (Item.gives "--vm_file")
        = (c.virtualMetrics && r.selectsMetricsFile)
      ∧ (r.callItems c service).any (Item.gives "--disk_space_saver")
        = (c.kibbles && r.savesSpace) := by
  cases r with
  | start name rate =>
      cases hkibbles : c.kibbles <;>
        simp [selectsMetricsFile, savesSpace, callItems, Request.items, Item.gives, Item.value?,
          hkibbles]
  | csv channels name dest =>
      cases hfile : c.virtualMetrics <;>
        simp [selectsMetricsFile, savesSpace, callItems, Request.items, Item.gives, Item.value?,
          metricsFileItems, hfile]
  | metrics name start? stop? dump =>
      cases start? <;> cases stop? <;> cases hfile : c.virtualMetrics <;>
        simp [selectsMetricsFile, savesSpace, callItems, Request.items, Item.gives, Item.value?,
          boundItems, metricsFileItems, hfile]
  | _ => simp [selectsMetricsFile, savesSpace, callItems, Request.items, Item.gives, Item.value?]

end Request

/-! ## Calls -/

namespace Client

open Request

variable {σ : Type}

theorem args_callFor (c : Client σ) (r : Request) (limit : Duration) :
    (c.callFor (r.tokens c.config) limit).args
      = (r.callItems c.config c.service).flatMap Call.Item.tokens := by
  rw [callItems, List.flatMap_cons, tokens_items]
  rfl

/-- **A setting is found under its flag.** -/
theorem setting_foundAs (c : Client σ) {r : Request} (plain : r.Plain) (limit : Duration) :
    ∀ p ∈ ("--port", Setting.number c.service) :: r.settings c.config,
      p.2.FoundAs (Call.valueOf p.1 (c.callFor (r.tokens c.config) limit).args) := by
  intro p hp
  rcases List.mem_cons.mp hp with rfl | hp
  · -- The port is the first value of all, whatever the parameters are.
    exact foundAs_token (.number c.service)
  obtain ⟨hflag, halone, hfound⟩ := settings_callItems c.config c.service r p hp
  rw [args_callFor, Call.valueOf_items (noValue_callItems plain c.config c.service hflag) halone,
    hfound]
  exact foundAs_token p.2

/-- **Calls tell their requests.** Equal arguments come from requests alike. In a call for a request
none of whose parameters is a flag, every setting is found under its flag, and the two flags that
the service configuration decides on occur where it and the operation want them. -/
theorem call_tells_request (c : Client σ) :
    (∀ (r s : Request) (limit limit' : Duration),
        (c.callFor (r.tokens c.config) limit).args = (c.callFor (s.tokens c.config) limit').args →
          r.Alike s)
      ∧ ∀ (r : Request) (limit : Duration), r.Plain →
        (∀ p ∈ ("--port", Setting.number c.service) :: r.settings c.config,
            p.2.FoundAs (Call.valueOf p.1 (c.callFor (r.tokens c.config) limit).args))
          ∧ Call.hasFlag "--vm_file" (c.callFor (r.tokens c.config) limit).args
              = (c.config.virtualMetrics && r.selectsMetricsFile)
          ∧ Call.hasFlag "--disk_space_saver" (c.callFor (r.tokens c.config) limit).args
              = (c.config.kibbles && r.savesSpace) := by
  refine ⟨fun r s limit limit' h => ?_, fun r limit plain =>
    ⟨setting_foundAs c plain limit, ?_, ?_⟩⟩
  · have htokens : r.tokens c.config = s.tokens c.config := (List.cons.inj (List.cons.inj h).2).2
    exact alike_of_tokens htokens
  · rw [args_callFor, Call.hasFlag_items (noValue_callItems plain _ _ (by decide)),
      (gives_callItems _ _ r).1]
  · rw [args_callFor, Call.hasFlag_items (noValue_callItems plain _ _ (by decide)),
      (gives_callItems _ _ r).2]

/-- A service with a virtual metrics file. -/
def virtualService : Client (List Answer) where
  binary := .ofText "bits"
  service := 4000
  config := { ServiceConfig.default with virtualMetrics := true }
  limits := .default
  instrument := .scripted {}

/-- Metrics with a lower bound only. -/
def metricsSince : Request := .metrics "a" (some (-5)) none (.ofText "m.yaml")

/-- The channels `a` and `b` make the same call as one channel `a,b`. Of a lower bound alone the upper
one is not found. -/
theorem call_tells_request_metricsSince :
    let args := fun r : Request =>
      (virtualService.callFor (r.tokens virtualService.config) (.ofSecs 60)).args
    let two := Request.csv ["a", "b"] "x" (.ofText "x.csv")
    let one := Request.csv ["a,b"] "x" (.ofText "x.csv")
    args two = args one ∧ two.Alike one
      ∧ metricsSince.Plain
      ∧ Setting.FoundAs (.number (-5)) (Call.valueOf "--abs_start_time" (args metricsSince))
      ∧ Setting.FoundAs .omitted (Call.valueOf "--abs_stop_time" (args metricsSince))
      ∧ Call.hasFlag "--vm_file" (args metricsSince) = true := by
  intro args two one
  have hplain : metricsSince.Plain := ⟨by decide, by decide⟩
  have hjoined : String.intercalate "," ["a", "b"] = String.intercalate "," ["a,b"] := by decide
  have hsame : args two = args one := by simp only [args, two, one, callFor, tokens, hjoined]
  obtain ⟨halike, hfound⟩ := call_tells_request virtualService
  obtain ⟨hsettings, hfile, -⟩ := hfound metricsSince (.ofSecs 60) hplain
  exact ⟨hsame, halike two one (.ofSecs 60) (.ofSecs 60) hsame, hplain,
    hsettings ("--abs_start_time", .number (-5)) (by decide),
    hsettings ("--abs_stop_time", .omitted) (by decide), hfile⟩

end Client

end PowerBench
