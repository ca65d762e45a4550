import Mathlib.Data.List.Forall2
import PowerBench.Yaml.Node

set_option autoImplicit false

/-! # Trees of documents

The tree of a document spells the document's steps from the first one on: each node starts where the
one before it ends, a sequence and a mapping last up to their own end, and an alias stands for what
its target starts. Where the steps cannot be followed the tree has a cut, so a tree without cuts
leaves nothing out and makes nothing up (`spells_root`).
-/

namespace PowerBench.Yaml

/-- A tree without a cut. -/
inductive Node.Whole : Node → Prop
  | scalar (tag : Tag) (text : String) (plain : Bool) : Whole (.scalar tag text plain)
  | sequence {tag : Tag} {items : List Node} (all : ∀ n ∈ items, Whole n) :
      Whole (.sequence tag items)
  | mapping {tag : Tag} {entries : List (Node × Node)} (keys : ∀ e ∈ entries, Whole e.1)
      (values : ∀ e ∈ entries, Whole e.2) : Whole (.mapping tag entries)
  | absent : Whole .absent

namespace Source

variable (s : Source)

mutual

/-- The steps from one place up to another spell a node. -/
inductive Spells : Nat → Node → Nat → Prop
  | scalar {i : Nat} {anchor? : Option String} {tag : Tag} {text : String} {plain : Bool}
      (here : s.steps[i]? = some (.event (.scalar anchor? tag text plain))) :
      Spells i (.scalar tag text plain) (i + 1)
  | sequence {i j : Nat} {anchor? : Option String} {tag : Tag} {items : List Node}
      (here : s.steps[i]? = some (.event (.sequenceStart anchor? tag)))
      (all : SpellsItems (i + 1) items j) : Spells i (.sequence tag items) j
  | mapping {i j : Nat} {anchor? : Option String} {tag : Tag} {entries : List (Node × Node)}
      (here : s.steps[i]? = some (.event (.mappingStart anchor? tag)))
      (all : SpellsEntries (i + 1) entries j) : Spells i (.mapping tag entries) j
  | alias {i number target j : Nat} {n : Node} (here : s.steps[i]? = some (.alias number))
      (known : s.targets.lookup number = some target) (there : Spells target n j) :
      Spells i n (i + 1)

/-- The steps spell items up to the end of their sequence. -/
inductive SpellsItems : Nat → List Node → Nat → Prop
  | done {i : Nat} (here : s.steps[i]? = some (.event .sequenceEnd)) : SpellsItems i [] (i + 1)
  | item {i j k : Nat} {n : Node} {rest : List Node} (head : Spells i n j)
      (tail : SpellsItems j rest k) : SpellsItems i (n :: rest) k

/-- The steps spell entries up to the end of their mapping. -/
inductive SpellsEntries : Nat → List (Node × Node) → Nat → Prop
  | done {i : Nat} (here : s.steps[i]? = some (.event .mappingEnd)) : SpellsEntries i [] (i + 1)
  | entry {i j k l : Nat} {key value : Node} {rest : List (Node × Node)} (left : Spells i key j)
      (right : Spells j value k) (tail : SpellsEntries k rest l) :
      SpellsEntries i ((key, value) :: rest) l

end

/-! ## Building -/

/-- A way to build nodes that spells what is next. -/
def Faithful (node : Progress → Node × Progress) : Prop :=
  ∀ p, (node p).1.Whole → s.Spells p.next (node p).1 (node p).2.next

variable {s} {node : Progress → Node × Progress}

theorem spells_items (faithful : s.Faithful node) (fuel : Nat) (p : Progress)
    (whole : ∀ n ∈ (s.items node fuel p).1, n.Whole) :
    s.SpellsItems p.next (s.items node fuel p).1 (s.items node fuel p).2.next := by
  induction fuel generalizing p with
  | zero => cases whole (.cut s.ending) List.mem_cons_self
  | succ fuel ih =>
      rw [Source.items] at whole ⊢
      split at whole
      · cases whole (.cut s.ending) List.mem_cons_self
      · rename_i hstep
        exact .done hstep
      · obtain ⟨hhead, hrest⟩ := List.forall_mem_cons.mp whole
        exact .item (faithful p hhead) (ih _ hrest)

theorem spells_entries (faithful : s.Faithful node) (fuel : Nat) (p : Progress)
    (whole : ∀ e ∈ (s.entries node fuel p).1, e.1.Whole ∧ e.2.Whole) :
    s.SpellsEntries p.next (s.entries node fuel p).1 (s.entries node fuel p).2.next := by
  induction fuel generalizing p with
  | zero => cases (whole (.cut s.ending, .cut s.ending) List.mem_cons_self).1
  | succ fuel ih =>
      rw [Source.entries] at whole ⊢
      split at whole
      · cases (whole (.cut s.ending, .cut s.ending) List.mem_cons_self).1
      · rename_i hstep
        exact .done hstep
      · obtain ⟨⟨hkey, hvalue⟩, hrest⟩ := List.forall_mem_cons.mp whole
        exact .entry (faithful p hkey) (faithful _ hvalue) (ih _ hrest)

/-- The node that comes next where collections may nest `depth` more levels: how `started` builds the
parts of a collection. -/
def child (s : Source) (depth : Nat) (p : Progress) : Node × Progress :=
  match s.steps[p.next]? with
  | none => (.cut s.ending, s.stopped p)
  | some (.event e) => s.started depth e { p with next := p.next + 1 }
  | some (.alias number) =>
    if s.steps.size * 100 < p.followed + 1 then (.cut .tooManyRepetitions, s.stopped p)
    else
      match (s.targets.lookup number).bind fun i => s.steps[i]?.map fun t => (i, t) with
      | some (i, .event e) =>
        let (n, q) := s.started depth e ⟨i + 1, p.followed + 1⟩
        (n, ⟨p.next + 1, q.followed⟩)
      | _ => (.cut .unknownAnchor, s.stopped p)

theorem started_sequence (depth : Nat) (anchor? : Option String) (tag : Tag) (p : Progress) :
    s.started (depth + 1) (.sequenceStart anchor? tag) p
      = (.sequence tag (s.items (s.child depth) (s.steps.size + 1) p).1,
          (s.items (s.child depth) (s.steps.size + 1) p).2) := by
  rw [started]
  rfl

theorem started_mapping (depth : Nat) (anchor? : Option String) (tag : Tag) (p : Progress) :
    s.started (depth + 1) (.mappingStart anchor? tag) p
      = (.mapping tag (s.entries (s.child depth) (s.steps.size + 1) p).1,
          (s.entries (s.child depth) (s.steps.size + 1) p).2) := by
  rw [started]
  rfl

/-- Nodes that come next are spelled where the nodes that events start are. -/
theorem faithful_child {depth : Nat}
    (started : ∀ {e : Event} {i : Nat} {p : Progress}, s.steps[i]? = some (.event e) →
      p.next = i + 1 → (s.started depth e p).1.Whole →
      s.Spells i (s.started depth e p).1 (s.started depth e p).2.next) :
    s.Faithful (s.child depth) := by
  intro p whole
  unfold child at whole ⊢
  split at whole
  · cases whole
  · rename_i e hstep
    exact started hstep rfl whole
  · rename_i number hstep
    split at whole
    · cases whole
    · rename_i hfew
      rw [if_neg hfew]
      split at whole
      · -- The target is an event, so that the hypothesis applies there; only the place is another.
        rename_i target e htarget
        obtain ⟨i, hknown, hthere⟩ := Option.bind_eq_some_iff.mp htarget
        obtain ⟨step, hevent, hpair⟩ := Option.map_eq_some_iff.mp hthere
        obtain ⟨rfl, rfl⟩ := Prod.mk.inj hpair
        exact .alias hstep hknown (started hevent rfl whole)
      · cases whole

/-- What an event starts is spelled from the event on. -/
theorem spells_started (depth : Nat) {e : Event} {i : Nat} {p : Progress}
    (here : s.steps[i]? = some (.event e)) (next : p.next = i + 1)
    (whole : (s.started depth e p).1.Whole) :
    s.Spells i (s.started depth e p).1 (s.started depth e p).2.next := by
  induction depth generalizing e i p with
  | zero =>
      cases e with
      | scalar anchor? tag text plain =>
          rw [started, next]
          exact .scalar here
      | _ => cases whole
  | succ depth ih =>
      have hchild : s.Faithful (s.child depth) := faithful_child ih
      cases e with
      | scalar anchor? tag text plain =>
          rw [started, next]
          exact .scalar here
      | sequenceStart anchor? tag =>
          rw [started_sequence] at whole ⊢
          cases whole with
          | sequence all => exact .sequence here (next ▸ spells_items hchild _ p all)
      | mappingStart anchor? tag =>
          rw [started_mapping] at whole ⊢
          cases whole with
          | mapping keys values =>
              exact .mapping here
                (next ▸ spells_entries hchild _ p fun e he => ⟨keys e he, values e he⟩)
      | _ => cases whole

/-- **Trees spell steps.** -/
theorem spells_root (whole : s.root.Whole) : ∃ stop, s.Spells 0 s.root stop := by
  unfold root at whole ⊢
  split at whole
  · rename_i e hfirst
    exact ⟨_, spells_started maxDepth hfirst rfl whole⟩
  · cases whole

end Source

/-! ## Steps and events -/

/-- The events of the first document of a stream. -/
def firstDocument (es : List Event) : List Event :=
  (es.takeWhile (· ≠ .documentEnd)).filter (· ≠ .documentStart)

/-- A step records an event; an alias has the number of its anchor instead of the name. -/
inductive Step.Records : Step → Event → Prop
  | event (e : Event) : Records (.event e) e
  | alias (name : String) (number : Nat) : Records (.alias number) (.alias name)

theorem Recording.toList_push {r : Recording} {before : List Event} {step : Step} {e : Event}
    (recorded : List.Forall₂ Step.Records r.steps.toList before) (records : step.Records e) :
    List.Forall₂ Step.Records (r.steps.push step).toList (before ++ [e]) := by
  rw [Array.toList_push]
  exact List.rel_append recorded (.cons records .nil)

theorem Recording.steps_add (r : Recording) (e : Event) :
    (r.add e).steps = r.steps.push (.event e) := by
  unfold add
  cases anchorOf e <;> rfl

theorem firstDocument_cons {e : Event} (start : e ≠ .documentStart) (ending : e ≠ .documentEnd)
    (es : List Event) : firstDocument (e :: es) = e :: firstDocument es := by
  simp [firstDocument, start, ending]

/-- Without a fault, all events of the document are recorded. -/
theorem Recording.ofEvents_records {malformed : Bool} {r r' : Recording} {es after : List Event}
    {before : List Event} (recorded : List.Forall₂ Step.Records r.steps.toList before)
    (h : ofEvents malformed r es = (r', none, after)) :
    List.Forall₂ Step.Records r'.steps.toList (before ++ firstDocument es) := by
  induction es generalizing r before with
  | nil =>
      obtain rfl := (Prod.mk.inj h).1
      rwa [firstDocument, List.takeWhile_nil, List.filter_nil, List.append_nil]
  | cons e rest ih =>
      -- All events but the marks of documents are recorded in the same way.
      have hmore : ∀ {step : Step} {next : Recording}, e ≠ .documentStart → e ≠ .documentEnd →
          step.Records e → next.steps = r.steps.push step →
          ofEvents malformed next rest = (r', none, after) →
          List.Forall₂ Step.Records r'.steps.toList (before ++ firstDocument (e :: rest)) := by
        intro step next start ending records hpush hrest
        have hnext := toList_push recorded records
        rw [← hpush] at hnext
        have hall := ih hnext hrest
        rwa [List.append_assoc, List.singleton_append, ← firstDocument_cons start ending] at hall
      cases e with
      | documentStart => exact ih recorded h
      | documentEnd =>
          obtain rfl := (Prod.mk.inj h).1
          have hnone : firstDocument (.documentEnd :: rest) = [] := by simp [firstDocument]
          rwa [hnone, List.append_nil]
      | «alias» name =>
          rw [ofEvents] at h
          cases hnumber : r.names.lookup name with
          | none =>
              rw [hnumber] at h
              cases h
          | some number =>
              rw [hnumber] at h
              exact hmore (by simp) (by simp) (.alias name number) rfl h
      | scalar anchor? tag text plain =>
          exact hmore (by simp) (by simp) (.event _) (steps_add r _) h
      | sequenceStart anchor? tag =>
          exact hmore (by simp) (by simp) (.event _) (steps_add r _) h
      | sequenceEnd => exact hmore (by simp) (by simp) (.event _) (steps_add r _) h
      | mappingStart anchor? tag =>
          exact hmore (by simp) (by simp) (.event _) (steps_add r _) h
      | mappingEnd => exact hmore (by simp) (by simp) (.event _) (steps_add r _) h

/-! ## Documents -/

/-- What the first document of a text is built from. -/
def Source.ofText (cs : List Char) : Source :=
  let r := (Recording.ofEvents (Stream.ofText cs).malformed {} (Stream.ofText cs).events).1
  ⟨r.steps, r.targets, .endOfStream⟩

/-- A tree is what the events of a text's first document spell. -/
def Document.Spelled (cs : List Char) (root : Node) : Prop :=
  List.Forall₂ Step.Records (Source.ofText cs).steps.toList
      (firstDocument (Stream.ofText cs).events)
    ∧ ∃ stop, (Source.ofText cs).Spells 0 root stop

/-- **The tree of a document.** Where a document has no fault and its tree no cut, the events of the
document spell the tree. -/
theorem Document.spelled_of_whole {cs : List Char} {root : Node} {more : Bool}
    (h : Document.ofText cs = ⟨root, none, more⟩) (written : root ≠ .absent) (whole : root.Whole) :
    Document.Spelled cs root := by
  rcases hrecorded : Recording.ofEvents (Stream.ofText cs).malformed {} (Stream.ofText cs).events
    with ⟨r, fault?, after⟩
  unfold Document.ofText at h
  dsimp only at h
  rw [hrecorded] at h
  obtain ⟨hroot, rfl, -⟩ := Document.mk.inj h
  have hsource : Source.ofText cs = ⟨r.steps, r.targets, .endOfStream⟩ := by
    rw [Source.ofText, hrecorded]
  rw [Spelled, hsource]
  refine ⟨Recording.ofEvents_records .nil hrecorded, ?_⟩
  split at hroot
  · exact absurd hroot.symm written
  · obtain rfl := hroot
    exact Source.spells_root whole

end PowerBench.Yaml
