import PowerBench.Yaml.Event

/-!
# YAML documents

The first document of a stream as a tree. Aliases are replaced by what they stand for. Where the
document breaks off, or where it nests or repeats more than it may, the tree has a `cut` with the
cause: a reader that reaches the cut fails with that cause, and one that fails before does not
notice it.
-/

set_option autoImplicit false

namespace PowerBench.Yaml

/-- Why a document cannot be read to its end. -/
inductive Cut where
  | syntaxError
  | unknownAnchor
  | endOfStream
  | tooDeep
  | tooManyRepetitions
deriving DecidableEq, Repr

/-- A document as a tree. `absent` is the content of a stream without documents. -/
inductive Node where
  | scalar (tag : Tag) (text : String) (plain : Bool)
  | sequence (tag : Tag) (items : List Node)
  | mapping (tag : Tag) (entries : List (Node × Node))
  | absent
  | cut (cause : Cut)
deriving Repr, Inhabited

/-- The first document of a stream, the fault that ends it, and whether anything comes after it. -/
structure Document where
  root : Node
  fault? : Option Cut
  more : Bool
deriving Repr

/-! ## The events of one document -/

/-- A node's start, with an alias resolved to the number of its anchor. -/
inductive Step where
  | alias (anchor : Nat)
  | event (e : Event)
deriving Repr

/-- The events of a document as they are read. Anchors are numbered by how many names are known when
they are set; an alias refers to the number that its name had last, and so to the node that was given
this number last. -/
structure Recording where
  steps : Array Step := #[]
  names : List (String × Nat) := []
  targets : List (Nat × Nat) := []

namespace Recording

def anchorOf : Event → Option String
  | .scalar a _ _ _ => a
  | .sequenceStart a _ => a
  | .mappingStart a _ => a
  | _ => none

def add (r : Recording) (e : Event) : Recording :=
  let r := match anchorOf e with
    | none => r
    | some a =>
      let number := r.names.length
      { r with names := (a, number) :: r.names.filter (·.1 != a),
               targets := (number, r.steps.size) :: r.targets }
  { r with steps := r.steps.push (.event e) }

/-- The events up to the end of the document, the fault that stops them, and the events after it. -/
def ofEvents (malformed : Bool) : Recording → List Event → Recording × Option Cut × List Event
  | r, [] => (r, if malformed then some .syntaxError else none, [])
  | r, e :: es =>
    match e with
    | .documentStart => ofEvents malformed r es
    | .documentEnd => (r, none, es)
    | .alias name =>
      match r.names.lookup name with
      | none => (r, some .unknownAnchor, es)
      | some number =>
        ofEvents malformed { r with steps := r.steps.push (.alias number) } es
    | _ => ofEvents malformed (r.add e) es

end Recording

/-! ## The tree -/

/-- How far the tree has been built: the next event, and how many aliases were followed. -/
structure Progress where
  next : Nat
  followed : Nat

/-- The events to build from, and what stands where they run out. -/
structure Source where
  steps : Array Step
  targets : List (Nat × Nat)
  ending : Cut

namespace Source

/-- Where building stops after a cut. -/
def stopped (s : Source) (p : Progress) : Progress := { p with next := s.steps.size }

def items (s : Source) (node : Progress → Node × Progress) :
    Nat → Progress → List Node × Progress
  | 0, p => ([.cut s.ending], s.stopped p)
  | fuel + 1, p =>
    match s.steps[p.next]? with
    | none => ([.cut s.ending], s.stopped p)
    | some (.event .sequenceEnd) => ([], { p with next := p.next + 1 })
    | some _ =>
      let (item, p) := node p
      let (rest, p) := items s node fuel p
      (item :: rest, p)

def entries (s : Source) (node : Progress → Node × Progress) :
    Nat → Progress → List (Node × Node) × Progress
  | 0, p => ([(.cut s.ending, .cut s.ending)], s.stopped p)
  | fuel + 1, p =>
    match s.steps[p.next]? with
    | none => ([(.cut s.ending, .cut s.ending)], s.stopped p)
    | some (.event .mappingEnd) => ([], { p with next := p.next + 1 })
    | some _ =>
      let (key, p) := node p
      let (value, p) := node p
      let (rest, p) := entries s node fuel p
      ((key, value) :: rest, p)

/-- The node that an event starts, where collections may nest `depth` levels. -/
def started (s : Source) : Nat → Event → Progress → Node × Progress
  | _, .scalar _ tag text plain, p => (.scalar tag text plain, p)
  | 0, _, p => (.cut .tooDeep, s.stopped p)
  | depth + 1, e, p =>
    let node (p : Progress) : Node × Progress :=
      match s.steps[p.next]? with
      | none => (.cut s.ending, s.stopped p)
      | some (.event e) => started s depth e { p with next := p.next + 1 }
      | some (.alias number) =>
        if s.steps.size * 100 < p.followed + 1 then (.cut .tooManyRepetitions, s.stopped p)
        else
          match (s.targets.lookup number).bind fun i => s.steps[i]?.map fun t => (i, t) with
          | some (i, .event e) =>
            let (n, q) := started s depth e ⟨i + 1, p.followed + 1⟩
            (n, ⟨p.next + 1, q.followed⟩)
          | _ => (.cut .unknownAnchor, s.stopped p)
    match e with
    | .sequenceStart _ tag =>
      let (xs, p) := s.items node (s.steps.size + 1) p
      (.sequence tag xs, p)
    | .mappingStart _ tag =>
      let (es, p) := s.entries node (s.steps.size + 1) p
      (.mapping tag es, p)
    | _ => (.cut s.ending, s.stopped p)

def maxDepth : Nat := 128

def root (s : Source) : Node :=
  match (s.steps[0]? : Option Step) with
  | some (.event e) => (s.started maxDepth e ⟨1, 0⟩).1
  | _ => .cut s.ending

end Source

def Document.ofText (cs : List Char) : Document :=
  let stream := Stream.ofText cs
  let (r, fault?, after) := Recording.ofEvents stream.malformed {} stream.events
  let root :=
    if r.steps.isEmpty && fault?.isNone then .absent
    else (Source.mk r.steps r.targets (fault?.getD .endOfStream)).root
  { root, fault?, more := !after.isEmpty || (fault?.isNone && stream.malformed) }

end PowerBench.Yaml
