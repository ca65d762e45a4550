import PowerBench.FileTree

set_option autoImplicit false

/-! # What a change to a tree leaves alone

Two trees are compared by what stands at each address. `SameBut as t t'` says that they differ at
most at the addresses of `as`; it composes, and an address leaves the list once both trees have
the same node there. Where a path leads for writing depends on the directories alone, so a change
to files leaves it alone too.
-/

namespace PowerBench.FileTree

/-! ## Nodes -/

theorem node?_erase_other (t : FileTree) {a b : Address} (h : a ≠ b) :
    (t.erase b).node? a = t.node? a := by
  cases a with
  | nil => rfl
  | cons x xs => simp [node?, erase, lookup_filter_other h]

/-! ## Trees that differ at a few addresses -/

/-- The trees differ at most at the addresses `as`. -/
structure SameBut (as : List Address) (t t' : FileTree) : Prop where
  here : t'.here = t.here
  node : ∀ b, b ∉ as → t'.node? b = t.node? b

theorem SameBut.refl (as : List Address) (t : FileTree) : SameBut as t t := ⟨rfl, fun _ _ => rfl⟩

theorem SameBut.trans {as bs : List Address} {t t' t'' : FileTree} (h : SameBut as t t')
    (h' : SameBut bs t' t'') : SameBut (as ++ bs) t t'' := by
  refine ⟨h'.here.trans h.here, fun b hb => ?_⟩
  rw [List.mem_append, not_or] at hb
  rw [h'.node b hb.2, h.node b hb.1]

theorem SameBut.mono {as bs : List Address} {t t' : FileTree} (h : SameBut as t t')
    (sub : ∀ a ∈ as, a ∈ bs) : SameBut bs t t' :=
  ⟨h.here, fun b hb => h.node b fun ha => hb (sub b ha)⟩

/-- An address at which nothing has changed need not be listed. -/
theorem SameBut.drop {a : Address} {as : List Address} {t t' : FileTree}
    (h : SameBut (a :: as) t t') (same : t'.node? a = t.node? a) : SameBut as t t' := by
  refine ⟨h.here, fun b hb => ?_⟩
  by_cases hba : b = a
  · rw [hba, same]
  · exact h.node b (by simp [hba, hb])

theorem sameBut_put (t : FileTree) (a : Address) (n : FileNode) : SameBut [a] t (t.put a n) :=
  ⟨rfl, fun _ hb => node?_put_other t n (by simpa using hb)⟩

theorem sameBut_erase (t : FileTree) (a : Address) : SameBut [a] t (t.erase a) :=
  ⟨rfl, fun _ hb => node?_erase_other t (by simpa using hb)⟩

theorem write_output {t : FileTree} {a : Address} (h : t.node? a = some .output) (content : Bytes) :
    t.write a content = t := if_pos h

theorem write_file {t : FileTree} {a : Address} (h : t.node? a ≠ some .output) (content : Bytes) :
    t.write a content = t.put a (.file content) := if_neg h

/-- Writing makes no name of the output, and takes none away. -/
theorem node?_write_output (t : FileTree) {a : Address} (ha : a ≠ []) (content : Bytes) :
    (t.write a content).node? a = some .output ↔ t.node? a = some .output := by
  by_cases h : t.node? a = some .output
  · rw [write_output h]
  · simp [write_file h, node?_put_self t a _ ha, h]

theorem sameBut_write (t : FileTree) (a : Address) (content : Bytes) :
    SameBut [a] t (t.write a content) := by
  by_cases h : t.node? a = some .output
  · rw [write_output h]
    exact SameBut.refl _ t
  · rw [write_file h]
    exact sameBut_put t a _

/-- A file that was not there, and has been erased, leaves no mark. -/
theorem SameBut.erase {a : Address} {as : List Address} {t t' : FileTree}
    (h : SameBut (a :: as) t t') (absent : t.node? a = none) (ha : a ≠ []) :
    SameBut as t (t'.erase a) := by
  have step : SameBut (a :: as) t (t'.erase a) :=
    (h.trans (sameBut_erase t' a)).mono fun b hb => by
      rcases List.mem_append.mp hb with hb | hb
      · exact hb
      · rw [List.mem_singleton.mp hb]
        exact List.mem_cons_self
  exact step.drop (by rw [node?_erase_self t' a ha, absent])

/-! ## Where paths lead -/

theorem SameBut.enter {t t' : FileTree} (h : SameBut [] t t') (dir : Address) (name : Bytes) :
    t'.enter dir name = t.enter dir name := by
  simp only [FileTree.enter, h.node _ List.not_mem_nil]

theorem SameBut.locate {t t' : FileTree} (h : SameBut [] t t') (p : Path) :
    t'.locate p = t.locate p := by
  have walk : t'.enter = t.enter := funext fun dir => funext fun name => h.enter dir name
  simp only [FileTree.locate, FileTree.start, h.here, walk]

/-- Trees that do not differ hold the same under every path. -/
theorem SameBut.content {t t' : FileTree} (h : SameBut [] t t') (p : Path) :
    t'.content p = t.content p := by
  have nodes : ∀ a, t'.node? a = t.node? a := fun a => h.node a List.not_mem_nil
  simp only [FileTree.content, FileTree.fileToRead, h.locate, contentAt?, nodes]

/-- The trees have the same directories. -/
structure SameDirectories (t t' : FileTree) : Prop where
  here : t'.here = t.here
  directory : ∀ a, t'.node? a = some .directory ↔ t.node? a = some .directory

theorem SameDirectories.symm {t t' : FileTree} (h : SameDirectories t t') :
    SameDirectories t' t :=
  ⟨h.here.symm, fun a => (h.directory a).symm⟩

theorem SameBut.directories {a : Address} {t t' : FileTree} (h : SameBut [a] t t')
    (before : t.node? a ≠ some .directory) (after : t'.node? a ≠ some .directory) :
    SameDirectories t t' := by
  refine ⟨h.here, fun b => ?_⟩
  by_cases hb : b = a
  · rw [hb]
    exact iff_of_false after before
  · rw [h.node b (by simpa using hb)]

theorem SameDirectories.enter {t t' : FileTree} (h : SameDirectories t t') {dir dir' : Address}
    {name : Bytes} (hd : t.enter dir name = .ok dir') : t'.enter dir name = .ok dir' := by
  unfold FileTree.enter at hd ⊢
  split at hd
  · rwa [if_pos ‹_›]
  · rw [if_neg ‹_›]
    split at hd
    · rwa [if_pos ‹_›]
    · rw [if_neg ‹_›]
      split at hd
      · cases hd
      · rw [if_neg ‹_›]
        split at hd
        · rename_i hnode
          rwa [(h.directory _).mpr hnode]
        · cases hd
        · cases hd

theorem SameDirectories.walk {t t' : FileTree} (h : SameDirectories t t') (names : List Bytes)
    {dir dir' : Address} (hd : names.foldlM t.enter dir = .ok dir') :
    names.foldlM t'.enter dir = .ok dir' := by
  induction names generalizing dir with
  | nil => exact hd
  | cons name rest ih =>
      rw [List.foldlM_cons] at hd ⊢
      cases hn : t.enter dir name with
      | error e => rw [hn] at hd; cases hd
      | ok d =>
          rw [hn] at hd
          rw [h.enter hn]
          exact ih hd

theorem SameDirectories.locate {t t' : FileTree} (h : SameDirectories t t') {p : Path}
    {place : Place} (hp : t.locate p = .ok place) : t'.locate p = .ok place := by
  unfold FileTree.locate at hp ⊢
  split at hp
  · cases hp
  rw [if_neg ‹_›]
  split at hp
  · cases hp
  rw [if_neg ‹_›]
  split at hp
  · cases hp
  rw [if_neg ‹_›]
  have hstart : t'.start p = t.start p := by simp only [FileTree.start, h.here]
  rw [hstart]
  cases hlast : (names p).getLast? with
  | none => rw [hlast] at hp; exact hp
  | some last =>
      simp only [hlast] at hp ⊢
      cases hw : (names p).dropLast.foldlM t.enter (t.start p) with
      | error e => rw [hw] at hp; cases hp
      | ok dir =>
          rw [hw] at hp
          rw [h.walk _ hw]
          simp only [bind, Except.bind] at hp ⊢
          split at hp
          · rw [if_pos ‹_›]
            cases he : t.enter dir last with
            | error e => rw [he] at hp; cases hp
            | ok d =>
                rw [he] at hp
                rw [h.enter he]
                exact hp
          · rw [if_neg ‹_›]
            exact hp

/-- A path leads to a file for writing when it leads to a name that can be one and is no
directory. -/
theorem fileToWrite_eq_ok_iff (t : FileTree) (p : Path) (a : Address) :
    t.fileToWrite p = .ok a ↔ ∃ dir name, t.locate p = .ok (.entry dir name) ∧
      endsWithSlash p = false ∧ name.length ≤ maxName ∧ a = dir ++ [name] ∧
      t.node? a ≠ some .directory := by
  unfold fileToWrite
  cases t.locate p with
  | error e => simp [bind, Except.bind]
  | ok place =>
      cases place with
      | directory dir => simp [bind, Except.bind]
      | entry dir name =>
          simp only [bind, Except.bind, Except.ok.injEq, Place.entry.injEq]
          constructor
          · intro ha
            split at ha
            · cases ha
            split at ha
            · cases ha
            split at ha
            · cases ha
            · rename_i hslash hlong _ hnode
              obtain rfl : dir ++ [name] = a := Except.ok.inj ha
              exact ⟨dir, name, ⟨rfl, rfl⟩, by simpa using hslash, by omega, rfl, hnode⟩
          · rintro ⟨dir', name', ⟨rfl, rfl⟩, hslash, hlen, rfl, hnode⟩
            rw [if_neg (by simp [hslash]), if_neg (by omega)]
            cases hn : t.node? (dir ++ [name]) with
            | none => rfl
            | some n =>
                cases n with
                | file bytes => rfl
                | output => rfl
                | directory => exact absurd hn hnode

theorem fileToWrite_ne_nil {t : FileTree} {p : Path} {a : Address}
    (h : t.fileToWrite p = .ok a) : a ≠ [] := by
  obtain ⟨dir, name, -, -, -, rfl, -⟩ := (fileToWrite_eq_ok_iff t p a).mp h
  simp

/-- Where a path leads for writing depends on the directories alone. -/
theorem SameDirectories.fileToWrite {t t' : FileTree} (h : SameDirectories t t') {p : Path}
    {a : Address} (ha : t.fileToWrite p = .ok a) : t'.fileToWrite p = .ok a := by
  obtain ⟨dir, name, hp, hslash, hlen, ha', hnode⟩ := (fileToWrite_eq_ok_iff t p a).mp ha
  refine (fileToWrite_eq_ok_iff t' p a).mpr
    ⟨dir, name, h.locate hp, hslash, hlen, ha', fun hd => hnode ((h.directory a).mp hd)⟩

/-- What a path that leads to a file for writing reads as. -/
theorem content_of_fileToWrite {t : FileTree} {p : Path} {a : Address} {bytes : Bytes}
    (ha : t.fileToWrite p = .ok a) (hnode : t.node? a = some (.file bytes)) :
    t.content p = .ok bytes := by
  obtain ⟨dir, name, hp, hslash, hlen, rfl, -⟩ := (fileToWrite_eq_ok_iff t p _).mp ha
  have hread : t.fileToRead p = .ok (dir ++ [name]) := by
    simp only [fileToRead, hp, bind, Except.bind]
    rw [if_neg (by omega), hnode]
    simp [hslash]
  simp [content, hread, bind, Except.bind, pure, Except.pure, contentAt?, hnode]

end PowerBench.FileTree
