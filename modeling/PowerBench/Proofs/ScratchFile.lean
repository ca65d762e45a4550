import PowerBench.Proofs.FileTree
import PowerBench.Proofs.LossyText
import PowerBench.Session

set_option autoImplicit false

/-! # Scratch files

A scratch file is made under a name that is not in use, and its path leads to it. So a step that
works on a scratch file meets what the instrument left there (`content_affect`), and once the file
is erased the tree is the one from before, but for what the step itself has done
(`SameBut.erase`).
-/

namespace PowerBench

theorem Utf8.encode_append (a b : String) :
    Utf8.encode (a ++ b) = Utf8.encode a ++ Utf8.encode b := by
  simp [Utf8.encode, Utf8.encodeChars, String.toList_append]

namespace FileTree

/-! ## Plain names -/

/-- A name that stands for itself wherever it occurs in a path. -/
structure PlainName (name : Bytes) : Prop where
  nonempty : name ≠ []
  notSelf : name ≠ self
  notParent : name ≠ parent
  noSlash : slash ∉ name
  noZero : 0 ∉ name
  short : name.length ≤ maxName

theorem splitSlashes_of_noSlash {name : Bytes} (h : slash ∉ name) :
    splitSlashes name = [name] := by
  induction name with
  | nil => rfl
  | cons b bs ih =>
      rw [List.mem_cons, not_or] at h
      have hb : (b == slash) = false := by simpa using Ne.symm h.1
      simp [splitSlashes, ih h.2, hb]

theorem splitSlashes_append_slash {name : Bytes} (h : slash ∉ name) (rest : Bytes) :
    splitSlashes (name ++ slash :: rest) = name :: splitSlashes rest := by
  induction name with
  | nil =>
      cases hr : splitSlashes rest with
      | nil =>
          cases rest with
          | nil => simp [splitSlashes] at hr
          | cons b bs =>
              rw [splitSlashes] at hr
              split at hr
              · split at hr <;> simp at hr
              · simp at hr
      | cons piece pieces => simp [splitSlashes, hr]
  | cons b bs ih =>
      rw [List.mem_cons, not_or] at h
      have hb : (b == slash) = false := by simpa using Ne.symm h.1
      simp [splitSlashes, ih h.2, hb]

/-- The path of a plain name in a directory with a plain name at the root. -/
def twoNames (dir name : Bytes) : Path := ⟨slash :: (dir ++ slash :: name)⟩

theorem names_twoNames {dir name : Bytes} (hdir : PlainName dir) (hname : PlainName name) :
    names (twoNames dir name) = [dir, name] := by
  have hsplit : splitSlashes (slash :: (dir ++ slash :: name)) = [[], dir, name] := by
    have h := @splitSlashes_append_slash [] List.not_mem_nil (dir ++ slash :: name)
    rw [splitSlashes_append_slash hdir.noSlash, splitSlashes_of_noSlash hname.noSlash] at h
    simpa using h
  have hd : dir.isEmpty = false := by simpa using hdir.nonempty
  have hn : name.isEmpty = false := by simpa using hname.nonempty
  simp [names, twoNames, hsplit, hd, hn]

/-- Where such a path leads, if the directory is there. -/
theorem locate_twoNames {t : FileTree} {dir name : Bytes} (hdir : PlainName dir)
    (hname : PlainName name) (there : t.node? [dir] = some .directory) :
    t.locate (twoNames dir name) = .ok (.entry [dir] name) := by
  have hzero : (twoNames dir name).bytes.contains 0 = false := by
    have h0 : (0 : UInt8) ≠ slash := by decide
    simp [twoNames, hdir.noZero, hname.noZero, h0]
  have hlen : ¬ maxPath < (twoNames dir name).bytes.length := by
    have := hdir.short
    have := hname.short
    simp only [twoNames, maxName, maxPath, List.length_append, List.length_cons] at *
    omega
  have hstart : t.start (twoNames dir name) = [] := by
    simp [start, isAbsolute, twoNames]
  have henter : t.enter [] dir = .ok [dir] := by
    unfold enter
    rw [if_neg hdir.notSelf, if_neg hdir.notParent, if_neg (Nat.not_lt.mpr hdir.short)]
    simp [there]
  unfold locate
  rw [hzero, names_twoNames hdir hname, hstart, if_neg (by decide),
    if_neg (by simp [twoNames]), if_neg hlen]
  simp [henter, bind, Except.bind, pure, Except.pure, hname.notSelf, hname.notParent]

theorem endsWithSlash_twoNames {dir name : Bytes} (hname : PlainName name) :
    endsWithSlash (twoNames dir name) = false := by
  have hlast : ∀ b, name.getLast? = some b → b ≠ slash := fun b hb hs =>
    hname.noSlash (hs ▸ List.mem_of_getLast? hb)
  cases hn : name.getLast? with
  | none => exact absurd (List.getLast?_eq_none_iff.mp hn) hname.nonempty
  | some b =>
      have : (slash :: (dir ++ slash :: name)).getLast? = some b := by
        rw [List.getLast?_cons, List.getLast?_append, List.getLast?_cons, hn]
        simp
      simpa [endsWithSlash, twoNames, this] using hlast b hn

/-- What such a path reads as. -/
theorem fileToRead_twoNames {t : FileTree} {dir name : Bytes} (hdir : PlainName dir)
    (hname : PlainName name) (there : t.node? [dir] = some .directory) :
    t.fileToRead (twoNames dir name) = match t.node? [dir, name] with
      | none => .error .missing
      | some .directory => .error .isDirectory
      | some .output => .error .denied
      | some (.file _) => .ok [dir, name] := by
  unfold fileToRead
  rw [locate_twoNames hdir hname there, endsWithSlash_twoNames hname]
  simp only [bind, Except.bind, if_neg (Nat.not_lt.mpr hname.short)]
  rfl

/-- Where such a path leads for writing. -/
theorem fileToWrite_twoNames {t : FileTree} {dir name : Bytes} (hdir : PlainName dir)
    (hname : PlainName name) (there : t.node? [dir] = some .directory)
    (free : t.node? [dir, name] ≠ some .directory) :
    t.fileToWrite (twoNames dir name) = .ok [dir, name] :=
  (fileToWrite_eq_ok_iff t _ _).mpr ⟨[dir], name, locate_twoNames hdir hname there,
    endsWithSlash_twoNames hname, hname.short, rfl, free⟩

end FileTree

namespace Session

open FileTree

variable {σ : Type}

/-! ## Names of scratch files -/

/-- A character of tags is one byte, and neither a slash nor zero. -/
theorem encodeChar_tagCharacter :
    ∀ c ∈ tagCharacters,
      (Utf8.encodeChar c).length = 1 ∧ slash ∉ Utf8.encodeChar c ∧ 0 ∉ Utf8.encodeChar c := by
  have h : (tagCharacters.all fun c => (Utf8.encodeChar c).length == 1
      && !(Utf8.encodeChar c).contains slash && !(Utf8.encodeChar c).contains 0) = true := by
    decide +kernel
  intro c hc
  have hc' := List.all_eq_true.mp h c hc
  simpa [Bool.and_eq_true, and_assoc] using hc'

theorem tagCharacter_mem (k : Nat) : tagCharacters.getD (k % 62) '0' ∈ tagCharacters := by
  have hk : k % 62 < tagCharacters.length := by
    have : tagCharacters.length = 62 := by decide
    omega
  rw [List.getD_eq_getElem?_getD, List.getElem?_eq_getElem hk]
  exact List.getElem_mem hk

theorem encodeChars_tagCharacters (cs : List Char) (h : ∀ c ∈ cs, c ∈ tagCharacters) :
    (Utf8.encodeChars cs).length = cs.length ∧ slash ∉ Utf8.encodeChars cs
      ∧ 0 ∉ Utf8.encodeChars cs := by
  induction cs with
  | nil => simp [Utf8.encodeChars]
  | cons c cs ih =>
      obtain ⟨hlen, hslash, hzero⟩ := ih fun d hd => h d (by simp [hd])
      obtain ⟨hlen', hslash', hzero'⟩ := encodeChar_tagCharacter c (h c (by simp))
      simp only [Utf8.encodeChars, List.flatMap_cons, List.length_append, List.mem_append,
        List.length_cons] at *
      exact ⟨by omega, by simp [hslash, hslash'], by simp [hzero, hzero']⟩

theorem encode_scratchTag (n : Nat) :
    (Utf8.encode (scratchTag n)).length = 6 ∧ slash ∉ Utf8.encode (scratchTag n)
      ∧ 0 ∉ Utf8.encode (scratchTag n) := by
  have h := encodeChars_tagCharacters
    ((List.range 6).map fun i => tagCharacters.getD (n / Nat.pow 62 i % 62) '0') (by
      intro c hc
      obtain ⟨i, -, rfl⟩ := List.mem_map.mp hc
      exact tagCharacter_mem _)
  simpa [Utf8.encode, scratchTag] using h

/-- The two ends of the names of a kind are plain, and the first letter is no dot. -/
theorem kind_plain (kind : ScratchKind) :
    (∃ rest, Utf8.encode kind.opening = 98 :: rest) ∧ (Utf8.encode kind.opening).length ≤ 12
      ∧ (Utf8.encode kind.ending).length ≤ 5
      ∧ slash ∉ Utf8.encode kind.opening ∧ slash ∉ Utf8.encode kind.ending
      ∧ 0 ∉ Utf8.encode kind.opening ∧ 0 ∉ Utf8.encode kind.ending := by
  cases kind with
  | dump =>
      exact ⟨⟨Utf8.encode "its_metrics", by decide⟩, by decide, by decide, by decide, by decide,
        by decide, by decide⟩
  | rows =>
      exact ⟨⟨Utf8.encode "its_csv_", by decide⟩, by decide, by decide, by decide, by decide,
        by decide, by decide⟩

theorem Scratch.plainName (s : Scratch) : PlainName (Utf8.encode s.name) := by
  obtain ⟨⟨rest, hopen⟩, hlo, hle, hso, hse, hzo, hze⟩ := kind_plain s.kind
  obtain ⟨hlt, hst, hzt⟩ := encode_scratchTag s.number
  have hname : Utf8.encode s.name
      = Utf8.encode s.kind.opening ++ Utf8.encode (scratchTag s.number)
        ++ Utf8.encode s.kind.ending := by
    rw [Scratch.name, Utf8.encode_append, Utf8.encode_append]
  have hlen : 1 < (Utf8.encode s.name).length ∧ (Utf8.encode s.name).length ≤ maxName := by
    simp only [hname, List.length_append, maxName]
    omega
  have hhead : (Utf8.encode s.name).head? = some 98 := by simp [hname, hopen]
  refine ⟨?_, ?_, ?_, ?_, ?_, hlen.2⟩
  · intro h
    simp [h] at hhead
  · intro h
    simp [h, self] at hhead
  · intro h
    simp [h, parent] at hhead
  · simp [hname, hso, hst, hse]
  · simp [hname, hzo, hzt, hze]

theorem plainName_tmp : PlainName (Utf8.encode "tmp") :=
  ⟨by decide, by decide, by decide, by decide, by decide, by decide⟩

theorem Scratch.path_eq (s : Scratch) :
    s.path = twoNames (Utf8.encode "tmp") (Utf8.encode s.name) := by
  have h : Utf8.encode "/tmp/" = slash :: Utf8.encode "tmp" ++ [slash] := by decide
  simp [Scratch.path, Path.ofText, Utf8.encode_append, twoNames, h]

theorem Scratch.address_ne_nil (s : Scratch) : s.address ≠ [] := by simp [Scratch.address]

theorem Scratch.address_ne_directory (s : Scratch) : scratchDirectory ≠ s.address := by
  simp [Scratch.address]

theorem Scratch.fileToRead (s : Scratch) {t : FileTree}
    (there : t.node? scratchDirectory = some .directory) :
    t.fileToRead s.path = match t.node? s.address with
      | none => .error .missing
      | some .directory => .error .isDirectory
      | some .output => .error .denied
      | some (.file _) => .ok s.address := by
  rw [s.path_eq]
  exact fileToRead_twoNames plainName_tmp s.plainName there

/-- It is what its argument names. -/
theorem Scratch.told_path (s : Scratch) : s.path.told = s.path :=
  congrArg Path.ofText (Path.shown_ofText _)

/-! ## Making scratch files -/

theorem freshScratch?_eq_some {files : FileTree} {kind : ScratchKind} {tries n : Nat}
    {scratch : Scratch} (h : freshScratch? files kind tries n = some scratch) :
    scratch.kind = kind ∧ files.node? scratch.address = none := by
  induction tries generalizing n with
  | zero => cases h
  | succ tries ih =>
      rw [freshScratch?] at h
      split at h
      · rename_i absent
        obtain rfl : Scratch.mk kind n = scratch := Option.some.inj h
        exact ⟨rfl, by simpa using absent⟩
      · exact ih h

/-- A scratch file that has been made is empty, and nothing stood in its place. -/
theorem makeScratch_eq_ok {s made : Session σ} {kind : ScratchKind} {scratch : Scratch}
    (h : s.makeScratch kind = .ok (scratch, made)) :
    scratch.kind = kind ∧ s.files.node? scratchDirectory = some .directory
      ∧ s.files.node? scratch.address = none
      ∧ made = { s with
          files := s.files.put scratch.address (.file []), scratch := scratch.number + 1 } := by
  unfold makeScratch at h
  split at h
  · rename_i there
    split at h
    · rename_i fresh
      obtain ⟨rfl, rfl⟩ := Prod.mk.inj (Except.ok.inj h)
      obtain ⟨hkind, habsent⟩ := freshScratch?_eq_some fresh
      exact ⟨hkind, there, habsent, rfl⟩
    · cases h
  · cases h
  · cases h

end Session

/-! ## What the instrument leaves in a scratch file -/

/-- What is in a file, empty at first, after the instrument's answer; nothing when it is gone. -/
def FileEffect.content? : FileEffect → Option Bytes
  | .keep => some []
  | .write content => some content
  | .remove => none

theorem FileEffect.sameBut_apply (effect : FileEffect) (files : FileTree) (a : Address) :
    FileTree.SameBut [a] files (effect.apply files a) := by
  cases effect with
  | keep => exact FileTree.SameBut.refl _ _
  | write content => exact FileTree.sameBut_write _ _ _
  | remove =>
      rw [apply]
      split
      · exact FileTree.SameBut.refl _ _
      · exact FileTree.sameBut_erase _ _

namespace Session

open FileTree

/-- What a call does to a file it does where the path leads, and nowhere else. -/
theorem sameBut_affect (files : FileTree) (p : Path) (effect : FileEffect) :
    ∃ as, SameBut as files (affect files p effect) ∧ ∀ a ∈ as, files.fileToWrite p = .ok a := by
  rw [affect]
  cases hwrite : files.fileToWrite p with
  | error cause => exact ⟨[], SameBut.refl _ _, by simp⟩
  | ok a => exact ⟨[a], effect.sameBut_apply _ _, by simp⟩

variable {files : FileTree} {scratch : Scratch}

/-- What a call does to its scratch file, empty at first, is done at its address. -/
theorem affect_scratch (scratch : Scratch) (there : files.node? scratchDirectory = some .directory)
    (effect : FileEffect) :
    affect (files.put scratch.address (.file [])) scratch.path effect
      = effect.apply (files.put scratch.address (.file [])) scratch.address := by
  have hput := sameBut_put files scratch.address (.file [])
  have hplace : (files.put scratch.address (.file [])).node? scratchDirectory = some .directory := by
    rw [hput.node _ (by simpa using scratch.address_ne_directory), there]
  have hfree : (files.put scratch.address (.file [])).node? scratch.address ≠ some .directory := by
    simp [node?_put_self _ _ _ scratch.address_ne_nil]
  have hwrite :
      (files.put scratch.address (.file [])).fileToWrite scratch.path = .ok scratch.address := by
    rw [scratch.path_eq]
    exact fileToWrite_twoNames plainName_tmp scratch.plainName hplace hfree
  rw [affect, hwrite]

theorem node?_affect (there : files.node? scratchDirectory = some .directory) (effect : FileEffect) :
    (affect (files.put scratch.address (.file [])) scratch.path effect).node? scratch.address
      = effect.content?.map FileNode.file := by
  have hmade : (files.put scratch.address (.file [])).node? scratch.address = some (.file []) :=
    node?_put_self _ _ _ scratch.address_ne_nil
  have hfile : (files.put scratch.address (.file [])).node? scratch.address ≠ some .output := by
    simp [hmade]
  rw [affect_scratch scratch there]
  cases effect with
  | keep => exact hmade
  | write content =>
      rw [FileEffect.apply, write_file hfile]
      exact node?_put_self _ _ _ scratch.address_ne_nil
  | remove =>
      rw [FileEffect.apply, if_neg hfile]
      exact node?_erase_self _ _ scratch.address_ne_nil

/-- The files after a call that named a scratch file differ from those before at that file only. -/
theorem sameBut_asked (scratch : Scratch) (there : files.node? scratchDirectory = some .directory)
    (effect : FileEffect) :
    SameBut [scratch.address] files
      (affect (files.put scratch.address (.file [])) scratch.path effect) := by
  rw [affect_scratch scratch there]
  exact ((sameBut_put files _ _).trans (effect.sameBut_apply _ _)).mono (by simp)

/-- Reading a scratch file gives what the instrument left there. -/
theorem fileToRead_affect (scratch : Scratch)
    (there : files.node? scratchDirectory = some .directory) (effect : FileEffect) :
    (affect (files.put scratch.address (.file [])) scratch.path effect).fileToRead scratch.path
      = match effect.content? with
        | none => .error .missing
        | some _ => .ok scratch.address := by
  have there' : (affect (files.put scratch.address (.file [])) scratch.path effect).node?
      scratchDirectory = some .directory := by
    rw [(sameBut_asked scratch there effect).node _ (by
      simpa using scratch.address_ne_directory), there]
  rw [scratch.fileToRead there', node?_affect there]
  cases effect <;> rfl

theorem content_affect (scratch : Scratch)
    (there : files.node? scratchDirectory = some .directory) (effect : FileEffect) :
    (affect (files.put scratch.address (.file [])) scratch.path effect).content scratch.path
      = match effect.content? with
        | none => .error .missing
        | some bytes => .ok bytes := by
  rw [FileTree.content, fileToRead_affect scratch there]
  cases effect <;>
    simp [FileEffect.content?, bind, Except.bind, pure, Except.pure, contentAt?, node?_affect there]

/-- The files at the end of a step on a scratch file, if the step has changed nothing but it. -/
theorem sameBut_erased {after : FileTree} (h : SameBut [scratch.address] files after)
    (absent : files.node? scratch.address = none) :
    SameBut [] files (after.erase scratch.address) :=
  h.erase absent scratch.address_ne_nil

/-- A scratch file that has been erased cannot be read. -/
theorem content_erased (there : files.node? scratchDirectory = some .directory) :
    (files.erase scratch.address).content scratch.path = .error .missing := by
  have there' : (files.erase scratch.address).node? scratchDirectory = some .directory := by
    rw [node?_erase_other _ scratch.address_ne_directory, there]
  rw [FileTree.content, scratch.fileToRead there', node?_erase_self _ _ scratch.address_ne_nil]
  rfl

end Session

end PowerBench
