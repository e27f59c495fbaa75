import TypingsAudit.FileTree
import TypingsAudit.Proofs.Path

set_option autoImplicit false

/-! # Files and directories

A tree of files records its directories beside its files. In a tree that was built from a list of
files the two belong together: the directories are the root and what lies above a file, no more and
no less (`FileTree.Coherent`). Every step of the construction keeps that, and needs it: a new file
looks for missing directories only up to the first one that is there
(`Coherent.mem_missingAbove`).

`FileTree.Within` compares two trees. Of coherent trees the files alone decide: more files make more
directories (`Coherent.within`). -/

namespace TypingsAudit

namespace FileTree

/-! ## Coherent trees -/

/-- The directories of the tree are the root and those above its files. -/
def Coherent (tree : FileTree) : Prop :=
  ∀ dir, dir ∈ tree.directories ↔ dir = "" ∨ ∃ path ∈ tree.contents, dir ∈ Path.ancestors path

theorem coherent_empty : empty.Coherent := by
  intro dir
  simp [empty, @eq_comm _ "" dir]

theorem mem_contents_insert {tree : FileTree} {path other : String} {bytes : Bytes} :
    other ∈ (tree.insert path bytes).contents ↔ other = path ∨ other ∈ tree.contents := by
  simp [insert, Std.TreeMap.mem_insert, @eq_comm _ other]

/-- Another file stays as it is. -/
theorem getElem?_insert_of_ne {tree : FileTree} {path other : String} (bytes : Bytes)
    (h : path ≠ other) : (tree.insert path bytes).contents[other]? = tree.contents[other]? := by
  simp [insert, Std.TreeMap.getElem?_insert, h]

/-- With a directory a coherent tree has those above it. -/
theorem Coherent.closed {tree : FileTree} (h : tree.Coherent) {dir above : String}
    (hdir : dir ∈ tree.directories) (habove : above ∈ Path.ancestors dir) :
    above ∈ tree.directories := by
  rcases (h dir).1 hdir with rfl | ⟨path, hpath, hdir⟩
  · exact absurd rfl (Path.mem_ancestors_iff.1 habove).1
  · exact (h above).2 (Or.inr ⟨path, hpath, Path.mem_ancestors_trans hdir habove⟩)

/-- The search for missing directories ends at the first that is there and passes over none. -/
theorem Coherent.mem_missingAbove {tree : FileTree} (h : tree.Coherent) {path dir : String}
    (hdir : dir ∈ Path.ancestors path) :
    dir ∈ tree.directories ∨ dir ∈ tree.missingAbove path := by
  unfold missingAbove
  induction path using Path.ancestors.induct with
  | case1 path hnone =>
      obtain rfl := Path.parent?_eq_none_iff.1 hnone
      exact absurd rfl (Path.mem_ancestors_iff.1 hdir).1
  | case2 path parent hparent _ ih =>
      rw [Path.ancestors_of_parent? hparent] at hdir ⊢
      by_cases hthere : parent ∈ tree.directories
      · rcases List.mem_cons.1 hdir with rfl | hdir
        · exact Or.inl hthere
        · exact Or.inl (h.closed hthere hdir)
      · have hmissing : (!tree.directories.contains parent) = true := by
          rwa [Bool.not_eq_true', ← Bool.not_eq_true, ← Std.TreeSet.mem_iff_contains]
        rw [List.takeWhile_cons, if_pos hmissing, List.mem_cons]
        rcases List.mem_cons.1 hdir with rfl | hdir
        · exact Or.inr (Or.inl rfl)
        · exact (ih hdir).imp_right Or.inr

/-- Although a file is asked to bring along only what is missing, everything above it is there. -/
theorem Coherent.mem_directories_insert {tree : FileTree} (h : tree.Coherent)
    {path dir : String} {bytes : Bytes} :
    dir ∈ (tree.insert path bytes).directories ↔
      dir ∈ tree.directories ∨ dir ∈ Path.ancestors path := by
  rw [FileTree.insert, Std.TreeSet.mem_insertMany_list]
  constructor
  · rintro (hdir | hdir)
    · exact Or.inl hdir
    · exact Or.inr ((List.takeWhile_sublist _).subset (List.elem_iff.1 hdir))
  · rintro (hdir | hdir)
    · exact Or.inl hdir
    · exact (h.mem_missingAbove hdir).imp_right List.elem_iff.2

/-- A new file brings along the directories above it. -/
theorem Coherent.insert {tree : FileTree} (h : tree.Coherent) (path : String) (bytes : Bytes) :
    (tree.insert path bytes).Coherent := by
  intro dir
  rw [h.mem_directories_insert, h dir]
  constructor
  · rintro ((hroot | ⟨other, hother, habove⟩) | habove)
    · exact Or.inl hroot
    · exact Or.inr ⟨other, mem_contents_insert.2 (Or.inr hother), habove⟩
    · exact Or.inr ⟨path, mem_contents_insert.2 (Or.inl rfl), habove⟩
  · rintro (hroot | ⟨other, hother, habove⟩)
    · exact Or.inl (Or.inl hroot)
    · rcases mem_contents_insert.1 hother with rfl | hother
      · exact Or.inr habove
      · exact Or.inl (Or.inr ⟨other, hother, habove⟩)

/-- A file that could be put into a tree was inserted at a normal path below the root. -/
theorem add_eq_ok_iff {tree tree' : FileTree} {path : String} {bytes : Bytes} :
    tree.add path bytes = .ok tree' ↔
      ∃ normal, Path.normalize? path = some normal ∧ normal ≠ "" ∧
        tree' = tree.insert normal bytes := by
  unfold add Path.normalize
  cases hnormal : Path.normalize? path with
  | none => simp [bind, Except.bind]
  | some normal =>
      by_cases hroot : normal = ""
      · simp [bind, Except.bind, hroot]
      · simp [bind, Except.bind, hroot, eq_comm]

/-- What holds of a tree and is kept by every file that is put into it holds of the tree with all of
    them. -/
theorem foldlM_add_induction {P : FileTree → Prop}
    (hinsert : ∀ tree path bytes, P tree → P (tree.insert path bytes))
    {files : List (String × Bytes)} {start tree : FileTree} (hstart : P start)
    (h : files.foldlM (fun tree (path, bytes) => tree.add path bytes) start = .ok tree) :
    P tree := by
  induction files generalizing start with
  | nil =>
      obtain rfl : start = tree := by simpa [pure, Except.pure] using h
      exact hstart
  | cons file rest ih =>
      -- A file that is refused ends the construction, so there is a next tree.
      obtain ⟨path, bytes⟩ := file
      rw [List.foldlM_cons] at h
      cases hadd : start.add path bytes with
      | error e => simp [hadd, bind, Except.bind] at h
      | ok next =>
          obtain ⟨normal, -, -, rfl⟩ := add_eq_ok_iff.1 hadd
          simp only [hadd, bind, Except.bind] at h
          exact ih (hinsert start normal bytes hstart) h

/-- **A tree that is built from files is coherent.** -/
theorem coherent_ofFiles {files : List (String × Bytes)} {tree : FileTree}
    (h : ofFiles files = .ok tree) : tree.Coherent :=
  foldlM_add_induction (fun _ path bytes hcoherent => hcoherent.insert path bytes)
    coherent_empty h

/-! ## One tree within another -/

/-- Every file of `small` is in `large` with the same contents, and so is every directory. -/
structure Within (small large : FileTree) : Prop where
  contents : ∀ (path : String) (bytes : Bytes),
    small.contents[path]? = some bytes → large.contents[path]? = some bytes
  directories : ∀ dir ∈ small.directories, dir ∈ large.directories

theorem Within.refl (tree : FileTree) : tree.Within tree :=
  ⟨fun _ _ h => h, fun _ h => h⟩

theorem mem_contents_iff {tree : FileTree} {path : String} :
    path ∈ tree.contents ↔ ∃ bytes, tree.contents[path]? = some bytes := by
  rw [Std.TreeMap.mem_iff_isSome_getElem?, Option.isSome_iff_exists]

/-- Among coherent trees the files decide which one is within the other. -/
theorem Coherent.within {small large : FileTree} (hsmall : small.Coherent)
    (hlarge : large.Coherent)
    (h : ∀ (path : String) (bytes : Bytes),
      small.contents[path]? = some bytes → large.contents[path]? = some bytes) :
    small.Within large := by
  refine ⟨h, fun dir hdir => (hlarge dir).2 ?_⟩
  rcases (hsmall dir).1 hdir with hroot | ⟨path, hpath, habove⟩
  · exact Or.inl hroot
  · obtain ⟨bytes, hbytes⟩ := mem_contents_iff.1 hpath
    exact Or.inr ⟨path, mem_contents_iff.2 ⟨bytes, h path bytes hbytes⟩, habove⟩

namespace Within

variable {small large : FileTree} (h : small.Within large)
include h

theorem isFile {path : String} (hfile : small.isFile path = true) : large.isFile path = true := by
  unfold FileTree.isFile at hfile ⊢
  split at hfile
  · next normal hnormal =>
      obtain ⟨bytes, hbytes⟩ := mem_contents_iff.1 (Std.TreeMap.contains_iff_mem.1 hfile)
      rw [Std.TreeMap.contains_iff_mem]
      exact mem_contents_iff.2 ⟨bytes, h.contents normal bytes hbytes⟩
  · exact absurd hfile (by simp)

theorem isDirectory {path : String} (hdir : small.isDirectory path = true) :
    large.isDirectory path = true := by
  unfold FileTree.isDirectory at hdir ⊢
  split at hdir
  · next normal hnormal =>
      rw [← Std.TreeSet.mem_iff_contains] at hdir ⊢
      exact h.directories normal hdir
  · exact absurd hdir (by simp)

/-- A file that is there stays what it is. -/
theorem file? {path : String} {file : File} (hfile : small.file? path = some file) :
    large.file? path = some file := by
  unfold FileTree.file? FileTree.file Path.normalize at hfile ⊢
  cases hnormal : Path.normalize? path with
  | none => simp [hnormal, bind, Except.bind, Except.toOption] at hfile
  | some normal =>
      cases hbytes : small.contents[normal]? with
      | none => simp [hnormal, hbytes, bind, Except.bind, Except.toOption] at hfile
      | some bytes =>
          have hlarge := h.contents normal bytes hbytes
          simpa [hnormal, hbytes, hlarge, bind, Except.bind] using hfile

end Within

end FileTree

end TypingsAudit
