import Mathlib.Data.List.Induction
import TypingsAudit.Proofs.Data
import TypingsAudit.Proofs.FileTree

set_option autoImplicit false

/-! # Building and browsing a tree of files

What a tree holds is read off the list of files that it was built from, and what is found by listing
its directories is compared with what it holds.

* A list is refused for the first of its paths at which no file can be put (`FirstRefused`).
* Otherwise every path that the list names has the bytes it was given last (`LastGiven`), and the
  directories are the root and what the slashes of these paths cut off (`Records`).
* A directory lists, in order and each once, the names that stand directly in it (`Holds`), and who
  goes from the root into what is listed comes by every file and every directory (`Descends`). -/

namespace TypingsAudit

/-- The path of a name in a directory. -/
def Path.child (dir name : String) : String :=
  if dir = "" then name else dir ++ "/" ++ name

/-- A normal path is its parent's child. -/
theorem Path.IsNormal.exists_child {path dir : String} (h : Path.IsNormal path)
    (hparent : Path.parent? path = some dir) :
    ∃ name, path = Path.child dir name ∧ name ≠ "" ∧ '/' ∉ name.toList := by
  rcases Path.parent?_eq_some hparent with ⟨rfl, hslash⟩ | ⟨name, hslash, rfl⟩
  · refine ⟨path, (if_pos rfl).symm, ?_, hslash⟩
    rintro rfl
    rw [Path.parent?_eq_none_iff.2 rfl] at hparent
    cases hparent
  · obtain ⟨-, hdir, hname⟩ := h.of_append_slash
    exact ⟨name, (if_neg hdir).symm, hname, hslash⟩

namespace FileTree

/-! ## What a list of files asks for -/

/-- A file can be put at the path: it stays in the package, below the root. -/
def HasPlace (path : String) : Prop :=
  ∃ normal, Path.normalize? path = some normal ∧ normal ≠ ""

/-- Why no file can be put at a path. The root is named by its normal form, a path that leaves the
    package as it is written. -/
inductive Refused : String → PathError → Prop
  | escapes {path : String} (h : Path.normalize? path = none) : Refused path (.escapesRoot path)
  | root {path : String} (h : Path.normalize? path = some "") : Refused path (.escapesRoot "")

/-- The error is that of the first path of the list at which no file can be put. -/
def FirstRefused (files : List (String × Bytes)) (error : PathError) : Prop :=
  ∃ front refused back, files = front ++ refused :: back ∧
    (∀ file ∈ front, HasPlace file.1) ∧ Refused refused.1 error

/-- The bytes are the last ones that the list gives for a normal path, under any spelling of it. -/
def LastGiven (files : List (String × Bytes)) (path : String) (bytes : Bytes) : Prop :=
  ∃ front given back, files = front ++ (given, bytes) :: back ∧
    Path.normalize? given = some path ∧ ∀ file ∈ back, Path.normalize? file.1 ≠ some path

/-- A file that could not be put into a tree has no place in any. -/
theorem add_eq_error_iff {tree : FileTree} {path : String} {bytes : Bytes} {error : PathError} :
    tree.add path bytes = .error error ↔ Refused path error := by
  unfold add Path.normalize
  constructor
  · intro h
    cases hnormal : Path.normalize? path with
    | none =>
        obtain rfl : PathError.escapesRoot path = error := by
          simpa [hnormal, bind, Except.bind] using h
        exact .escapes hnormal
    | some normal =>
        by_cases hroot : normal = ""
        · obtain rfl : PathError.escapesRoot "" = error := by
            simpa [hnormal, hroot, bind, Except.bind] using h
          exact .root (hroot ▸ hnormal)
        · simp [hnormal, hroot, bind, Except.bind] at h
  · rintro (hescapes | hroot)
    · rw [hescapes]
      rfl
    · rw [hroot]
      rfl

/-! ## One more file -/

theorem ofFiles_concat (files : List (String × Bytes)) (file : String × Bytes) :
    ofFiles (files ++ [file]) = (ofFiles files).bind fun tree => tree.add file.1 file.2 := by
  rw [ofFiles, ofFiles, List.foldlM_append]
  simp only [List.foldlM_cons, List.foldlM_nil, bind_pure]
  rfl

theorem firstRefused_concat {files : List (String × Bytes)} {file : String × Bytes}
    {error : PathError} :
    FirstRefused (files ++ [file]) error ↔
      FirstRefused files error ∨ (∀ file ∈ files, HasPlace file.1) ∧ Refused file.1 error := by
  constructor
  · rintro ⟨front, refused, back, hcut, hfront, hrefused⟩
    rcases concat_eq_append_cons_iff.1 hcut with ⟨-, rfl, rfl⟩ | ⟨between, -, hfiles⟩
    · exact Or.inr ⟨hfront, hrefused⟩
    · exact Or.inl ⟨front, refused, between, hfiles, hfront, hrefused⟩
  · rintro (⟨front, refused, back, rfl, hfront, hrefused⟩ | ⟨hfiles, hrefused⟩)
    · exact ⟨front, refused, back ++ [file], by simp, hfront, hrefused⟩
    · exact ⟨files, file, [], rfl, hfiles, hrefused⟩

theorem lastGiven_concat {files : List (String × Bytes)} {file : String × Bytes} {path : String}
    {bytes : Bytes} :
    LastGiven (files ++ [file]) path bytes ↔
      if Path.normalize? file.1 = some path then file.2 = bytes else LastGiven files path bytes := by
  split
  · next hpath =>
      constructor
      · rintro ⟨front, given, back, hcut, -, hback⟩
        rcases concat_eq_append_cons_iff.1 hcut with ⟨-, -, rfl⟩ | ⟨between, rfl, -⟩
        · rfl
        · exact absurd hpath (hback file (by simp))
      · rintro rfl
        exact ⟨files, file.1, [], rfl, hpath, List.forall_mem_nil _⟩
  · next hpath =>
      constructor
      · rintro ⟨front, given, back, hcut, hgiven, hback⟩
        rcases concat_eq_append_cons_iff.1 hcut with ⟨-, -, rfl⟩ | ⟨between, rfl, hfiles⟩
        · exact absurd hgiven hpath
        · exact ⟨front, given, between, hfiles, hgiven,
            fun other hother => hback other (List.mem_append_left _ hother)⟩
      · rintro ⟨front, given, back, rfl, hgiven, hback⟩
        refine ⟨front, given, back ++ [file], by simp, hgiven, ?_⟩
        rw [List.forall_mem_append, List.forall_mem_singleton]
        exact ⟨hback, hpath⟩

/-! ## The tree of a list -/

/-- A list makes a tree exactly when each of its files has a place. -/
theorem exists_ofFiles_eq_ok_iff {files : List (String × Bytes)} :
    (∃ tree, ofFiles files = .ok tree) ↔ ∀ file ∈ files, HasPlace file.1 := by
  induction files using List.reverseRecOn with
  | nil => exact ⟨fun _ => List.forall_mem_nil _, fun _ => ⟨empty, rfl⟩⟩
  | append_singleton files file ih =>
      rw [ofFiles_concat, List.forall_mem_append, List.forall_mem_singleton, ← ih]
      constructor
      · rintro ⟨tree, htree⟩
        cases hfiles : ofFiles files with
        | error error => simp [hfiles, Except.bind] at htree
        | ok before =>
            rw [hfiles] at htree
            obtain ⟨normal, hnormal, hne, -⟩ := add_eq_ok_iff.1 htree
            exact ⟨⟨before, rfl⟩, normal, hnormal, hne⟩
      · rintro ⟨⟨before, hfiles⟩, normal, hnormal, hne⟩
        rw [hfiles]
        exact ⟨_, add_eq_ok_iff.2 ⟨normal, hnormal, hne, rfl⟩⟩

/-- A list is refused for its first path without a place. -/
theorem ofFiles_eq_error_iff {files : List (String × Bytes)} {error : PathError} :
    ofFiles files = .error error ↔ FirstRefused files error := by
  induction files using List.reverseRecOn generalizing error with
  | nil =>
      constructor
      · intro h
        cases h
      · rintro ⟨front, refused, back, hcut, -⟩
        simp at hcut
  | append_singleton files file ih =>
      rw [ofFiles_concat, firstRefused_concat, ← exists_ofFiles_eq_ok_iff, ← ih]
      cases hfiles : ofFiles files with
      | error other => simp [Except.bind]
      | ok tree =>
          -- Nothing is wrong with the list up to here, so the new file decides.
          have hbind : ((Except.ok tree).bind fun tree => tree.add file.1 file.2) = .error error ↔
              Refused file.1 error := add_eq_error_iff
          simp [hbind]

/-- The bytes at a path are the last ones that were given for it. -/
theorem getElem?_contents_iff {files : List (String × Bytes)} {tree : FileTree}
    (h : ofFiles files = .ok tree) {path : String} {bytes : Bytes} :
    tree.contents[path]? = some bytes ↔ LastGiven files path bytes := by
  induction files using List.reverseRecOn generalizing tree with
  | nil =>
      obtain rfl : empty = tree := by simpa [ofFiles, pure, Except.pure] using h
      simp [empty, LastGiven]
  | append_singleton files file ih =>
      rw [ofFiles_concat] at h
      cases hfiles : ofFiles files with
      | error error => simp [hfiles, Except.bind] at h
      | ok before =>
          rw [hfiles] at h
          obtain ⟨normal, hnormal, -, rfl⟩ := add_eq_ok_iff.1 h
          rw [lastGiven_concat, ← ih hfiles, hnormal]
          by_cases hpath : normal = path
          · simp [insert, hpath]
          · rw [getElem?_insert_of_ne _ hpath, if_neg (by simpa using hpath)]

theorem exists_lastGiven_iff {files : List (String × Bytes)} {path : String} :
    (∃ bytes, LastGiven files path bytes) ↔
      ∃ file ∈ files, Path.normalize? file.1 = some path := by
  induction files using List.reverseRecOn with
  | nil => simp [LastGiven]
  | append_singleton files file ih =>
      simp only [lastGiven_concat]
      by_cases hpath : Path.normalize? file.1 = some path
      · simp [hpath]
      · simp [hpath, ih]

section
variable {files : List (String × Bytes)} {tree : FileTree} (h : ofFiles files = .ok tree)
include h

theorem mem_contents_ofFiles {path : String} :
    path ∈ tree.contents ↔ ∃ file ∈ files, Path.normalize? file.1 = some path := by
  rw [mem_contents_iff, ← exists_lastGiven_iff]
  exact exists_congr fun bytes => getElem?_contents_iff h

/-- Files stand below the root. -/
theorem ne_root_of_mem_contents {path : String} (hpath : path ∈ tree.contents) : path ≠ "" := by
  obtain ⟨file, hfile, hnormal⟩ := (mem_contents_ofFiles h).1 hpath
  obtain ⟨normal, hnormal', hne⟩ := exists_ofFiles_eq_ok_iff.1 ⟨tree, h⟩ file hfile
  rw [hnormal, Option.some.injEq] at hnormal'
  exact hnormal' ▸ hne

theorem isNormal_of_mem_contents {path : String} (hpath : path ∈ tree.contents) :
    Path.IsNormal path := by
  obtain ⟨file, -, hnormal⟩ := (mem_contents_ofFiles h).1 hpath
  exact Path.isNormal_of_normalize? hnormal

theorem isNormal_of_mem_directories {dir : String} (hdir : dir ∈ tree.directories) :
    Path.IsNormal dir := by
  rcases (coherent_ofFiles h dir).1 hdir with hroot | ⟨path, hpath, habove⟩
  · exact Or.inl hroot
  · exact (isNormal_of_mem_contents h hpath).of_mem_ancestors habove

theorem mem_directories_ofFiles {dir : String} :
    dir ∈ tree.directories ↔
      dir = "" ∨ ∃ path ∈ tree.contents, ∃ rest, path = dir ++ "/" ++ rest := by
  rw [coherent_ofFiles h dir]
  constructor
  · rintro (hroot | ⟨path, hpath, habove⟩)
    · exact Or.inl hroot
    · exact (Path.mem_ancestors_iff.1 habove).2.imp_right fun hrest => ⟨path, hpath, hrest⟩
  · rintro (hroot | ⟨path, hpath, hrest⟩)
    · exact Or.inl hroot
    · exact Or.inr ⟨path, hpath,
        Path.mem_ancestors_iff.2 ⟨ne_root_of_mem_contents h hpath, Or.inr hrest⟩⟩

end

/-! ## What a directory lists -/

/-- The name stands directly in the directory, be it that of a file or of a directory. -/
structure Holds (tree : FileTree) (dir name : String) : Prop where
  ne_empty : name ≠ ""
  single : '/' ∉ name.toList
  entry : Path.child dir name ∈ tree.contents ∨ Path.child dir name ∈ tree.directories

theorem childName?_eq_some_iff {dir path name : String} :
    childName? dir path = some name ↔
      path = Path.child dir name ∧ name ≠ "" ∧ '/' ∉ name.toList := by
  have hfront : (if dir = "" then "" else dir ++ "/") ++ name = Path.child dir name := by
    unfold Path.child
    split <;> simp
  unfold childName?
  rw [← hfront, ← Text.dropFront?_eq_some_iff]
  cases Text.dropFront? (if dir = "" then "" else dir ++ "/") path with
  | none => simp
  | some rest =>
      by_cases hrest : rest = "" ∨ '/' ∈ rest.toList
      · simp only [if_pos hrest, reduceCtorEq, Option.some.injEq, false_iff]
        rintro ⟨rfl, hne, hslash⟩
        exact hrest.elim hne hslash
      · simp only [if_neg hrest, Option.some.injEq]
        rw [not_or] at hrest
        constructor
        · rintro rfl
          exact ⟨rfl, hrest⟩
        · exact fun hname => hname.1

theorem mem_filterMap_childName?_iff {tree : FileTree} {dir name : String} :
    name ∈ (tree.contents.keys ++ tree.directories.toList).filterMap (childName? dir) ↔
      tree.Holds dir name := by
  rw [List.mem_filterMap]
  constructor
  · rintro ⟨path, hpath, hname⟩
    obtain ⟨rfl, hne, hslash⟩ := childName?_eq_some_iff.1 hname
    rw [List.mem_append, Std.TreeMap.mem_keys, Std.TreeSet.mem_toList] at hpath
    exact ⟨hne, hslash, hpath⟩
  · rintro ⟨hne, hslash, hentry⟩
    refine ⟨Path.child dir name, ?_, childName?_eq_some_iff.2 ⟨rfl, hne, hslash⟩⟩
    rwa [List.mem_append, Std.TreeMap.mem_keys, Std.TreeSet.mem_toList]

/-- Only what stays in the package can be listed. -/
theorem children_of_escapes {dir : String} (tree : FileTree) (h : Path.normalize? dir = none) :
    tree.children dir = .error (.escapesRoot dir) := by
  simp [children, Path.normalize, h, bind, Except.bind]

/-- What is no directory cannot be listed, a file neither. -/
theorem children_of_notMem {tree : FileTree} {dir normal : String}
    (h : Path.normalize? dir = some normal) (hdir : normal ∉ tree.directories) :
    tree.children dir = .error (.notFound normal) := by
  have hcontains : ¬tree.directories.contains normal = true := by
    rwa [← Std.TreeSet.mem_iff_contains]
  simp [children, Path.normalize, h, bind, Except.bind, hcontains]

/-- A directory lists what it holds, in order and without repetition. -/
theorem children_of_mem {tree : FileTree} {dir normal : String}
    (h : Path.normalize? dir = some normal) (hdir : normal ∈ tree.directories) :
    ∃ names, tree.children dir = .ok names ∧ names.Pairwise (· < ·) ∧
      ∀ name, name ∈ names ↔ tree.Holds normal name := by
  have hcontains : tree.directories.contains normal = true := by
    rwa [← Std.TreeSet.mem_iff_contains]
  have hnames : tree.children dir = .ok (Std.TreeSet.ofList
      ((tree.contents.keys ++ tree.directories.toList).filterMap (childName? normal))).toList := by
    simp [children, Path.normalize, h, bind, Except.bind, hcontains]
  refine ⟨_, hnames, ?_, ?_⟩
  · exact Std.TreeSet.ordered_toList.imp fun {a b} (hlt : compare a b = .lt) =>
      compareOfLessAndEq_eq_lt.1 hlt
  · intro name
    rw [Std.TreeSet.mem_toList, Std.TreeSet.mem_ofList, List.contains_iff_mem,
      mem_filterMap_childName?_iff]

/-! ## Going down from the root -/

/-- The paths that one comes by who starts at the root and goes into what is listed. -/
inductive Descends (tree : FileTree) : String → Prop
  | root : Descends tree ""
  | child {dir name : String} {names : List String} (hdir : Descends tree dir)
      (hnames : tree.children dir = .ok names) (hname : name ∈ names) :
      Descends tree (Path.child dir name)

section
variable {files : List (String × Bytes)} {tree : FileTree} (h : ofFiles files = .ok tree)
include h

theorem isNormal_of_mem {path : String} (hpath : path ∈ tree.contents ∨ path ∈ tree.directories) :
    Path.IsNormal path :=
  hpath.elim (isNormal_of_mem_contents h) (isNormal_of_mem_directories h)

/-- Descending step by step one stays at files and directories. -/
theorem mem_of_descends {path : String} (hpath : tree.Descends path) :
    path ∈ tree.contents ∨ path ∈ tree.directories := by
  induction hpath with
  | root => exact Or.inr ((mem_directories_ofFiles h).2 (Or.inl rfl))
  | child hdir hnames hname ih =>
      next dir name names =>
      have hnormal := Path.normalize?_of_isNormal (isNormal_of_mem h ih)
      by_cases hmem : dir ∈ tree.directories
      · obtain ⟨names', hnames', -, hholds⟩ := children_of_mem hnormal hmem
        obtain rfl : names' = names := by simpa [hnames'] using hnames
        exact ((hholds name).1 hname).entry
      · rw [children_of_notMem hnormal hmem] at hnames
        cases hnames

/-- Every file and every directory is listed in its parent, which is a directory. -/
theorem descends_of_mem {path : String}
    (hpath : path ∈ tree.contents ∨ path ∈ tree.directories) : tree.Descends path := by
  have hcoherent := coherent_ofFiles h
  induction path using Path.ancestors.induct with
  | case1 path hnone =>
      obtain rfl := Path.parent?_eq_none_iff.1 hnone
      exact .root
  | case2 path parent hparent _ ih =>
      have habove : parent ∈ Path.ancestors path := by
        rw [Path.ancestors_of_parent? hparent]
        exact List.mem_cons_self ..
      have hdir : parent ∈ tree.directories := by
        rcases hpath with hfile | hdir
        · exact (hcoherent parent).2 (Or.inr ⟨path, hfile, habove⟩)
        · exact hcoherent.closed hdir habove
      obtain ⟨name, rfl, hne, hslash⟩ := (isNormal_of_mem h hpath).exists_child hparent
      have hnormal := Path.normalize?_of_isNormal (isNormal_of_mem_directories h hdir)
      obtain ⟨names, hnames, -, hholds⟩ := children_of_mem hnormal hdir
      exact .child (ih (Or.inr hdir)) hnames ((hholds name).2 ⟨hne, hslash, hpath⟩)

end

/-! ## The whole of it -/

/-- The tables of the tree hold what the list says, the last word on each path. -/
structure Records (files : List (String × Bytes)) (tree : FileTree) : Prop where
  paths : ∀ path, path ∈ tree.contents ↔ ∃ file ∈ files, Path.normalize? file.1 = some path
  contents : ∀ (path : String) (bytes : Bytes),
    tree.contents[path]? = some bytes ↔ LastGiven files path bytes
  directories : ∀ dir, dir ∈ tree.directories ↔
    dir = "" ∨ ∃ path ∈ tree.contents, ∃ rest, path = dir ++ "/" ++ rest

/-- Listing directories shows the tree, and nothing else can be listed. -/
structure Listed (tree : FileTree) : Prop where
  escapes : ∀ dir, Path.normalize? dir = none → tree.children dir = .error (.escapesRoot dir)
  missing : ∀ dir normal, Path.normalize? dir = some normal → normal ∉ tree.directories →
    tree.children dir = .error (.notFound normal)
  children : ∀ dir normal, Path.normalize? dir = some normal → normal ∈ tree.directories →
    ∃ names, tree.children dir = .ok names ∧ names.Pairwise (· < ·) ∧
      ∀ name, name ∈ names ↔ tree.Holds normal name
  reached : ∀ path, tree.Descends path ↔ path ∈ tree.contents ∨ path ∈ tree.directories

/-- **A list of files makes a tree unless one of its paths has no place, the first of which is then
    named.** The tree holds the last file given for each path and the directories above these, and
    listing it from the root shows all of them. -/
theorem ofFiles_records_and_lists (files : List (String × Bytes)) :
    ((∃ tree, ofFiles files = .ok tree) ↔ ∀ file ∈ files, HasPlace file.1) ∧
      (∀ error, ofFiles files = .error error ↔ FirstRefused files error) ∧
      ∀ tree, ofFiles files = .ok tree → Records files tree ∧ Listed tree := by
  refine ⟨exists_ofFiles_eq_ok_iff, fun error => ofFiles_eq_error_iff, fun tree h => ⟨?_, ?_⟩⟩
  · exact
      { paths := fun path => mem_contents_ofFiles h
        contents := fun path bytes => getElem?_contents_iff h
        directories := fun dir => mem_directories_ofFiles h }
  · exact
      { escapes := fun dir => children_of_escapes tree
        missing := fun dir normal => children_of_notMem
        children := fun dir normal => children_of_mem
        reached := fun path => ⟨mem_of_descends h, descends_of_mem h⟩ }

/-- A file given twice, under two spellings, and a third one for which the first is a directory. -/
theorem file_is_directory_of_listed_file :
    ∃ tree, ofFiles [("src\\main.js", [1]), ("./lib/../src/main.js", [2]),
        ("/src/main.js/part.d.ts", [])] = .ok tree ∧
      tree.contents["src/main.js"]? = some [2] ∧ "src/main.js" ∈ tree.directories ∧
      tree.Descends "src/main.js/part.d.ts" ∧
      tree.children "../src" = .error (.escapesRoot "../src") ∧
      ∃ names, tree.children "./src/" = .ok names ∧ "main.js" ∈ names := by
  have hplaces : ∀ file ∈ [("src\\main.js", ([1] : Bytes)), ("./lib/../src/main.js", [2]),
      ("/src/main.js/part.d.ts", [])], HasPlace file.1 := by
    simp only [List.forall_mem_cons, List.not_mem_nil, false_implies, implies_true, and_true]
    exact ⟨⟨"src/main.js", by decide +kernel, by decide⟩,
      ⟨"src/main.js", by decide +kernel, by decide⟩,
      ⟨"src/main.js/part.d.ts", by decide +kernel, by decide⟩⟩
  obtain ⟨hsuccess, -, htree⟩ := ofFiles_records_and_lists
    [("src\\main.js", [1]), ("./lib/../src/main.js", [2]), ("/src/main.js/part.d.ts", [])]
  obtain ⟨tree, hbuilt⟩ := hsuccess.2 hplaces
  obtain ⟨hrecords, hlisted⟩ := htree tree hbuilt
  have hmain : tree.contents["src/main.js"]? = some [2] :=
    (hrecords.contents _ _).2 ⟨[("src\\main.js", [1])], "./lib/../src/main.js",
      [("/src/main.js/part.d.ts", [])], rfl, by decide +kernel, by decide +kernel⟩
  have hpart : "src/main.js/part.d.ts" ∈ tree.contents :=
    (hrecords.paths _).2 ⟨("/src/main.js/part.d.ts", []), by simp, by decide +kernel⟩
  have hsrc : "src" ∈ tree.directories :=
    (hrecords.directories _).2 (Or.inr ⟨_, hpart, "main.js/part.d.ts", rfl⟩)
  obtain ⟨names, hnames, -, hholds⟩ := hlisted.children "./src/" "src" (by decide +kernel) hsrc
  have hchild : Path.child "src" "main.js" = "src/main.js" := by decide
  refine ⟨tree, hbuilt, hmain, (hrecords.directories _).2 (Or.inr ⟨_, hpart, "part.d.ts", rfl⟩),
    (hlisted.reached _).2 (Or.inl hpart), hlisted.escapes _ (by decide +kernel),
    names, hnames, (hholds _).2 ⟨by decide, by decide, Or.inl ?_⟩⟩
  rw [hchild]
  exact mem_contents_iff.2 ⟨[2], hmain⟩

end FileTree

end TypingsAudit
