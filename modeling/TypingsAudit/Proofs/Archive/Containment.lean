import TypingsAudit.Loading
import TypingsAudit.Proofs.Archive.Stored
import TypingsAudit.Proofs.FileTree.Listing
import TypingsAudit.Proofs.Path.Canonical

set_option autoImplicit false

/-! # Where the files of an archive go

The path of an entry loses its first component, whatever that is, and keeps every `..` behind it.
What leads out of the package is not looked for there: the rest of the path is put together again
and read like any other one, with backslashes as separators, too. `Archive.Entry.steps` is what that
comes to, one segment after the other (`Path.segments_intercalate_flatMap`).

So one entry is enough to refuse a whole archive, and the reasons to do so are those of a path: it
leaves the package at some step, or it ends at the root (`FileTree.hasPlace_iff`). An archive that
is not refused leaves its files where their steps lead, and nothing else. -/

namespace TypingsAudit

/-! ## Ways through the package -/

namespace Path

/-- A way goes up as often as it enters something. If it never leaves the package, it ends at the
    root. -/
def EndsAtRoot (segments : List (List Char)) : Prop :=
  segments.countP (IsName ·) = segments.count ['.', '.']

instance (segments : List (List Char)) : Decidable (EndsAtRoot segments) :=
  inferInstanceAs (Decidable (_ = _))

theorem isName_of_mem_kept {segments : List (List Char)} {s : List Char} (h : s ∈ kept segments) :
    IsName s := by
  induction segments with
  | nil => simp [kept] at h
  | cons t rest ih =>
      rw [kept] at h
      split at h
      · next hkeep =>
          rcases List.mem_cons.1 h with rfl | h
          · exact hkeep.1
          · exact ih h
      · exact ih h

/-- Of the directories that it enters a walk leaves some, and of those it leaves it has entered the
    others. -/
theorem length_kept_add (segments : List (List Char)) :
    (kept segments).length + segments.count ['.', '.']
      = segments.countP (IsName ·) + climb segments := by
  induction segments with
  | nil => rfl
  | cons s rest ih =>
      rcases segment_cases s with hstay | rfl | hname
      · have hnot : ¬ IsName s := fun hname => hstay.elim hname.1 hname.2.1
        have hup : s ≠ ['.', '.'] := by rcases hstay with rfl | rfl <;> decide
        rw [kept_of_not_isName hnot, climb_stay hstay,
          List.countP_cons_of_neg (by simpa using hnot), List.count_cons_of_ne hup, ih]
      · have hnot : ¬ IsName ['.', '.'] := fun hname => hname.2.2 rfl
        rw [kept_of_not_isName hnot, climb_up, List.countP_cons_of_neg (by simpa using hnot),
          List.count_cons_self, ← Nat.add_assoc, ih, Nat.add_assoc]
      · rw [kept, climb_name hname, List.countP_cons_of_pos (by simpa using hname),
          List.count_cons_of_ne hname.2.2]
        by_cases hescapes : Escapes rest
        · have hclimb := escapes_iff.1 hescapes
          rw [if_neg (fun hkeep => hkeep.2 hescapes)]
          omega
        · have hclimb : climb rest = 0 := Nat.eq_zero_of_not_pos (mt escapes_iff.2 hescapes)
          rw [if_pos ⟨hname, hescapes⟩, List.length_cons]
          omega

theorem kept_eq_nil_iff {segments : List (List Char)} (h : ¬ Escapes segments) :
    kept segments = [] ↔ EndsAtRoot segments := by
  have hclimb : climb segments = 0 := Nat.eq_zero_of_not_pos (mt escapes_iff.2 h)
  have hlength := length_kept_add segments
  rw [← List.length_eq_zero_iff, EndsAtRoot]
  omega

theorem render_eq_root_iff {parts : List (List Char)} (h : ∀ s ∈ parts, IsName s) :
    render parts = "" ↔ parts = [] := by
  constructor
  · intro hroot
    have htext : List.intercalate ['/'] parts = [] := by
      simpa [render] using congrArg String.toList hroot
    cases parts with
    | nil => rfl
    | cons s rest =>
        have hname := h s (List.mem_cons_self ..)
        cases rest with
        | nil => exact absurd (by simpa using htext) hname.1
        | cons t rest => simp [List.intercalate_cons_cons] at htext
  · rintro rfl
    rfl

/-- What is joined by slashes is cut apart again, and at its other separators, too. -/
theorem segments_intercalate_flatMap {parts : List (List Char)} (h : parts ≠ []) :
    segments (List.intercalate ['/'] parts) = parts.flatMap segments := by
  induction parts with
  | nil => exact absurd rfl h
  | cons s rest ih =>
      cases rest with
      | nil => simp
      | cons t rest =>
          rw [List.intercalate_cons_cons, List.append_assoc, List.singleton_append,
            segments_append_slash_append, ih (List.cons_ne_nil t rest)]
          exact List.flatMap_cons.symm

end Path

/-- A file has a place where its path neither leaves the package at a step nor ends at the root. -/
theorem FileTree.hasPlace_iff {path : String} :
    HasPlace path ↔ ¬ Path.Escapes (Path.segments path.toList) ∧
      ¬ Path.EndsAtRoot (Path.segments path.toList) := by
  rw [HasPlace, Path.normalize?_eq]
  by_cases hescapes : Path.Escapes (Path.segments path.toList)
  · simp [hescapes]
  · have hroot := Path.render_eq_root_iff
      fun s (hs : s ∈ Path.kept (Path.segments path.toList)) => Path.isName_of_mem_kept hs
    simp [hescapes, hroot, Path.kept_eq_nil_iff hescapes]

/-- Files are refused for a path only. -/
theorem FileTree.eq_escapesRoot_of_ofFiles {files : List (String × Bytes)} {error : PathError}
    (h : ofFiles files = .error error) : ∃ path, error = .escapesRoot path := by
  obtain ⟨-, refused, -, -, -, hrefused⟩ := ofFiles_eq_error_iff.1 h
  cases hrefused with
  | escapes => exact ⟨_, rfl⟩
  | root => exact ⟨_, rfl⟩

namespace FileTree

variable {package : String} {found : Option DiskEntry} {files : List (String × Bytes)}
  (h : filesOfPackage package found = .ok files)
include h

/-- What is found at a path is loaded when its files make a tree. -/
theorem load_eq_ok_iff {tree : FileTree} :
    load package found = .ok tree ↔ ofFiles files = .ok tree := by
  simp only [load, h, bind, Except.bind]
  cases ofFiles files <;> simp [Except.mapError]

theorem load_eq_error_iff {error : LoadError} :
    load package found = .error error ↔
      ∃ path, ofFiles files = .error (.escapesRoot path) ∧
        error = .badContents package (.escapesRoot path) := by
  simp only [load, h, bind, Except.bind]
  cases hbuilt : ofFiles files with
  | ok tree => simp [Except.mapError]
  | error cause =>
      obtain ⟨path, rfl⟩ := eq_escapesRoot_of_ofFiles hbuilt
      simp [Except.mapError, eq_comm]

end FileTree

/-! ## Entries -/

namespace Archive

namespace Entry

/-- The entry stands for a file of the package. -/
def IsPackageFile (entry : Entry) : Prop :=
  entry.type = .regular ∧ entry.packageSegments ≠ []

instance (entry : Entry) : Decidable entry.IsPackageFile :=
  inferInstanceAs (Decidable (_ ∧ _))

/-- The way of an entry from the root of the package: its path there, cut at backslashes, too. -/
def steps (entry : Entry) : List (List Char) :=
  entry.packageSegments.flatMap Path.segments

/-- The way of an entry stays in the package at every step, and does not end at the root. -/
def StaysInside (entry : Entry) : Prop :=
  ¬ Path.Escapes entry.steps ∧ ¬ Path.EndsAtRoot entry.steps

instance (entry : Entry) : Decidable entry.StaysInside :=
  inferInstanceAs (Decidable (_ ∧ _))

/-- Where the way of an entry ends. -/
def place (entry : Entry) : String :=
  Path.render (Path.kept entry.steps)

/-- The path of an entry in the package, as it is handed on. -/
def packagePath (entry : Entry) : String :=
  String.ofList (List.intercalate ['/'] entry.packageSegments)

variable {entry : Entry}

theorem packageFile?_eq_some_iff {file : String × Bytes} :
    entry.packageFile? = some file ↔
      entry.IsPackageFile ∧ file = (entry.packagePath, entry.contents) := by
  unfold packageFile?
  split
  · next hfile => simp [IsPackageFile, packagePath, hfile, eq_comm]
  · next hnone => simp [IsPackageFile, hnone]

theorem packageFile?_eq_none_iff : entry.packageFile? = none ↔ ¬ entry.IsPackageFile := by
  unfold packageFile? IsPackageFile
  split <;> simp [*]

variable (h : entry.IsPackageFile)
include h

theorem segments_packagePath : Path.segments entry.packagePath.toList = entry.steps := by
  rw [packagePath, String.toList_ofList, Path.segments_intercalate_flatMap h.2, steps]

theorem hasPlace_packagePath_iff : FileTree.HasPlace entry.packagePath ↔ entry.StaysInside := by
  rw [FileTree.hasPlace_iff, segments_packagePath h, StaysInside]

theorem normalize?_packagePath (hinside : entry.StaysInside) :
    Path.normalize? entry.packagePath = some entry.place := by
  rw [Path.normalize?_eq, segments_packagePath h, if_neg hinside.1, place]

end Entry

variable {entries : List Entry}

theorem mem_packageFiles_iff {file : String × Bytes} :
    file ∈ packageFiles entries ↔
      ∃ entry ∈ entries, entry.IsPackageFile ∧ file = (entry.packagePath, entry.contents) := by
  simp only [packageFiles, List.mem_filterMap, Entry.packageFile?_eq_some_iff]

/-- Entries that stand for no file leave no trace. -/
theorem packageFiles_filter {p : Entry → Bool} (h : ∀ entry, entry.IsPackageFile → p entry = true)
    (entries : List Entry) : packageFiles (entries.filter p) = packageFiles entries := by
  rw [packageFiles, packageFiles, List.filterMap_filter]
  refine List.filterMap_congr fun entry _ => ?_
  split
  · rfl
  · next hnone => exact (Entry.packageFile?_eq_none_iff.2 fun hfile => hnone (h entry hfile)).symm

theorem forall_hasPlace_iff :
    (∀ file ∈ packageFiles entries, FileTree.HasPlace file.1) ↔
      ∀ entry ∈ entries, entry.IsPackageFile → entry.StaysInside := by
  constructor
  · intro h entry hentry hfile
    have hplace := h (entry.packagePath, entry.contents)
      (mem_packageFiles_iff.2 ⟨entry, hentry, hfile, rfl⟩)
    exact (Entry.hasPlace_packagePath_iff hfile).1 hplace
  · intro h file hfile
    obtain ⟨entry, hentry, hpackage, rfl⟩ := mem_packageFiles_iff.1 hfile
    exact (Entry.hasPlace_packagePath_iff hpackage).2 (h entry hentry hpackage)

/-- The last entry for a place is the last file that is given for its path. -/
theorem lastGiven_packageFiles_iff
    (hinside : ∀ entry ∈ entries, entry.IsPackageFile → entry.StaysInside) {path : String}
    {bytes : Bytes} :
    FileTree.LastGiven (packageFiles entries) path bytes ↔
      ∃ front entry back, entries = front ++ entry :: back ∧ entry.IsPackageFile ∧
        entry.place = path ∧ entry.contents = bytes ∧
        ∀ later ∈ back, later.IsPackageFile → later.place ≠ path := by
  have hnormal (entry : Entry) (hentry : entry ∈ entries) (hfile : entry.IsPackageFile) :
      Path.normalize? entry.packagePath = some path ↔ entry.place = path := by
    rw [Entry.normalize?_packagePath hfile (hinside entry hentry hfile), Option.some.injEq]
  constructor
  · rintro ⟨front, given, back, hfiles, hgiven, hback⟩
    obtain ⟨front', rest, rfl, -, hrest⟩ := List.filterMap_eq_append_iff.1 hfiles
    obtain ⟨skipped, entry, back', rfl, -, hentry, rfl⟩ := List.filterMap_eq_cons_iff.1 hrest
    obtain ⟨hfile, hpair⟩ := Entry.packageFile?_eq_some_iff.1 hentry
    obtain ⟨rfl, rfl⟩ := Prod.mk.inj hpair
    refine ⟨front' ++ skipped, entry, back', by simp, hfile,
      (hnormal entry (by simp) hfile).1 hgiven, rfl, fun later hlater hfile' => ?_⟩
    have hgivenLater := hback (later.packagePath, later.contents)
      (mem_packageFiles_iff.2 ⟨later, hlater, hfile', rfl⟩)
    exact fun hplace => hgivenLater ((hnormal later (by simp [hlater]) hfile').2 hplace)
  · rintro ⟨front, entry, back, rfl, hfile, hplace, rfl, hback⟩
    refine ⟨packageFiles front, entry.packagePath, packageFiles back, ?_,
      (hnormal entry (by simp) hfile).2 hplace, fun file hfile' => ?_⟩
    · rw [packageFiles, List.filterMap_append, List.filterMap_cons_some
        (Entry.packageFile?_eq_some_iff.2 ⟨hfile, rfl⟩)]
      rfl
    · obtain ⟨later, hlater, hpackage, rfl⟩ := mem_packageFiles_iff.1 hfile'
      exact fun hnorm => hback later hlater hpackage
        ((hnormal later (by simp [hlater]) hpackage).1 hnorm)

/-! ## Loading -/

/-- The tree has the files of the entries that stand for one, each where its way ends and with the
    contents of the last entry for that place, and the directories above them. -/
structure Unpacked (entries : List Entry) (tree : FileTree) : Prop where
  contents : ∀ (path : String) (bytes : Bytes), tree.contents[path]? = some bytes ↔
    ∃ front entry back, entries = front ++ entry :: back ∧ entry.IsPackageFile ∧
      entry.place = path ∧ entry.contents = bytes ∧
      ∀ later ∈ back, later.IsPackageFile → later.place ≠ path
  normalForms : ∀ entry ∈ entries, entry.IsPackageFile →
    Path.normalize? entry.packagePath = some entry.place
  inside : ∀ path ∈ tree.contents, path ≠ "" ∧ Path.IsNormal path
  directories : ∀ dir, dir ∈ tree.directories ↔
    dir = "" ∨ ∃ path ∈ tree.contents, ∃ rest, path = dir ++ "/" ++ rest

section
variable {package : String} {contents : Bytes} (hname : isArchivePath package = true)
  (hentries : Archive.entries contents = .ok entries)
include hname hentries

theorem filesOfPackage_of_entries :
    filesOfPackage package (some (.file contents)) = .ok (packageFiles entries) := by
  rw [filesOfPackage, if_pos hname, hentries]
  rfl

/-- **No entry gets a file out of the package.** An archive is loaded exactly when every entry that
    stands for a file stays in the package at every step and does not end at the root; else the
    whole archive is refused, for the path of a file. What is loaded are the files at the ends of
    these ways, all in normal form below the root, a later entry in the place of an earlier one.
    Entries that stand for no file make no difference: an archive that differs in them alone loads
    as this one does. -/
theorem load_contained :
    ((∃ tree, FileTree.load package (some (.file contents)) = .ok tree) ↔
      ∀ entry ∈ entries, entry.IsPackageFile → entry.StaysInside) ∧
    (∀ error, FileTree.load package (some (.file contents)) = .error error →
      ∃ path, error = .badContents package (.escapesRoot path)) ∧
    (∀ tree, FileTree.load package (some (.file contents)) = .ok tree → Unpacked entries tree) ∧
    ∀ contents' entries', Archive.entries contents' = .ok entries' →
      entries'.filter (·.IsPackageFile) = entries.filter (·.IsPackageFile) →
      FileTree.load package (some (.file contents'))
        = FileTree.load package (some (.file contents)) := by
  have hfiles := filesOfPackage_of_entries hname hentries
  refine ⟨?_, ?_, ?_, ?_⟩
  · simp only [FileTree.load_eq_ok_iff hfiles, FileTree.exists_ofFiles_eq_ok_iff,
      forall_hasPlace_iff]
  · intro error herror
    obtain ⟨path, -, rfl⟩ := (FileTree.load_eq_error_iff hfiles).1 herror
    exact ⟨path, rfl⟩
  · intro tree htree
    rw [FileTree.load_eq_ok_iff hfiles] at htree
    have hinside := forall_hasPlace_iff.1 (FileTree.exists_ofFiles_eq_ok_iff.1 ⟨tree, htree⟩)
    exact
      { contents := fun path bytes =>
          (FileTree.getElem?_contents_iff htree).trans (lastGiven_packageFiles_iff hinside)
        normalForms := fun entry hentry hfile =>
          Entry.normalize?_packagePath hfile (hinside entry hentry hfile)
        inside := fun path hpath => ⟨FileTree.ne_root_of_mem_contents htree hpath,
          FileTree.isNormal_of_mem_contents htree hpath⟩
        directories := fun dir => FileTree.mem_directories_ofFiles htree }
  · intro contents' entries' hentries' hsame
    have hfiles' := filesOfPackage_of_entries hname hentries'
    have hfilter := packageFiles_filter fun entry (hfile : entry.IsPackageFile) =>
      decide_eq_true hfile
    have hsameFiles : packageFiles entries' = packageFiles entries := by
      rw [← hfilter entries', hsame, hfilter]
    rw [FileTree.load, FileTree.load, hfiles', hfiles, hsameFiles]

end

/-- The contents of an archive with a directory, with two entries for one file in different
    spellings, of which one goes up and one has a backslash, and with a link that leads out of the
    package. -/
def mixedContent : Bytes :=
  Tar.plainHeader "package/" "0" "2140" '5' ++
    Tar.plainHeader "package/lib/x/../a.js" "1" "4140" '0' ++ Tar.padded 512 [1] ++
    Tar.plainHeader "package/lib\\a.js" "1" "3533" '0' ++ Tar.padded 512 [2] ++
    Tar.plainHeader "package/../../evil.js" "0" "4056" '2'

/-- The contents of an archive with a file next to its package. -/
def evilContent : Bytes :=
  Tar.plainHeader "package/../evil.js" "1" "3642" '0' ++ Tar.padded 512 [3]

/-- The link does no harm, and the later spelling wins. A file next to the package is refused. -/
theorem mixed_archive_contained :
    (∃ tree, FileTree.load "pkg.tgz" (some (.file (Gzip.store mixedContent))) = .ok tree ∧
      tree.contents["lib/a.js"]? = some [2]) ∧
    ¬ ∃ tree, FileTree.load "pkg.tgz" (some (.file (Gzip.store evilContent))) = .ok tree := by
  have hname : isArchivePath "pkg.tgz" = true := by decide
  have hmixed : Archive.entries (Gzip.store mixedContent) = .ok
      [⟨.special 53, "package/", []⟩, ⟨.regular, "package/lib/x/../a.js", [1]⟩,
        ⟨.regular, "package/lib\\a.js", [2]⟩, ⟨.special 50, "package/../../evil.js", []⟩] :=
    entries_store (by decide +kernel) (by decide +kernel)
  have hevil : Archive.entries (Gzip.store evilContent)
      = .ok [⟨.regular, "package/../evil.js", [3]⟩] :=
    entries_store (by decide +kernel) (by decide +kernel)
  obtain ⟨hloads, -, hunpacked, -⟩ := load_contained hname hmixed
  obtain ⟨hloadsEvil, -⟩ := load_contained hname hevil
  constructor
  · obtain ⟨tree, htree⟩ := hloads.2 (by decide +kernel)
    refine ⟨tree, htree, ((hunpacked tree htree).contents _ _).2 ?_⟩
    exact ⟨[_, _], _, [_], rfl, by decide +kernel, by decide +kernel, rfl, by decide +kernel⟩
  · intro hload
    exact absurd (hloadsEvil.1 hload) (by decide +kernel)

end Archive

end TypingsAudit
