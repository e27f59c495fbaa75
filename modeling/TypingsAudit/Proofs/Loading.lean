import TypingsAudit.Loading
import TypingsAudit.Proofs.Archive.Containment
import TypingsAudit.Proofs.Resolution.ContentReads

set_option autoImplicit false

/-! # One package from a directory and from an archive

A directory and an archive of it give their files in different orders and under different texts: the
one has its backslashes made slashes, and the other has the folder of the archive cut off. The texts
of one file have the same segments, so they have one normal form (`Path.segments_map_slashed`,
`Archive.packageSegments_ofFile`).

For files that have different normal forms the order does not matter. What the tree then holds at a
path is a matter of membership (`FileTree.lastGiven_iff_mem`), and whether there is a tree at all is
a matter of each file alone. So two lists with the same normal forms, in whatever order, are refused
alike or give trees that are alike (`FileTree.ofFiles_alike`), and trees that are alike have the
same analyses. -/

namespace TypingsAudit

/-! ## Trees that are alike -/

namespace FileTree

/-- Two trees have the same files with the same contents, in the same order, and the same
    directories. -/
structure Alike (tree tree' : FileTree) : Prop where
  files : tree.files = tree'.files
  contents : ∀ path : String, tree.contents[path]? = tree'.contents[path]?
  directories : tree.directories.toList = tree'.directories.toList

theorem mem_contents_congr {tree tree' : FileTree}
    (h : ∀ path : String, tree.contents[path]? = tree'.contents[path]?) (path : String) :
    path ∈ tree.contents ↔ path ∈ tree'.contents := by
  rw [mem_contents_iff, mem_contents_iff, h]

/-- Of coherent trees the contents of all paths tell everything. -/
theorem Coherent.alike {tree tree' : FileTree} (h : tree.Coherent) (h' : tree'.Coherent)
    (hcontents : ∀ path : String, tree.contents[path]? = tree'.contents[path]?) :
    tree.Alike tree' := by
  have hfiles : tree.contents.Equiv tree'.contents :=
    Std.TreeMap.Equiv.of_forall_constGet?_eq hcontents
  have hdirectories : tree.directories.Equiv tree'.directories :=
    Std.TreeSet.Equiv.of_forall_mem_iff fun dir => by
      rw [h dir, h' dir]
      simp only [mem_contents_congr hcontents]
  exact
    { files := by rw [FileTree.files, FileTree.files, hfiles.toList_eq]
      contents := hcontents
      directories := hdirectories.toList_eq }

namespace Alike

variable {tree tree' : FileTree} (h : tree.Alike tree')
include h

theorem file? (path : String) : tree.file? path = tree'.file? path := by
  unfold FileTree.file? FileTree.file
  simp only [h.contents]

theorem sameLayout : tree.SameLayout tree' where
  contents := mem_contents_congr h.contents
  directories dir := by
    rw [← Std.TreeSet.mem_toList, h.directories, Std.TreeSet.mem_toList]
  manifests path _ := h.contents path

theorem moduleSyntax? (path : String) : tree.moduleSyntax? path = tree'.moduleSyntax? path := by
  rw [FileTree.moduleSyntax?, FileTree.moduleSyntax?, h.file?]

theorem ofPackage (manifest : Manifest) (options : AnalysisOptions) :
    Analysis.ofPackage tree manifest options = Analysis.ofPackage tree' manifest options := by
  refine Analysis.ofPackage_congr h.sameLayout fun result _ => ?_
  exact CellResult.problems_congr fun _ types code _ _ =>
    ⟨h.moduleSyntax? types.path, h.moduleSyntax? code.path⟩

/-- Whatever an analysis is asked for, it comes to the same. -/
theorem ofFiles (options : AnalysisOptions) :
    Analysis.ofFiles tree options = Analysis.ofFiles tree' options := by
  unfold Analysis.ofFiles
  simp only [h.file?, h.ofPackage]

end Alike

/-! ## Files in another order -/

/-- The normal forms of two paths, where they have them, are different. -/
def Apart (path other : Option String) : Prop :=
  ∀ normal, path = some normal → other ≠ some normal

/-- The files by the normal forms of their paths. -/
def normalForms (files : List (String × Bytes)) : List (Option String × Bytes) :=
  files.map fun file => (Path.normalize? file.1, file.2)

variable {files files' : List (String × Bytes)}

theorem lastGiven_iff_mem {path : String} {bytes : Bytes}
    (hapart : (normalForms files).Pairwise fun file other => Apart file.1 other.1) :
    LastGiven files path bytes ↔ (some path, bytes) ∈ normalForms files := by
  rw [normalForms, List.mem_map]
  constructor
  · rintro ⟨front, given, back, rfl, hnormal, -⟩
    exact ⟨(given, bytes), by simp, by rw [hnormal]⟩
  · rintro ⟨⟨given, bytes'⟩, hmem, hfile⟩
    obtain ⟨hnormal, rfl⟩ := Prod.mk.inj hfile
    obtain ⟨front, back, rfl⟩ := List.append_of_mem hmem
    refine ⟨front, given, back, rfl, hnormal, fun later hlater => ?_⟩
    rw [normalForms, List.pairwise_map, List.pairwise_append] at hapart
    exact (List.pairwise_cons.1 hapart.2.1).1 later hlater path hnormal

theorem forall_hasPlace_iff_normalForms :
    (∀ file ∈ files, HasPlace file.1) ↔
      ∀ file ∈ normalForms files, ∃ normal, file.1 = some normal ∧ normal ≠ "" := by
  rw [normalForms, List.forall_mem_map]
  rfl

theorem Apart.symm {path other : Option String} (h : Apart path other) : Apart other path :=
  fun normal hother hpath => h normal hpath hother

/-- **The order of the files does not matter, and neither does the spelling of their paths.** -/
theorem ofFiles_alike (hperm : (normalForms files).Perm (normalForms files'))
    (hapart : (normalForms files).Pairwise fun file other => Apart file.1 other.1) :
    (∃ tree tree', ofFiles files = .ok tree ∧ ofFiles files' = .ok tree' ∧ tree.Alike tree') ∨
      (¬ ∀ file ∈ files, HasPlace file.1) ∧
        ∃ path path', ofFiles files = .error (.escapesRoot path) ∧
          ofFiles files' = .error (.escapesRoot path') := by
  have hapart' : (normalForms files').Pairwise fun file other => Apart file.1 other.1 :=
    (hperm.pairwise_iff fun h => h.symm).1 hapart
  have hplaces : (∀ file ∈ files, HasPlace file.1) ↔ ∀ file ∈ files', HasPlace file.1 := by
    rw [forall_hasPlace_iff_normalForms, forall_hasPlace_iff_normalForms]
    simp only [hperm.mem_iff]
  cases hbuilt : ofFiles files with
  | ok tree =>
      left
      obtain ⟨tree', hbuilt'⟩ := exists_ofFiles_eq_ok_iff.2
        (hplaces.1 (exists_ofFiles_eq_ok_iff.1 ⟨tree, hbuilt⟩))
      refine ⟨tree, tree', rfl, hbuilt', ?_⟩
      refine (coherent_ofFiles hbuilt).alike (coherent_ofFiles hbuilt') fun path => ?_
      ext bytes
      rw [getElem?_contents_iff hbuilt, getElem?_contents_iff hbuilt', lastGiven_iff_mem hapart,
        lastGiven_iff_mem hapart', hperm.mem_iff]
  | error cause =>
      right
      have hrefused : ¬ ∀ file ∈ files, HasPlace file.1 := fun hall => by
        obtain ⟨tree, htree⟩ := exists_ofFiles_eq_ok_iff.2 hall
        rw [hbuilt] at htree
        cases htree
      obtain ⟨path, rfl⟩ := eq_escapesRoot_of_ofFiles hbuilt
      refine ⟨hrefused, path, ?_⟩
      cases hbuilt' : ofFiles files' with
      | ok tree' =>
          exact absurd (hplaces.2 (exists_ofFiles_eq_ok_iff.1 ⟨tree', hbuilt'⟩)) hrefused
      | error cause' =>
          obtain ⟨path', rfl⟩ := eq_escapesRoot_of_ofFiles hbuilt'
          exact ⟨path', rfl, rfl⟩

end FileTree

/-! ## The texts of a path -/

namespace Path

/-- A backslash made a slash. -/
def slashed (c : Char) : Char :=
  if c = '\\' then '/' else c

/-- Backslashes made slashes cut a path where they did. -/
theorem segments_map_slashed (path : List Char) : segments (path.map slashed) = segments path := by
  induction path with
  | nil => rfl
  | cons c rest ih =>
      rw [List.map_cons, segments, segments, List.splitOnP_cons_eq_if_modifyHead,
        List.splitOnP_cons_eq_if_modifyHead]
      rw [segments, segments] at ih
      rw [ih]
      by_cases hc : c = '\\'
      · subst hc
        rfl
      · rw [slashed, if_neg hc]

theorem normalize?_map_slashed (path : String) :
    normalize? (String.ofList (path.toList.map slashed)) = normalize? path := by
  rw [normalize?, String.toList_ofList, segments_map_slashed, normalize?]

end Path

/-! ## The files of a directory -/

/-- A name that a file or a directory can have. -/
def IsFileName (name : String) : Prop :=
  Path.IsName name.toList ∧ '/' ∉ name.toList

instance (name : String) : Decidable (IsFileName name) :=
  inferInstanceAs (Decidable (_ ∧ _))

namespace DiskEntry

mutual

/-- All files at and below an entry, each with the names on the way to it. -/
def allFiles : DiskEntry → List (List String × Bytes)
  | .file contents => [([], contents)]
  | .directory entries => allFilesIn entries

/-- All files at and below the entries of a directory. -/
def allFilesIn : List (String × DiskEntry) → List (List String × Bytes)
  | [] => []
  | (name, entry) :: rest =>
    (allFiles entry).map (fun (names, contents) => (name :: names, contents)) ++ allFilesIn rest

end

/-- No name on the way to a file is one of those that are left out. -/
def NoneSkipped (files : List (List String × Bytes)) : Prop :=
  ∀ file ∈ files, ∀ name ∈ file.1, name ∉ skippedNames

mutual

/-- Where no name is left out, no file is. -/
theorem walk_eq_allFiles (entry : DiskEntry) (h : NoneSkipped entry.allFiles) :
    entry.walk = entry.allFiles := by
  match entry with
  | .file contents => rfl
  | .directory entries => exact walkAll_eq_allFilesIn entries h

theorem walkAll_eq_allFilesIn (entries : List (String × DiskEntry))
    (h : NoneSkipped (allFilesIn entries)) : walkAll entries = allFilesIn entries := by
  match entries with
  | [] => rfl
  | (name, entry) :: rest =>
      rw [allFilesIn, NoneSkipped, List.forall_mem_append, List.forall_mem_map] at h
      have hrest := walkAll_eq_allFilesIn rest h.2
      have hentry := walk_eq_allFiles entry fun file hfile other hother =>
        h.1 file hfile other (List.mem_cons_of_mem _ hother)
      rw [walkAll, allFilesIn, hrest]
      by_cases hskipped : name ∈ skippedNames
      · -- A directory of such a name has no files at all.
        have hempty : entry.allFiles = [] := List.eq_nil_iff_forall_not_mem.2 fun file hfile =>
          h.1 file hfile name (List.mem_cons_self ..) hskipped
        rw [if_pos hskipped, hempty]
      · rw [if_neg hskipped, hentry]

end

theorem ne_nil_of_mem_allFiles {entries : List (String × DiskEntry)}
    {file : List String × Bytes} (h : file ∈ (directory entries).allFiles) : file.1 ≠ [] := by
  rw [allFiles] at h
  induction entries with
  | nil => simp [allFilesIn] at h
  | cons first rest ih =>
      obtain ⟨name, entry⟩ := first
      rw [allFilesIn, List.mem_append, List.mem_map] at h
      rcases h with ⟨file, -, rfl⟩ | h
      · exact List.cons_ne_nil _ _
      · exact ih h

/-- The path of a file below a directory. -/
def pathOf (file : List String × Bytes) : String :=
  "/".intercalate file.1

/-- The files of the package in a directory are all its files, whatever is done to their paths. -/
theorem normalForms_packageFiles {entry : DiskEntry} (h : NoneSkipped entry.allFiles) :
    FileTree.normalForms entry.packageFiles
      = entry.allFiles.map fun file => (Path.normalize? (pathOf file), file.2) := by
  rw [FileTree.normalForms, packageFiles, walk_eq_allFiles entry h, List.map_map]
  exact List.map_congr_left fun file _ => congrArg (·, file.2) (Path.normalize?_map_slashed _)

end DiskEntry

/-! ## The same files in an archive -/

namespace Archive

/-- The entry of an archive for a file of a directory. -/
def Entry.ofFile (file : List String × Bytes) : Entry :=
  { type := .regular, path := "package/" ++ DiskEntry.pathOf file, contents := file.2 }

theorem Component.filterMap_segment? {segments : List (List Char)}
    (h : ∀ s ∈ segments, Path.IsName s) :
    (segments.filterMap ofSegment?).filterMap segment? = segments := by
  induction segments with
  | nil => rfl
  | cons s rest ih =>
      rw [List.forall_mem_cons] at h
      obtain ⟨hname, hrest⟩ := h
      have hs : ofSegment? s = some (.name s) := by
        rw [ofSegment?, if_neg (not_or.2 ⟨hname.1, hname.2.1⟩), if_neg hname.2.2]
      have hsegment : segment? (.name s) = some s := rfl
      rw [List.filterMap_cons_some hs, List.filterMap_cons_some hsegment, ih hrest]

section
variable {file : List String × Bytes} (hne : file.1 ≠ [])
  (hnames : ∀ name ∈ file.1, IsFileName name)
include hne hnames

/-- The first component is the folder of the archive, and nothing else gets lost. -/
theorem packageSegments_ofFile :
    (Entry.ofFile file).packageSegments = file.1.map String.toList := by
  have hpath : (Entry.ofFile file).path.toList
      = List.intercalate ['/'] ("package".toList :: file.1.map String.toList) := by
    obtain ⟨name, names, hcons⟩ := List.exists_cons_of_ne_nil hne
    rw [hcons, List.map_cons, List.intercalate_cons_cons]
    simp [Entry.ofFile, DiskEntry.pathOf, hcons, String.toList_intercalate]
  have hsplit : (Entry.ofFile file).path.toList.splitOn '/'
      = "package".toList :: file.1.map String.toList := by
    rw [hpath]
    refine List.splitOn_intercalate '/' ?_ (List.cons_ne_nil _ _)
    rw [List.forall_mem_cons, List.forall_mem_map]
    exact ⟨by decide, fun name hname => (hnames name hname).2⟩
  have hroot : (Entry.ofFile file).path.toList ≠ [] := by
    simp [Entry.ofFile]
  have hfirst : Component.ofFirst? "package".toList = some (.name "package".toList) := by decide
  rw [Entry.packageSegments, components, if_neg hroot, hsplit]
  simp only [hfirst, Option.toList_some, List.singleton_append, List.drop_succ_cons,
    List.drop_zero]
  exact Component.filterMap_segment?
    (List.forall_mem_map.2 fun name hname => (hnames name hname).1)

theorem isPackageFile_ofFile : (Entry.ofFile file).IsPackageFile := by
  refine ⟨rfl, ?_⟩
  rw [packageSegments_ofFile hne hnames]
  simpa using hne

theorem packagePath_ofFile : (Entry.ofFile file).packagePath = DiskEntry.pathOf file := by
  rw [← String.toList_inj, Entry.packagePath, packageSegments_ofFile hne hnames,
    String.toList_ofList, DiskEntry.pathOf, String.toList_intercalate]
  rfl

end

theorem packageFiles_map_ofFile {files : List (List String × Bytes)}
    (hne : ∀ file ∈ files, file.1 ≠ [])
    (hnames : ∀ file ∈ files, ∀ name ∈ file.1, IsFileName name) :
    packageFiles (files.map Entry.ofFile)
      = files.map fun file => (DiskEntry.pathOf file, file.2) := by
  rw [packageFiles, List.filterMap_map, ← List.filterMap_eq_map]
  refine List.filterMap_congr fun file hfile => ?_
  have hpackage := isPackageFile_ofFile (hne file hfile) (hnames file hfile)
  have hpath := packagePath_ofFile (hne file hfile) (hnames file hfile)
  exact Entry.packageFile?_eq_some_iff.2 ⟨hpackage, by rw [hpath]; rfl⟩

theorem packageFiles_perm {entries others : List Entry} (h : entries.Perm others) :
    (packageFiles entries).Perm (packageFiles others) :=
  h.filterMap Entry.packageFile?

end Archive

/-- An archive that has one regular entry for every file of a directory has the files of that
    directory, in some order. -/
theorem normalForms_packageFiles_perm {files : List (List String × Bytes)}
    {members : List Archive.Entry} (hne : ∀ file ∈ files, file.1 ≠ [])
    (hnames : ∀ file ∈ files, ∀ name ∈ file.1, IsFileName name)
    (hperm : (members.filter (·.type = .regular)).Perm (files.map Archive.Entry.ofFile)) :
    (FileTree.normalForms (Archive.packageFiles members)).Perm
      (files.map fun file => (Path.normalize? (DiskEntry.pathOf file), file.2)) := by
  have hfiles := Archive.packageFiles_perm hperm
  rw [Archive.packageFiles_filter (fun entry hfile => decide_eq_true hfile.1),
    Archive.packageFiles_map_ofFile hne hnames] at hfiles
  have hforms := hfiles.map fun file => (Path.normalize? file.1, file.2)
  rw [List.map_map] at hforms
  exact hforms

/-- **A directory and an archive of it are the same package.** Let the names in a directory be
    names that files can have and none of those that are left out, and let no two of its files have
    one normal form. An archive that has one regular entry for every file, with its path below
    `package`, in any order and among any entries that are not regular, loads as the directory
    does: to the same files with the same contents and the same directories, and so to the same
    analysis under all options; or else some file has no place in the package, and both are refused
    for a path. -/
theorem archive_loads_as_directory {directory archive : String}
    {entries : List (String × DiskEntry)} {contents : Bytes} {members : List Archive.Entry}
    (harchive : Archive.isArchivePath archive = true)
    (hmembers : Archive.entries contents = .ok members)
    (hnames : ∀ file ∈ (DiskEntry.directory entries).allFiles, ∀ name ∈ file.1, IsFileName name)
    (hskipped : DiskEntry.NoneSkipped (DiskEntry.directory entries).allFiles)
    (hapart : (DiskEntry.directory entries).allFiles.Pairwise fun file other =>
      FileTree.Apart (Path.normalize? (DiskEntry.pathOf file))
        (Path.normalize? (DiskEntry.pathOf other)))
    (hperm : (members.filter (·.type = .regular)).Perm
      ((DiskEntry.directory entries).allFiles.map Archive.Entry.ofFile)) :
    (∃ tree tree', FileTree.load directory (some (.directory entries)) = .ok tree ∧
      FileTree.load archive (some (.file contents)) = .ok tree' ∧ tree.Alike tree' ∧
      ∀ options, Analysis.ofFiles tree options = Analysis.ofFiles tree' options) ∨
    (∃ file ∈ (DiskEntry.directory entries).allFiles,
      ¬ FileTree.HasPlace (DiskEntry.pathOf file)) ∧
      ∃ path path',
        FileTree.load directory (some (.directory entries))
          = .error (.badContents directory (.escapesRoot path)) ∧
        FileTree.load archive (some (.file contents))
          = .error (.badContents archive (.escapesRoot path')) := by
  have hfiles : filesOfPackage directory (some (.directory entries))
      = .ok (DiskEntry.directory entries).packageFiles := rfl
  have hfiles' := Archive.filesOfPackage_of_entries harchive hmembers
  have hforms := DiskEntry.normalForms_packageFiles hskipped
  have hsame := normalForms_packageFiles_perm
    (fun file hfile => DiskEntry.ne_nil_of_mem_allFiles hfile) hnames hperm
  rw [← hforms] at hsame
  have hdistinct : (FileTree.normalForms (DiskEntry.directory entries).packageFiles).Pairwise
      fun file other => FileTree.Apart file.1 other.1 := by
    rw [hforms, List.pairwise_map]
    exact hapart
  rcases FileTree.ofFiles_alike hsame.symm hdistinct with
    ⟨tree, tree', htree, htree', halike⟩ | ⟨hrefused, path, path', hpath, hpath'⟩
  · left
    exact ⟨tree, tree', (FileTree.load_eq_ok_iff hfiles).2 htree,
      (FileTree.load_eq_ok_iff hfiles').2 htree', halike, halike.ofFiles⟩
  · right
    rw [FileTree.forall_hasPlace_iff_normalForms, hforms, List.forall_mem_map] at hrefused
    refine ⟨by simpa [FileTree.HasPlace] using hrefused, path, path', ?_, ?_⟩
    · exact (FileTree.load_eq_error_iff hfiles).2 ⟨path, hpath, rfl⟩
    · exact (FileTree.load_eq_error_iff hfiles').2 ⟨path', hpath', rfl⟩

/-- The contents of an archive with an entry for its folder, and two files. -/
def Archive.reorderedContent : Bytes :=
  Tar.plainHeader "package/" "0" "2140" '5' ++
    Tar.plainHeader "package/package.json" "2" "4421" '0' ++ Tar.padded 512 [123, 125] ++
    Tar.plainHeader "package/lib\\a.js" "1" "3533" '0' ++ Tar.padded 512 [1]

/-- A directory with a file that has a backslash in its name, and an archive of it in another
    order. -/
theorem backslash_archive_loads_as_directory :
    let directory : DiskEntry := .directory
      [("lib\\a.js", .file [1]), ("empty", .directory []), ("package.json", .file [123, 125])]
    ∃ tree tree', FileTree.load "pkg" (some directory) = .ok tree ∧
      FileTree.load "pkg.tgz" (some (.file (Archive.Gzip.store Archive.reorderedContent)))
        = .ok tree' ∧ tree.Alike tree' ∧
      ∀ options, Analysis.ofFiles tree options = Analysis.ofFiles tree' options := by
  intro directory
  have hmembers : Archive.entries (Archive.Gzip.store Archive.reorderedContent) = .ok
      [⟨.special 53, "package/", []⟩, ⟨.regular, "package/package.json", [123, 125]⟩,
        ⟨.regular, "package/lib\\a.js", [1]⟩] :=
    Archive.entries_store (by decide +kernel) (by decide +kernel)
  have hfiles : directory.allFiles = [(["lib\\a.js"], [1]), (["package.json"], [123, 125])] := rfl
  have hlib : Path.normalize? (DiskEntry.pathOf (["lib\\a.js"], [1])) = some "lib/a.js" := by
    decide +kernel
  have hjson : Path.normalize? (DiskEntry.pathOf (["package.json"], [123, 125]))
      = some "package.json" := by
    decide +kernel
  have hnames : ∀ file ∈ directory.allFiles, ∀ name ∈ file.1, IsFileName name := by
    rw [hfiles]
    decide +kernel
  have hskipped : DiskEntry.NoneSkipped directory.allFiles := by
    simp [hfiles, DiskEntry.NoneSkipped, DiskEntry.skippedNames]
  have hapart : directory.allFiles.Pairwise fun file other =>
      FileTree.Apart (Path.normalize? (DiskEntry.pathOf file))
        (Path.normalize? (DiskEntry.pathOf other)) := by
    rw [hfiles, List.pairwise_pair, hlib, hjson]
    intro normal hnormal hother
    exact absurd (hnormal.trans hother.symm) (by decide)
  have harchive : Archive.isArchivePath "pkg.tgz" = true := by decide
  rcases archive_loads_as_directory harchive hmembers hnames hskipped hapart (.swap _ _ _)
    with halike | ⟨⟨file, hfile, hrefused⟩, -⟩
  · exact halike
  · rw [hfiles, List.mem_pair] at hfile
    rcases hfile with rfl | rfl
    · exact absurd ⟨_, hlib, by decide⟩ hrefused
    · exact absurd ⟨_, hjson, by decide⟩ hrefused

end TypingsAudit
