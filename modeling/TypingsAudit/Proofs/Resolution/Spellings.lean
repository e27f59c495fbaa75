import TypingsAudit.Proofs.Analysis.SyntaxCache
import TypingsAudit.Proofs.Data
import TypingsAudit.Proofs.FileTree.Listing
import TypingsAudit.Proofs.Path.Canonical
import TypingsAudit.Proofs.Resolution.Scopes
import TypingsAudit.Proofs.Resolution.Soundness

set_option autoImplicit false

/-! # One file under several paths

Paths with one normal form are spellings of one another. A tree normalizes every path that it is
asked about, so it does not tell spellings apart (`FileTree.AnswersAlike`), and neither does anybody
who asks how a file is written.

The format of a file and the directory of an importer are taken from the text of a path as it
stands. The format looks at the ending of that text and at the directories that its slashes cut off,
of which only those in normal form can have a manifest (`ModuleScopes.SameScopes`). An importer is
cut at its last slash, and what stands in front of it (`Path.folder`) is normalized together with
the specifier.

Both conditions are exact. That they are enough holds for every package. That they are needed is
shown by packages with a single file: a directory that only one path has above it is given a
manifest, and a directory that only one of two importers lies in is made a file, which `"."` then
finds. -/

namespace TypingsAudit

variable {path other normal dir : String}

/-! ## Questions to the tree -/

namespace FileTree

/-- Whatever the tree is asked about one path, it answers as it does about the other. -/
structure AnswersAlike (tree : FileTree) (path other : String) : Prop where
  file : tree.file path = tree.file other
  isFile : tree.isFile path = tree.isFile other
  isDirectory : tree.isDirectory path = tree.isDirectory other
  exists? : tree.exists? path = tree.exists? other
  children : tree.children path = tree.children other

theorem answersAlike (tree : FileTree) (h : Path.normalize? path = Path.normalize? other)
    (hpath : Path.normalize? path = some normal) : tree.AnswersAlike path other := by
  have hsame : Path.normalize path = Path.normalize other := by
    rw [Path.normalize_eq_ok_iff.2 hpath, Path.normalize_eq_ok_iff.2 (h ▸ hpath)]
  have hfile : tree.isFile path = tree.isFile other := by rw [isFile, isFile, h]
  have hdirectory : tree.isDirectory path = tree.isDirectory other := by
    rw [isDirectory, isDirectory, h]
  exact
    { file := by rw [file, file, hsame]
      isFile := hfile
      isDirectory := hdirectory
      exists? := by rw [exists?, exists?, hfile, hdirectory]
      children := by rw [children, children, hsame] }

theorem AnswersAlike.moduleSyntax?_eq {tree : FileTree} (h : tree.AnswersAlike path other) :
    tree.moduleSyntax? path = tree.moduleSyntax? other := by
  rw [moduleSyntax?, moduleSyntax?, file?, file?, h.file]

/-- The tree of a single file. -/
theorem ofFiles_singleton (hpath : Path.IsNormal path) (hne : path ≠ "") (bytes : Bytes) :
    ofFiles [(path, bytes)] = .ok (empty.insert path bytes) := by
  have hadd : empty.add path bytes = .ok (empty.insert path bytes) :=
    add_eq_ok_iff.2 ⟨path, Path.normalize?_of_isNormal hpath, hne, rfl⟩
  exact (ofFiles_concat [] (path, bytes)).trans hadd

theorem getElem?_contents_singleton (path other : String) (bytes : Bytes) :
    (empty.insert path bytes).contents[other]? = if path = other then some bytes else none := by
  simp [insert, empty, Std.TreeMap.getElem?_insert]

end FileTree

/-! ## Formats -/

/-- The format that the kind of a file stands for by itself. A kind without one leaves it to the
    manifests. -/
def FileKind.ownFormat? : FileKind → Option ModuleFormat
  | .mjs | .dmts => some .esm
  | .cjs | .dcts => some .cjs
  | .js | .dts => none
  | .json | .other => some .unknown

namespace ModuleScopes

/-- Two paths have one format in every package. -/
def FormatsAlike (path other : String) : Prop :=
  ∀ files tree rootType, FileTree.ofFiles files = .ok tree →
    (ofTree tree rootType).formatOf path = (ofTree tree rootType).formatOf other

/-- The endings of two paths settle the format alike, or both leave it to the manifests, and the
    paths have the same directories in normal form above them. -/
def SameScopes (path other : String) : Prop :=
  (FileKind.ofPath path).ownFormat? = (FileKind.ofPath other).ownFormat? ∧
    ((FileKind.ofPath path).ownFormat? = none →
      ∀ dir, Path.IsNormal dir → (dir ∈ Path.ancestors path ↔ dir ∈ Path.ancestors other))

theorem formatOf_eq (scopes : ModuleScopes) (path : String) :
    scopes.formatOf path = (FileKind.ofPath path).ownFormat?.getD
      (if scopes.typeOf path = some .module then .esm else .cjs) := by
  unfold formatOf
  cases FileKind.ofPath path <;> rfl

theorem ne_root_of_ownFormat? (h : (FileKind.ofPath path).ownFormat? = none) : path ≠ "" := by
  rintro rfl
  exact absurd h (by decide)

/-- Scopes begin at directories in normal form only. -/
theorem isNormal_of_begins {files : List (String × Bytes)} {tree : FileTree}
    (htree : FileTree.ofFiles files = .ok tree)
    (h : dir = "" ∨ (tree.manifestAt? dir).isSome) : Path.IsNormal dir := by
  rcases h with hroot | hmanifest
  · exact Or.inl hroot
  · have hmem : dir ++ "/" ++ Manifest.fileName ∈ tree.contents :=
      Std.TreeMap.mem_iff_isSome_getElem?.2 hmanifest
    exact (FileTree.isNormal_of_mem_contents htree hmem).of_append_slash.1

/-- The nearest manifest above one path is the nearest above another one that has the same
    directories in normal form above it. -/
theorem Nearest.congr {files : List (String × Bytes)} {tree : FileTree}
    (htree : FileTree.ofFiles files = .ok tree)
    (hsame : ∀ dir, Path.IsNormal dir → (dir ∈ Path.ancestors path ↔ dir ∈ Path.ancestors other))
    (h : Nearest tree path dir) : Nearest tree other dir where
  above := (hsame dir (isNormal_of_begins htree h.begins)).1 h.above
  begins := h.begins
  innermost := by
    intro above habove hbegins
    exact h.innermost above ((hsame above (isNormal_of_begins htree hbegins)).2 habove) hbegins

theorem SameScopes.formatsAlike (h : SameScopes path other) : FormatsAlike path other := by
  intro files tree rootType htree
  obtain ⟨hown, hsame⟩ := h
  rw [formatOf_eq, formatOf_eq, ← hown]
  cases hformat : (FileKind.ofPath path).ownFormat? with
  | some format => rfl
  | none =>
      obtain ⟨dir, type, hnearest, htype, hfind⟩ :=
        exists_nearest tree rootType (ne_root_of_ownFormat? hformat)
      obtain ⟨dir', type', hnearest', htype', hfind'⟩ :=
        exists_nearest tree rootType (ne_root_of_ownFormat? (hown ▸ hformat))
      obtain rfl := (hnearest.congr htree (hsame hformat)).unique hnearest'
      have hsameType : type = type' := Option.some.inj (htype.symm.trans htype')
      rw [typeOf, typeOf, hfind, hfind', hsameType]

/-! ### Packages that tell two paths apart -/

/-- The text of a manifest of ES modules, and nothing else. -/
def moduleManifest : Bytes :=
  Bytes.ofString "\x7b\"type\":\"module\"\x7d"

/-- The package whose only file is the manifest of a directory, which is one of ES modules. -/
def moduleTree (dir : String) : FileTree :=
  FileTree.empty.insert (dir ++ "/" ++ Manifest.fileName) moduleManifest

theorem manifestAt?_moduleTree (dir other : String) :
    (moduleTree dir).manifestAt? other = if dir = other then some moduleManifest else none := by
  rw [FileTree.manifestAt?, moduleTree, FileTree.getElem?_contents_singleton]
  simp only [String.append_left_inj]

theorem ofFiles_moduleTree (hdir : Path.IsNormal dir) (hne : dir ≠ "") :
    FileTree.ofFiles [(dir ++ "/" ++ Manifest.fileName, moduleManifest)]
      = .ok (moduleTree dir) :=
  FileTree.ofFiles_singleton (hdir.child hne (by decide) (by decide)) (by simp) _

/-- In such a package the files below the directory are ES modules, and no others. -/
theorem typeOf_moduleTree_iff (hne : dir ≠ "") (hpath : path ≠ "") :
    (ofTree (moduleTree dir) none).typeOf path = some .module ↔ dir ∈ Path.ancestors path := by
  obtain ⟨near, type, hnearest, htype, hfind⟩ := exists_nearest (moduleTree dir) none hpath
  rw [typeOf, hfind, Option.getD_some]
  rw [ofDirectory?, manifestAt?_moduleTree] at htype
  constructor
  · rintro rfl
    split at htype
    · cases htype
    · split at htype
      · next heq => exact heq ▸ hnearest.above
      · cases htype
  · intro habove
    have hbegins : dir = "" ∨ ((moduleTree dir).manifestAt? dir).isSome := by
      rw [manifestAt?_moduleTree, if_pos rfl]
      exact Or.inr rfl
    have hnear : dir = near := by
      rcases hnearest.innermost dir habove hbegins with heq | hbelow
      · exact heq
      · have hroot : near ≠ "" := (Path.mem_ancestors_iff.1 hbelow).1
        have hmanifest := hnearest.begins.resolve_left hroot
        rw [manifestAt?_moduleTree] at hmanifest
        split at hmanifest
        · assumption
        · cases hmanifest
    rw [if_neg (hnear ▸ hne), if_pos hnear] at htype
    obtain rfl := Option.some.inj htype
    decide +kernel

/-- A package without manifests leaves the format to the ending and the `type` of the package. -/
theorem formatOf_empty (rootType : Option PackageType) (path : String) :
    (ofTree .empty rootType).formatOf path = (FileKind.ofPath path).ownFormat?.getD
      (if rootType = some .module then .esm else .cjs) := by
  rw [formatOf_eq]
  cases hformat : (FileKind.ofPath path).ownFormat? with
  | some format => rfl
  | none =>
      obtain ⟨near, type, hnearest, htype, hfind⟩ :=
        exists_nearest .empty rootType (ne_root_of_ownFormat? hformat)
      have hroot : near = "" := hnearest.begins.resolve_right (by
        simp [FileTree.manifestAt?, FileTree.empty])
      rw [ofDirectory?, if_pos hroot, Option.some.injEq] at htype
      rw [typeOf, hfind, Option.getD_some, htype]

theorem FormatsAlike.sameScopes (h : FormatsAlike path other) : SameScopes path other := by
  have hempty (rootType : Option PackageType) := h [] .empty rootType rfl
  simp only [formatOf_empty] at hempty
  have hown : (FileKind.ofPath path).ownFormat? = (FileKind.ofPath other).ownFormat? :=
    eq_of_getD_eq (by decide) (hempty none) (hempty (some .module))
  refine ⟨hown, fun hnone dir hdir => ?_⟩
  have hpath := ne_root_of_ownFormat? hnone
  have hother := ne_root_of_ownFormat? (hown ▸ hnone)
  by_cases hroot : dir = ""
  · simp [Path.mem_ancestors_iff, hroot, hpath, hother]
  · have hformat := h _ _ none (ofFiles_moduleTree hdir hroot)
    simp only [formatOf_eq, ← hown, hnone, Option.getD_none, typeOf_moduleTree_iff hroot hpath,
      typeOf_moduleTree_iff hroot hother] at hformat
    constructor
    · intro habove
      by_contra hnot
      rw [if_pos habove, if_neg hnot] at hformat
      cases hformat
    · intro habove
      by_contra hnot
      rw [if_neg hnot, if_pos habove] at hformat
      cases hformat

end ModuleScopes

/-! ## Importers -/

namespace Path

/-- The directory that the imports of a file are read from, as the path of the file has it. -/
def folder (path : String) : String :=
  (parent? path).getD ""

theorem join?_eq_bind (dir request : String) :
    join? dir request = (normalize? dir).bind (join? · request) := by
  by_cases hroot : dir = ""
  · subst hroot
    rfl
  · rw [join?, if_neg hroot, normalize?_append]

/-- A directory is found from itself as `"."`. -/
theorem join?_dot (dir : String) : join? dir "." = normalize? dir := by
  by_cases hroot : dir = ""
  · subst hroot
    rfl
  · have htext : (dir ++ "/" ++ ".").toList = dir.toList ++ '/' :: ['.'] := by simp
    have hdot : segments ['.'] = [['.']] := rfl
    rw [join?, if_neg hroot, normalize?, htext, segments_append_slash_append, hdot, walk_append,
      normalize?]
    cases walk [] (segments dir.toList) with
    | none => rfl
    | some here => rfl

/-- What stands in front of the last slash stays in the package if the whole path does. -/
theorem exists_normalize?_folder (h : normalize? path = some normal) :
    ∃ dir, normalize? (folder path) = some dir := by
  rw [folder]
  cases hparent : parent? path with
  | none => exact ⟨"", rfl⟩
  | some dir =>
      rcases parent?_eq_some hparent with ⟨rfl, -⟩ | ⟨name, -, rfl⟩
      · exact ⟨"", rfl⟩
      · rw [normalize?_append] at h
        obtain ⟨front, hfront, -⟩ := Option.bind_eq_some_iff.1 h
        exact ⟨front, hfront⟩

end Path

namespace Resolver

/-- Whatever the two paths import, in any package they get the same. -/
def ImportsAlike (path other : String) : Prop :=
  ∀ files tree, FileTree.ofFiles files = .ok tree →
    ∀ manifest extraConditions kind specifier mode active,
      let r := ofPackage tree manifest extraConditions
      r.resolve kind specifier (some path) mode active
        = r.resolve kind specifier (some other) mode active

theorem resolve_of_isRelative (r : Resolver) (kind : ResolutionKind) {specifier : String}
    (mode : ResolutionMode) (active : ConditionSet) (h : isRelative specifier = true) :
    r.resolve kind specifier (some path) mode active
      = ((Path.join? (Path.folder path) specifier).map (r.atPath kind · mode)).getD
          (.notFound .fileNotFound) := by
  simp only [resolve, if_pos h, Option.bind_some, Path.folder]
  cases Path.join? ((Path.parent? path).getD "") specifier with
  | none => rfl
  | some target => rfl

/-- An importer is asked for its directory only, in normal form. -/
theorem resolve_congr (r : Resolver) (kind : ResolutionKind) (specifier : String)
    (mode : ResolutionMode) (active : ConditionSet)
    (h : Path.normalize? (Path.folder path) = Path.normalize? (Path.folder other)) :
    r.resolve kind specifier (some path) mode active
      = r.resolve kind specifier (some other) mode active := by
  by_cases hrelative : isRelative specifier = true
  · rw [resolve_of_isRelative _ _ _ _ hrelative, resolve_of_isRelative _ _ _ _ hrelative,
      Path.join?_eq_bind, h, ← Path.join?_eq_bind]
  · rw [resolve, resolve, if_neg hrelative, if_neg hrelative]

theorem resolve_dot (r : Resolver) (active : ConditionSet)
    (h : Path.normalize? (Path.folder path) = some dir) :
    r.resolve .node16Esm "." (some path) .runtime active = r.exactly dir .runtime := by
  rw [resolve_of_isRelative _ _ _ _ (by decide), Path.join?_dot, h, Option.map_some,
    Option.getD_some, atPath, if_pos rfl]

/-- A manifest that says nothing. -/
def silentManifest : Manifest :=
  { name := none, version := none, type := none, main := none, module := none, types := none
    exports := none, typesVersions := none }

/-- In the package of a single file only the path of that file is found. -/
theorem isFound_exactly_singleton_iff (file : String) (hpath : Path.IsNormal path) :
    ((ofPackage (FileTree.empty.insert file []) silentManifest []).exactly path .runtime).isFound
      ↔ file = path := by
  have hfile : (FileTree.empty.insert file []).isFile path = true ↔ file = path := by
    rw [FileTree.isFile_of_isNormal _ hpath, Std.TreeMap.contains_iff_mem,
      Std.TreeMap.mem_iff_isSome_getElem?, FileTree.getElem?_contents_singleton]
    split <;> simp [*]
  rw [← hfile]
  simp only [exactly, ofPackage, Option.filter]
  split <;> simp_all [found, Resolution.isFound, Resolution.file?]

theorem ImportsAlike.folder_eq (h : ImportsAlike path other)
    (hpath : Path.normalize? path = some normal) (hother : Path.normalize? other = some normal) :
    Path.normalize? (Path.folder path) = Path.normalize? (Path.folder other) := by
  obtain ⟨dir, hdir⟩ := Path.exists_normalize?_folder hpath
  obtain ⟨dir', hdir'⟩ := Path.exists_normalize?_folder hother
  have hnormal := Path.isNormal_of_normalize? hdir
  have hnormal' := Path.isNormal_of_normalize? hdir'
  -- The directory of either importer is made a file.
  have hfile (file : String) (hfile : Path.IsNormal file) (hne : file ≠ "") :
      file = dir ↔ file = dir' := by
    have hanswer := h _ _ (FileTree.ofFiles_singleton hfile hne []) silentManifest [] .node16Esm
      "." .runtime (ConditionSet.ofNames [])
    simp only [resolve_dot _ _ hdir, resolve_dot _ _ hdir'] at hanswer
    rw [← isFound_exactly_singleton_iff file hnormal, hanswer,
      isFound_exactly_singleton_iff file hnormal']
  rw [hdir, hdir', Option.some.injEq]
  by_cases hroot : dir = ""
  · by_cases hroot' : dir' = ""
    · rw [hroot, hroot']
    · exact ((hfile dir' hnormal' hroot').2 rfl).symm
  · exact (hfile dir hnormal hroot).1 rfl

end Resolver

namespace Path

/-- **What depends on the spelling.** Let two paths be spellings of one normal path. The tree
    answers about both alike, and so does whoever is asked how their file is written, with a cache
    that any crew has left at any point. In every package the format of both is the same exactly
    when their endings settle it alike, or both leave it to the manifests and have the same
    directories in normal form above them. Imports of both are answered alike in every package
    exactly when what stands in front of their last slashes has one normal form. -/
theorem spellings_agree_iff {path other normal : String} (hpath : normalize? path = some normal)
    (hother : normalize? other = some normal) :
    (∀ tree : FileTree, tree.AnswersAlike path other ∧
      ∀ {β : Type} (earlier : List (Inquiry β)) (before : List Nat),
        let cache := ((Crew.start {} earlier).run tree before).cache
        (cache.query tree path).1 = (cache.query tree other).1) ∧
    (ModuleScopes.FormatsAlike path other ↔ ModuleScopes.SameScopes path other) ∧
    (Resolver.ImportsAlike path other ↔
      normalize? (folder path) = normalize? (folder other)) := by
  have hsame : normalize? path = normalize? other := hpath.trans hother.symm
  refine ⟨fun tree => ?_, ⟨?_, ?_⟩, ⟨?_, ?_⟩⟩
  · have hanswers := tree.answersAlike hsame hpath
    refine ⟨hanswers, ?_⟩
    intro β earlier before cache
    have hcache : cache.Faithful tree :=
      (Crew.onTrack_run SyntaxCache.faithful_empty earlier before).cache
    rw [hcache.query_fst, hcache.query_fst, hanswers.moduleSyntax?_eq]
  · exact ModuleScopes.FormatsAlike.sameScopes
  · exact ModuleScopes.SameScopes.formatsAlike
  · exact fun h => h.folder_eq hpath hother
  · intro h files tree _ manifest extraConditions kind specifier mode active
    exact Resolver.resolve_congr _ kind specifier mode active h

/-- A leading `./` is nothing to imports. It hides the manifest of the directory from the format. -/
theorem leading_dot_imports_alike :
    normalize? "./lib/main.js" = some "lib/main.js" ∧
      Resolver.ImportsAlike "./lib/main.js" "lib/main.js" ∧
      ¬ ModuleScopes.FormatsAlike "./lib/main.js" "lib/main.js" := by
  have hpath : normalize? "./lib/main.js" = some "lib/main.js" := by decide +kernel
  have hother : normalize? "lib/main.js" = some "lib/main.js" := by decide +kernel
  obtain ⟨-, hformats, himports⟩ := spellings_agree_iff hpath hother
  refine ⟨hpath, himports.2 (by decide +kernel), fun h => ?_⟩
  obtain ⟨-, hscopes⟩ := hformats.1 h
  have hlib : "lib" ∈ ancestors "lib/main.js" := by decide +kernel
  have hhidden := (hscopes (by decide +kernel) "lib" (by decide +kernel)).2 hlib
  exact absurd hhidden (by decide +kernel)

/-- Neither the format nor what is imported is the same for every spelling: a directory of ES
    modules, with a file that is CommonJS behind a leading `./` and misses its neighbour behind a
    backslash. -/
theorem format_and_imports_depend_on_spelling :
    let tree := ((FileTree.empty.insert "lib/package.json" ModuleScopes.moduleManifest).insert
      "lib/a.js" []).insert "lib/b.js" []
    let scopes := ModuleScopes.ofTree tree none
    let r := Resolver.ofPackage tree Resolver.silentManifest []
    let active := ConditionSet.ofNames []
    FileTree.ofFiles [("lib/package.json", ModuleScopes.moduleManifest), ("lib/a.js", []),
      ("lib/b.js", [])] = .ok tree ∧
    (normalize? "./lib/a.js" = some "lib/a.js" ∧ scopes.formatOf "lib/a.js" = .esm ∧
      scopes.formatOf "./lib/a.js" = .cjs) ∧
    (normalize? "lib\\a.js" = some "lib/a.js" ∧
      r.resolve .node10 "./b.js" (some "lib/a.js") .runtime active
        = .found ⟨"lib/b.js", .esm, false, false⟩ ∧
      r.resolve .node10 "./b.js" (some "lib\\a.js") .runtime active = .notFound .fileNotFound) := by
  refine ⟨rfl, ?_, ?_⟩ <;> decide +kernel

end Path

end TypingsAudit
