import Mathlib.Data.List.Basic
import TypingsAudit.Proofs.FileTree
import TypingsAudit.Proofs.Resolution.Soundness

set_option autoImplicit false

/-! # The bytes that an answer depends on

A resolution asks of most files only whether they are there. It opens the manifests below the
package root, and no other file: not even the manifest of the root, whose fields are given with the
package. So two packages with the same paths and the same manifests below the root have the same
answers (`Resolver.SameView`), whatever else is in their files.

Only the comparison of a cell opens the two files that were found, and it does so only for the
algorithms that enforce formats.

Paths have to be in normal form for this. Read as a directory, `.` would have the file of the root
manifest for its own; but no resolution comes to a path that is not normal. -/

namespace TypingsAudit

/-! ## Trees with one layout -/

namespace FileTree

/-- The trees have files and directories at the same paths, and the same manifests below the
    root. -/
structure SameLayout (tree tree' : FileTree) : Prop where
  contents : ∀ path : String, path ∈ tree.contents ↔ path ∈ tree'.contents
  directories : ∀ dir : String, dir ∈ tree.directories ↔ dir ∈ tree'.directories
  manifests : ∀ path : String, Text.endsWith ("/" ++ Manifest.fileName) path = true →
    tree.contents[path]? = tree'.contents[path]?

variable {tree tree' : FileTree}

/-- Among coherent trees the files decide which directories there are. -/
theorem Coherent.sameLayout (h : tree.Coherent) (h' : tree'.Coherent)
    (hcontents : ∀ path : String, path ∈ tree.contents ↔ path ∈ tree'.contents)
    (hmanifests : ∀ path : String, Text.endsWith ("/" ++ Manifest.fileName) path = true →
      tree.contents[path]? = tree'.contents[path]?) : tree.SameLayout tree' := by
  refine ⟨hcontents, fun dir => ?_, hmanifests⟩
  rw [h dir, h' dir]
  simp only [hcontents]

/-- The file at a normal path is what the tree has for the path. -/
theorem file?_of_isNormal (tree : FileTree) {path : String} (h : Path.IsNormal path) :
    tree.file? path = tree.contents[path]?.map fun bytes => ⟨path, bytes⟩ := by
  unfold file? file Path.normalize
  rw [Path.normalize?_of_isNormal h]
  cases hbytes : tree.contents[path]? with
  | none => simp [hbytes, bind, Except.bind, Except.toOption]
  | some bytes => simp [hbytes, bind, Except.bind, Except.toOption]

/-- How a file is written shows in its own bytes. -/
theorem moduleSyntax?_congr {path : String} (h : Path.IsNormal path)
    (hbytes : tree.contents[path]? = tree'.contents[path]?) :
    tree.moduleSyntax? path = tree'.moduleSyntax? path := by
  unfold moduleSyntax?
  rw [file?_of_isNormal tree h, file?_of_isNormal tree' h, hbytes]

namespace SameLayout

variable (h : tree.SameLayout tree')
include h

theorem isFile : tree.isFile = tree'.isFile := by
  funext path
  unfold FileTree.isFile
  cases Path.normalize? path with
  | none => rfl
  | some normal =>
      rw [Bool.eq_iff_iff, Std.TreeMap.contains_iff_mem, Std.TreeMap.contains_iff_mem]
      exact h.contents normal

theorem isDirectory : tree.isDirectory = tree'.isDirectory := by
  funext path
  unfold FileTree.isDirectory
  cases Path.normalize? path with
  | none => rfl
  | some normal =>
      rw [Bool.eq_iff_iff]
      exact h.directories normal

theorem keys_eq : tree.contents.keys = tree'.contents.keys := by
  -- Without their contents, trees with the same members are the same.
  have hequiv : (tree.contents.map fun _ _ => ()).Equiv (tree'.contents.map fun _ _ => ()) :=
    Std.TreeMap.Equiv.of_forall_mem_unit_iff fun path => by
      rw [Std.TreeMap.mem_map, Std.TreeMap.mem_map, h.contents path]
  simpa only [Std.TreeMap.keys_map] using hequiv.keys_eq

end SameLayout

end FileTree

/-! ## Formats -/

namespace ModuleScopes

/-- The scope that the file at a path makes, if it is a manifest below the root. -/
def scopeOf? (tree : FileTree) (path : String) : Option (String × Option PackageType) :=
  (manifestDir? path).bind fun dir =>
    if dir = "" then none
    else tree.contents[path]?.map fun bytes => (dir, declaredType? bytes)

theorem ofTree_eq (tree : FileTree) (rootType : Option PackageType) :
    ofTree tree rootType
      = { types := ("", rootType) :: tree.contents.keys.filterMap (scopeOf? tree) } := by
  rw [ofTree, FileTree.files, ← Std.TreeMap.map_fst_toList_eq_keys, List.filterMap_map,
    List.filterMap_map]
  refine congrArg (fun scopes => mk (_ :: scopes)) (List.filterMap_congr ?_)
  rintro ⟨path, bytes⟩ hmem
  have hbytes : tree.contents[path]? = some bytes :=
    Std.TreeMap.mem_toList_iff_getElem?_eq_some.1 hmem
  simp only [Function.comp, scopeOf?, hbytes, Option.map_some]
  cases manifestDir? path <;> rfl

/-- A path that is cut off before `/package.json` ends with it. -/
theorem endsWith_of_manifestDir? {path dir : String} (h : manifestDir? path = some dir) :
    Text.endsWith ("/" ++ Manifest.fileName) path = true := by
  obtain ⟨front, hfront, -⟩ := Option.map_eq_some_iff.1 h
  rw [Text.endsWith, List.isSuffixOf_iff_suffix]
  exact ⟨front, (Text.beforeTail?_eq_some_iff.1 hfront).symm⟩

/-- Only the manifests below the root tell the formats of files. -/
theorem ofTree_congr {tree tree' : FileTree} (h : tree.SameLayout tree')
    (rootType : Option PackageType) : ofTree tree rootType = ofTree tree' rootType := by
  have hscope : scopeOf? tree = scopeOf? tree' := by
    funext path
    refine Option.bind_congr fun dir hdir => ?_
    rw [h.manifests path (endsWith_of_manifestDir? hdir)]
  rw [ofTree_eq, ofTree_eq, h.keys_eq, hscope]

end ModuleScopes

/-! ## Resolvers with one view -/

namespace Resolver

/-- The resolvers see the same: the fields of the package and the formats of its files, which files
    and directories there are, and the manifest of each directory. -/
structure SameView (r r' : Resolver) : Prop where
  manifest : r.manifest = r'.manifest
  extraConditions : r.extraConditions = r'.extraConditions
  scopes : r.scopes = r'.scopes
  isFile : r.tree.isFile = r'.tree.isFile
  isDirectory : r.tree.isDirectory = r'.tree.isDirectory
  manifestOf : ∀ {dir : String}, Path.IsNormal dir → r.manifestOf dir = r'.manifestOf dir

/-- A manifest below the root is the one of a path that ends like a manifest's. -/
theorem manifestOf_congr {tree tree' : FileTree} (h : tree.SameLayout tree')
    (manifest : Manifest) (conditions : List String) {dir : String} (hdir : Path.IsNormal dir) :
    (ofPackage tree manifest conditions).manifestOf dir
      = (ofPackage tree' manifest conditions).manifestOf dir := by
  unfold manifestOf ofPackage
  split
  · rfl
  · next hroot =>
      -- The path of the manifest is normal as it stands, so it is the key that is looked up.
      have hname : Path.IsName Manifest.fileName.toList := by decide
      have hsep : Path.NoSeparator Manifest.fileName.toList := by decide
      have hnormal := hdir.child hroot hname hsep
      have hending :
          Text.endsWith ("/" ++ Manifest.fileName) (dir ++ "/" ++ Manifest.fileName) = true := by
        rw [Text.endsWith, List.isSuffixOf_iff_suffix, String.append_assoc]
        simp only [String.toList_append]
        exact List.suffix_append ..
      rw [Path.join?_of_isNormal hdir hroot hname hsep]
      simp only [Option.bind_eq_bind, Option.bind_some, FileTree.file?_of_isNormal _ hnormal,
        h.manifests _ hending]

theorem sameView_ofPackage {tree tree' : FileTree} (h : tree.SameLayout tree')
    (manifest : Manifest) (conditions : List String) :
    (ofPackage tree manifest conditions).SameView (ofPackage tree' manifest conditions) :=
  ⟨rfl, rfl, ModuleScopes.ofTree_congr h manifest.type, h.isFile, h.isDirectory,
    manifestOf_congr h manifest conditions⟩

variable {r r' : Resolver} {kind : ResolutionKind} {mode : ResolutionMode}

/-- What is done with the path of a field is done with a normal path. -/
theorem bind_fieldPath_congr {α : Type} {field : Option String} {step step' : String → Option α}
    (h : ∀ path, Path.IsNormal path → step path = step' path) :
    (fieldPath field).bind step = (fieldPath field).bind step' :=
  Option.bind_congr fun path hpath => h path (Path.isNormal_of_bind_normalize? hpath)

namespace SameView

variable (h : r.SameView r')
include h

/-! ### Probing -/

theorem firstFile : r.firstFile = r'.firstFile := by
  funext paths
  rw [Resolver.firstFile, Resolver.firstFile, h.isFile]

theorem declarationFile : r.declarationFile = r'.declarationFile := by
  funext path
  rw [Resolver.declarationFile, Resolver.declarationFile, h.firstFile]

theorem scriptFile : r.scriptFile = r'.scriptFile := by
  funext endings path
  rw [Resolver.scriptFile, Resolver.scriptFile, h.firstFile]

theorem declarationOfDirectory {dir : String} (hdir : Path.IsNormal dir) :
    r.declarationOfDirectory dir = r'.declarationOfDirectory dir := by
  unfold Resolver.declarationOfDirectory
  rw [h.isDirectory, h.manifestOf hdir, h.declarationFile]

theorem scriptOfDirectory (endings : List String) {dir : String} (hdir : Path.IsNormal dir) :
    r.scriptOfDirectory endings dir = r'.scriptOfDirectory endings dir := by
  unfold Resolver.scriptOfDirectory
  rw [h.isDirectory, h.manifestOf hdir, h.scriptFile]

theorem declarationsAt {path : String} (hpath : Path.IsNormal path) :
    r.declarationsAt path = r'.declarationsAt path := by
  rw [Resolver.declarationsAt, Resolver.declarationsAt, h.declarationFile,
    h.declarationOfDirectory hpath]

theorem scriptAt (endings : List String) {path : String} (hpath : Path.IsNormal path) :
    r.scriptAt endings path = r'.scriptAt endings path := by
  rw [Resolver.scriptAt, Resolver.scriptAt, h.scriptFile, h.scriptOfDirectory endings hpath]

/-! ### Answers -/

theorem found : r.found = r'.found := by
  funext path usedFallback
  rw [Resolver.found, Resolver.found, h.scopes]

theorem foundOr : r.foundOr = r'.foundOr := by
  funext reason outcome
  cases outcome with
  | none => rfl
  | some path => rw [Resolver.foundOr, Resolver.foundOr, h.found]

theorem atPath {path : String} (hpath : Path.IsNormal path) :
    r.atPath kind path mode = r'.atPath kind path mode := by
  unfold Resolver.atPath Resolver.exactly
  rw [h.isFile, h.isDirectory, h.found, h.foundOr, h.declarationsAt hpath, h.scriptAt _ hpath]

/-! ### The older fields -/

theorem mappedPaths : r.mappedPaths = r'.mappedPaths := by
  funext path
  rw [Resolver.mappedPaths, Resolver.mappedPaths, h.manifest]

theorem mappedDeclarations {path : String} (hpath : Path.IsNormal path) :
    r.mappedDeclarations path = r'.mappedDeclarations path := by
  unfold Resolver.mappedDeclarations
  rw [← h.mappedPaths, ← List.head?_filterMap, ← List.head?_filterMap]
  exact congrArg _ (List.filterMap_congr fun place hplace =>
    h.declarationsAt (isNormal_of_mem_mappedPaths hpath hplace))

theorem legacyRoot : r.legacyRoot kind mode = r'.legacyRoot kind mode := by
  unfold Resolver.legacyRoot
  rw [h.manifest, h.foundOr]
  cases mode with
  | types =>
      simp only
      rw [bind_fieldPath_congr fun _ => h.mappedDeclarations,
        bind_fieldPath_congr fun _ => h.declarationsAt, h.mappedDeclarations isNormal_indexName]
  | runtime =>
      simp only
      rw [bind_fieldPath_congr fun _ => h.scriptAt _, h.scriptFile]
      split
      · rw [bind_fieldPath_congr fun _ => h.scriptAt _]
      · rfl

theorem legacy (subpath : String) : r.legacy kind subpath mode = r'.legacy kind subpath mode := by
  unfold Resolver.legacy
  split
  · exact h.legacyRoot
  · split
    · rfl
    · next path hnormalize =>
        have hnormal : Path.IsNormal path := Path.isNormal_of_normalize? hnormalize
        cases mode with
        | runtime => exact h.atPath hnormal
        | types =>
            simp only
            rw [← h.mappedPaths]
            exact congrArg _ (List.map_congr_left fun place hplace =>
              h.atPath (isNormal_of_mem_mappedPaths hnormal hplace))

/-! ### The `exports` field -/

theorem namedDeclaration : r.namedDeclaration = r'.namedDeclaration := by
  funext target
  rw [Resolver.namedDeclaration, Resolver.namedDeclaration, h.isFile]

theorem targetDeclaration : r.targetDeclaration = r'.targetDeclaration := by
  funext target
  rw [Resolver.targetDeclaration, Resolver.targetDeclaration, h.declarationFile]

theorem firstDeclared : r.firstDeclared = r'.firstDeclared := by
  funext declaration targets
  cases targets with
  | nil => rfl
  | cons first rest => rw [Resolver.firstDeclared, Resolver.firstDeclared, h.found]

theorem rootTypes : r.rootTypes = r'.rootTypes := by
  funext subpath
  unfold Resolver.rootTypes
  rw [h.manifest, bind_fieldPath_congr fun _ => h.declarationsAt]

theorem nodeTargets (targets : List String) (subpath : String) :
    r.nodeTargets targets subpath mode = r'.nodeTargets targets subpath mode := by
  unfold Resolver.nodeTargets
  rw [h.isFile, h.found, h.firstDeclared, h.namedDeclaration, h.foundOr, h.rootTypes]

theorem bundlerTargets (targets : List String) :
    r.bundlerTargets targets mode = r'.bundlerTargets targets mode := by
  unfold Resolver.bundlerTargets
  rw [h.foundOr, h.scriptFile, h.firstDeclared, h.targetDeclaration]

theorem nodeExports (exports : Exports) (subpath : String) (active : ConditionSet) :
    r.nodeExports exports subpath mode active = r'.nodeExports exports subpath mode active := by
  unfold Resolver.nodeExports
  simp only [h.nodeTargets]

theorem bundlerExports (exports : Exports) (subpath : String) (active : ConditionSet) :
    r.bundlerExports exports subpath mode active
      = r'.bundlerExports exports subpath mode active := by
  unfold Resolver.bundlerExports
  simp only [h.bundlerTargets, h.legacy]

/-! ### Subpaths and questions -/

theorem atSubpath (subpath : String) (active : ConditionSet) :
    r.atSubpath kind subpath mode active = r'.atSubpath kind subpath mode active := by
  unfold Resolver.atSubpath
  rw [h.manifest]
  simp only [h.legacy, h.nodeExports, h.bundlerExports]

/-- **Resolvers with one view give one answer to every question.** -/
theorem answer (question : Question) :
    r.answer kind mode question = r'.answer kind mode question := by
  have hname : r.manifest.name = r'.manifest.name := by rw [h.manifest]
  have hactive : question.active r' kind mode = question.active r kind mode := by
    cases question with
    | entry subpath => simp only [Question.active, conditions, h.extraConditions]
    | specifier text importer active => rfl
  refine answer_rel_of_isNormal hname (fun _ => rfl) (fun path => h.atPath) fun subpath _ => ?_
  rw [hactive]
  exact h.atSubpath subpath _

end SameView

end Resolver

/-! ## Analyses -/

/-- The problems of a cell depend on how its two files are written, where formats matter. -/
theorem CellResult.problems_congr {tree tree' : FileTree} {result : CellResult}
    (h : result.cell.kind.enforcesFormat = true → ∀ types code, result.types = .found types →
      result.runtime = .found code →
      tree.moduleSyntax? types.path = tree'.moduleSyntax? types.path ∧
        tree.moduleSyntax? code.path = tree'.moduleSyntax? code.path) :
    result.problems tree = result.problems tree' := by
  unfold problems findings
  split
  · rfl
  · rfl
  · rfl
  · next types code htypes hcode =>
      unfold Finding.ofFiles
      simp only
      split
      · next henforces =>
          obtain ⟨hdeclared, hset⟩ := h henforces types code htypes hcode
          rw [hdeclared, hset]
      · rfl

theorem Analysis.resolve_eq_of_sameView {r r' : Resolver} (h : r.SameView r') :
    resolve r = resolve r' := by
  funext cell
  have henter : ∀ mode, r.enter cell.kind cell.entryPoint mode
      = r'.enter cell.kind cell.entryPoint mode := fun mode => h.answer (.entry cell.entryPoint)
  rw [resolve, resolve, henter, henter]

theorem Analysis.collectProblems_congr {tree tree' : FileTree} (entryPoints : List EntryPoint)
    {results : List CellResult}
    (h : ∀ result ∈ results, result.problems tree = result.problems tree') :
    collectProblems tree entryPoints results = collectProblems tree' entryPoints results := by
  rw [collectProblems, collectProblems, List.flatMap_congr h]

theorem Analysis.ofPackage_congr {tree tree' : FileTree} {manifest : Manifest}
    {options : AnalysisOptions} (hlayout : tree.SameLayout tree')
    (h : ∀ result ∈ (ofPackage tree manifest options).resolutions,
      result.problems tree = result.problems tree') :
    ofPackage tree manifest options = ofPackage tree' manifest options := by
  have hresolve := resolve_eq_of_sameView
    (Resolver.sameView_ofPackage hlayout manifest options.conditions)
  have hproblems := collectProblems_congr (ofPackage tree manifest options).entryPoints h
  simp only [ofPackage] at hproblems
  simp only [ofPackage, ← hresolve, hproblems]

namespace Resolver

/-- **Only paths, the manifests below the root and the files that were resolved matter.** All other
    bytes may differ, those of the root manifest included: every question has the same answer, and
    where the two files of each cell that enforces formats agree, the analyses are equal. -/
theorem answers_depend_on_nested_manifests (files files' : List (String × Bytes))
    (tree tree' : FileTree) (hbuilt : FileTree.ofFiles files = .ok tree)
    (hbuilt' : FileTree.ofFiles files' = .ok tree')
    (hcontents : ∀ path : String, path ∈ tree.contents ↔ path ∈ tree'.contents)
    (hmanifests : ∀ path : String, Text.endsWith ("/" ++ Manifest.fileName) path = true →
      tree.contents[path]? = tree'.contents[path]?)
    (manifest : Manifest) :
    (∀ conditions kind mode question,
      (ofPackage tree manifest conditions).answer kind mode question
        = (ofPackage tree' manifest conditions).answer kind mode question) ∧
    (∀ options,
      (∀ result ∈ (Analysis.ofPackage tree manifest options).resolutions,
        result.cell.kind = .node16Cjs ∨ result.cell.kind = .node16Esm →
        ∀ types code, result.types = .found types → result.runtime = .found code →
          tree.contents[types.path]? = tree'.contents[types.path]? ∧
            tree.contents[code.path]? = tree'.contents[code.path]?) →
      Analysis.ofPackage tree manifest options = Analysis.ofPackage tree' manifest options) := by
  have hlayout : tree.SameLayout tree' :=
    (FileTree.coherent_ofFiles hbuilt).sameLayout (FileTree.coherent_ofFiles hbuilt') hcontents
      hmanifests
  refine ⟨fun conditions kind mode question => ?_, fun options hbytes => ?_⟩
  · exact (sameView_ofPackage hlayout manifest conditions).answer question
  · refine Analysis.ofPackage_congr hlayout fun result hresult => ?_
    refine CellResult.problems_congr fun henforces types code htypes hcode => ?_
    obtain ⟨cell, -, rfl⟩ := List.mem_map.1 hresult
    have hkind : cell.kind = .node16Cjs ∨ cell.kind = .node16Esm := by
      cases hcell : cell.kind with
      | node16Cjs => exact .inl rfl
      | node16Esm => exact .inr rfl
      | node10 | bundler => exact absurd (hcell ▸ henforces) (by decide)
    obtain ⟨hdeclared, hset⟩ := hbytes _ hresult hkind types code htypes hcode
    -- What is found has a normal path, and its bytes are those that the tree has for the path.
    have hnormal := (vouches_enter cell.kind cell.entryPoint types htypes).normal
    have hnormal' := (vouches_enter cell.kind cell.entryPoint code hcode).normal
    exact ⟨FileTree.moduleSyntax?_congr (Path.isNormal_iff_normalize?.2 hnormal) hdeclared,
      FileTree.moduleSyntax?_congr (Path.isNormal_iff_normalize?.2 hnormal') hset⟩

/-- A package whose code lies in a directory with a manifest of its own. The root manifest differs,
    and so does a file that no import comes to. -/
theorem nested_package_depends_on_its_manifest :
    let nested : Bytes := Bytes.ofString
      "\x7b\"type\": \"module\", \"main\": \"main.js\", \"types\": \"main.d.ts\"\x7d"
    let files (root readme : Bytes) : List (String × Bytes) :=
      [("lib/package.json", nested), ("lib/main.js", []), ("lib/main.d.ts", []),
       ("package.json", root), ("README.md", readme)]
    let common := ((FileTree.empty.insert "lib/package.json" nested).insert "lib/main.js" []).insert
      "lib/main.d.ts" []
    let tree := (common.insert "package.json" []).insert "README.md" []
    let tree' := (common.insert "package.json" [1]).insert "README.md" [2]
    let manifest : Manifest := ⟨none, none, none, some "lib", none, none, none, none⟩
    let options : AnalysisOptions := ⟨[], []⟩
    (FileTree.ofFiles (files [] []) = .ok tree ∧ FileTree.ofFiles (files [1] [2]) = .ok tree' ∧
      (∀ path : String, path ∈ tree.contents ↔ path ∈ tree'.contents) ∧
      ∀ path : String, Text.endsWith ("/" ++ Manifest.fileName) path = true →
        tree.contents[path]? = tree'.contents[path]?) ∧
    ((ofPackage tree manifest []).answer .node16Cjs .runtime (.entry ".")
        = .found ⟨"lib/main.js", .esm, false, false⟩ ∧
      (ofPackage tree' manifest []).answer .node16Cjs .runtime (.entry ".")
        = .found ⟨"lib/main.js", .esm, false, false⟩) ∧
    Analysis.ofPackage tree manifest options = Analysis.ofPackage tree' manifest options := by
  intro nested files common tree tree' manifest options
  have hbuilt : FileTree.ofFiles (files [] []) = .ok tree := rfl
  have hbuilt' : FileTree.ofFiles (files [1] [2]) = .ok tree' := rfl
  have hcontents : ∀ path : String, path ∈ tree.contents ↔ path ∈ tree'.contents := by
    intro path
    simp only [tree, tree', FileTree.mem_contents_insert]
  have hmanifests : ∀ path : String, Text.endsWith ("/" ++ Manifest.fileName) path = true →
      tree.contents[path]? = tree'.contents[path]? := by
    intro path hending
    have hroot : "package.json" ≠ path := fun h => absurd (h ▸ hending) (by decide)
    have hreadme : "README.md" ≠ path := fun h => absurd (h ▸ hending) (by decide)
    simp only [tree, tree', FileTree.getElem?_insert_of_ne _ hroot,
      FileTree.getElem?_insert_of_ne _ hreadme]
  -- Both found files are in `lib`, where the trees agree.
  have hbytes : ∀ result ∈ (Analysis.ofPackage tree manifest options).resolutions,
      result.cell.kind = .node16Cjs ∨ result.cell.kind = .node16Esm →
      ∀ types code, result.types = .found types → result.runtime = .found code →
        tree.contents[types.path]? = tree'.contents[types.path]? ∧
          tree.contents[code.path]? = tree'.contents[code.path]? := by
    have hfound : ∀ result ∈ (Analysis.ofPackage tree manifest options).resolutions,
        (result.types.path?.bind fun path => tree.contents[path]?)
            = (result.types.path?.bind fun path => tree'.contents[path]?) ∧
          (result.runtime.path?.bind fun path => tree.contents[path]?)
            = (result.runtime.path?.bind fun path => tree'.contents[path]?) := by
      decide +kernel
    intro result hresult _ types code htypes hcode
    have hsame := hfound result hresult
    rw [htypes, hcode] at hsame
    exact hsame
  obtain ⟨hanswers, hanalyses⟩ := answers_depend_on_nested_manifests _ _ tree tree' hbuilt hbuilt'
    hcontents hmanifests manifest
  have hanswer : (ofPackage tree manifest []).answer .node16Cjs .runtime (.entry ".")
      = .found ⟨"lib/main.js", .esm, false, false⟩ := by decide +kernel
  exact ⟨⟨hbuilt, hbuilt', hcontents, hmanifests⟩,
    ⟨hanswer, (hanswers [] _ _ _).symm.trans hanswer⟩, hanalyses options hbytes⟩

end Resolver

end TypingsAudit
