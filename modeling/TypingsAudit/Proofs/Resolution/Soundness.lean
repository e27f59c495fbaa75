import Mathlib.Data.Option.Basic
import TypingsAudit.Analysis
import TypingsAudit.Proofs.Path
import TypingsAudit.Proofs.Resolution.Answers

set_option autoImplicit false

/-! # Resolutions are sound

An answer of the resolver names a file of the package: its path is written in normal form and is
literally a key of the tree, and what the answer says about the file is what the path says. Where
declarations are asked for, it names a declaration.

About ten routes lead to an answer, and each of them glues texts together. They share one shape:
a list of normal paths is made, and the first of them that is a file is taken. `Resolver.Offers` is
what every step of such a route keeps, and the section on probing goes through the steps once, from
`Resolver.firstFile` upwards. `Resolver.Vouches` is the same for whole answers. -/

namespace TypingsAudit

/-! ## Files of a package -/

/-- A file that a resolution in `mode` may answer with. -/
structure Resolved.LiesIn (file : Resolved) (tree : FileTree) (scopes : ModuleScopes)
    (mode : ResolutionMode) : Prop where
  normal : Path.normalize? file.path = some file.path
  present : file.path ∈ tree.contents
  isDeclaration_eq : file.isDeclaration = Path.isDeclaration file.path
  format_eq : file.format = scopes.formatOf file.path
  declared : mode = .types →
    file.isDeclaration = true ∧ (file.format = .esm ∨ file.format = .cjs)

/-- A declaration is loaded as one of the two module formats. -/
theorem ModuleScopes.formatOf_declaration (scopes : ModuleScopes) {path : String}
    (h : Path.isDeclaration path = true) :
    scopes.formatOf path = .esm ∨ scopes.formatOf path = .cjs := by
  rw [← FileKind.isDeclaration_ofPath] at h
  unfold formatOf
  cases hkind : FileKind.ofPath path with
  | dmts => exact Or.inl rfl
  | dcts => exact Or.inr rfl
  | dts => exact ite_eq_or_eq ..
  | js | mjs | cjs | json | other =>
      rw [hkind] at h
      exact absurd h (by decide)

/-- The question whether a normal path is a file is a look into the tree. -/
theorem FileTree.isFile_of_isNormal (tree : FileTree) {path : String} (h : Path.IsNormal path) :
    tree.isFile path = tree.contents.contains path := by
  rw [isFile, Path.normalize?_of_isNormal h]

namespace Resolver

/-- A path that a step of probing may come up with. -/
structure Admits (r : Resolver) (mode : ResolutionMode) (path : String) : Prop where
  normal : Path.IsNormal path
  isFile : r.tree.isFile path = true
  isDeclaration : mode = .types → Path.isDeclaration path = true

/-- At runtime any file will do. -/
theorem admits_runtime {r : Resolver} {path : String} (hnormal : Path.IsNormal path)
    (hfile : r.tree.isFile path = true) : r.Admits .runtime path :=
  ⟨hnormal, hfile, fun hmode => absurd hmode (by decide)⟩

/-- An outcome of probing that is good for `mode`: nothing, or a path that is admitted. -/
def Offers (r : Resolver) (mode : ResolutionMode) (outcome : Option String) : Prop :=
  ∀ path, outcome = some path → r.Admits mode path

/-- An answer whose file, if it has one, lies in the package. -/
def Vouches (r : Resolver) (mode : ResolutionMode) (answer : Resolution) : Prop :=
  ∀ file, answer = .found file → file.LiesIn r.tree r.scopes mode

variable {r : Resolver} {mode : ResolutionMode}

/-! ## Outcomes -/

theorem offers_none : r.Offers mode none :=
  fun _ h => absurd h (by simp)

theorem Offers.orElse {first second : Option String} (hfirst : r.Offers mode first)
    (hsecond : r.Offers mode second) : r.Offers mode (first <|> second) := by
  intro path h
  rw [Option.orElse_eq_orElse, Option.orElse_eq_or, Option.or_eq_some_iff] at h
  rcases h with h | ⟨-, h⟩
  · exact hfirst path h
  · exact hsecond path h

/-- A step that is good for every path that can come before it. -/
theorem offers_bind {α : Type} {outcome : Option α} {step : α → Option String}
    (h : ∀ x, outcome = some x → r.Offers mode (step x)) : r.Offers mode (outcome.bind step) := by
  intro path hpath
  obtain ⟨x, hx, hstep⟩ := Option.bind_eq_some_iff.1 hpath
  exact h x hx path hstep

theorem offers_findSome? {α : Type} {items : List α} {step : α → Option String}
    (h : ∀ x ∈ items, r.Offers mode (step x)) : r.Offers mode (items.findSome? step) := by
  intro path hpath
  obtain ⟨x, hx, hstep⟩ := List.exists_of_findSome?_eq_some hpath
  exact h x hx path hstep

/-! ## Probing -/

/-- The first file of a list of paths is good when each of the paths would be. -/
theorem offers_firstFile {paths : List String}
    (h : ∀ path ∈ paths, Path.IsNormal path ∧ (mode = .types → Path.isDeclaration path = true)) :
    r.Offers mode (r.firstFile paths) := by
  intro path hfind
  obtain ⟨hnormal, hdeclared⟩ := h path (List.mem_of_find?_eq_some hfind)
  exact ⟨hnormal, List.find?_some hfind, hdeclared⟩

/-- The places for the declarations of a normal path are normal, and declarations. -/
theorem normal_of_mem_declarationPaths {path place : String} (h : Path.IsNormal path)
    (hmem : place ∈ declarationPaths path) :
    Path.IsNormal place ∧ Path.isDeclaration place = true := by
  rw [declarationPaths] at hmem
  split at hmem
  · next hdecl =>
      rw [List.mem_singleton.1 hmem]
      exact ⟨h, hdecl⟩
  · rcases List.mem_append.1 hmem with hmem | hmem
    · have hc : Path.counterpart? path = some place := Option.mem_toList.1 hmem
      exact ⟨h.counterpart hc, Path.isDeclaration_of_counterpart? hc⟩
    · rw [List.mem_singleton.1 hmem]
      exact ⟨h.append_ending (by decide), Path.isDeclaration_append (by decide) path⟩

theorem scriptEndings_spec (kind : ResolutionKind) :
    ∀ ending ∈ scriptEndings kind, Path.IsEnding ending.toList := by
  cases kind <;> decide

/-- The places for a script with a normal path are normal. -/
theorem normal_of_mem_scriptPaths {kind : ResolutionKind} {path place : String}
    (h : Path.IsNormal path) (hmem : place ∈ scriptPaths (scriptEndings kind) path) :
    Path.IsNormal place := by
  rcases List.mem_cons.1 hmem with rfl | hmem
  · exact h
  · obtain ⟨ending, hending, rfl⟩ := List.mem_map.1 hmem
    exact h.append_ending (scriptEndings_spec kind ending hending)

theorem offers_declarationFile {path : String} (h : Path.IsNormal path) :
    r.Offers mode (r.declarationFile path) :=
  offers_firstFile fun _ hmem =>
    (normal_of_mem_declarationPaths h hmem).imp id (fun hdecl _ => hdecl)

theorem offers_scriptFile (kind : ResolutionKind) {path : String} (h : Path.IsNormal path) :
    r.Offers .runtime (r.scriptFile (scriptEndings kind) path) :=
  offers_firstFile fun _ hmem =>
    ⟨normal_of_mem_scriptPaths h hmem, fun hmode => absurd hmode (by decide)⟩

/-- A directory stands only for declarations that its manifest names or its index has, and all of
    these places are joined to the directory. -/
theorem offers_declarationOfDirectory (dir : String) :
    r.Offers mode (r.declarationOfDirectory dir) := by
  have hjoined : ∀ request, r.Offers mode
      ((Path.join? dir request).bind r.declarationFile) := fun request =>
    offers_bind fun _ hjoin => offers_declarationFile (Path.isNormal_of_join? hjoin)
  have hnamed : ∀ field : Manifest → Option String, r.Offers mode
      (do
        let manifest ← r.manifestOf dir
        let path ← (field manifest).bind (Path.join? dir)
        r.declarationFile path) := fun field =>
    offers_bind fun _ _ => offers_bind fun _ hpath =>
      offers_declarationFile (Path.isNormal_of_bind_join? hpath)
  unfold declarationOfDirectory
  split
  -- By the field `types`, by `main`, or the index.
  · exact (hnamed _).orElse ((hnamed _).orElse (hjoined _))
  · exact offers_none

theorem offers_scriptOfDirectory (kind : ResolutionKind) (dir : String) :
    r.Offers .runtime (r.scriptOfDirectory (scriptEndings kind) dir) := by
  have hindex : ∀ place, r.Offers .runtime
      ((Path.join? place indexName).bind (r.scriptFile (scriptEndings kind))) := fun place =>
    offers_bind fun _ hjoin => offers_scriptFile kind (Path.isNormal_of_join? hjoin)
  unfold scriptOfDirectory
  split
  · refine Offers.orElse (offers_bind fun manifest _ => offers_bind fun main hmain => ?_)
      (hindex dir)
    exact (offers_scriptFile kind (Path.isNormal_of_bind_join? hmain)).orElse (hindex main)
  · exact offers_none

theorem offers_declarationsAt {path : String} (h : Path.IsNormal path) :
    r.Offers mode (r.declarationsAt path) :=
  (offers_declarationFile h).orElse (offers_declarationOfDirectory path)

theorem offers_scriptAt (kind : ResolutionKind) {path : String} (h : Path.IsNormal path) :
    r.Offers .runtime (r.scriptAt (scriptEndings kind) path) :=
  (offers_scriptFile kind h).orElse (offers_scriptOfDirectory kind path)

/-! ## Answers -/

theorem vouches_notFound (reason : NotFoundReason) : r.Vouches mode (.notFound reason) :=
  fun _ h => absurd h (by simp)

/-- An answer says about an admitted path what the path itself says. -/
theorem vouches_found {path : String} (h : r.Admits mode path) (usedFallback : Bool) :
    r.Vouches mode (r.found path usedFallback) := by
  intro file hfile
  obtain rfl := Resolution.found.inj hfile
  refine ⟨Path.normalize?_of_isNormal h.normal, ?_, rfl, rfl, fun hmode => ?_⟩
  · rw [← Std.TreeMap.contains_iff_mem, ← FileTree.isFile_of_isNormal _ h.normal]
    exact h.isFile
  · have hdecl := h.isDeclaration hmode
    exact ⟨hdecl, r.scopes.formatOf_declaration hdecl⟩

theorem vouches_foundOr {outcome : Option String} (h : r.Offers mode outcome)
    (reason : NotFoundReason) : r.Vouches mode (r.foundOr reason outcome) := by
  cases outcome with
  | none => exact vouches_notFound reason
  | some path => exact vouches_found (h path rfl) false

theorem vouches_exactly {path : String} (h : Path.IsNormal path) :
    r.Vouches mode (r.exactly path mode) := by
  cases mode with
  | runtime =>
      simp only [exactly]
      split
      · next target hfilter =>
          obtain ⟨heq, hfile⟩ := Option.filter_eq_some_iff.1 hfilter
          obtain rfl := Option.some.inj heq
          exact vouches_found (admits_runtime h hfile) false
      · exact vouches_notFound _
  | types =>
      simp only [exactly]
      split
      · next target hfilter =>
          obtain ⟨heq, hfile⟩ := Option.filter_eq_some_iff.1 hfilter
          -- The target is the path itself or the declaration that goes with it.
          split at heq
          · next hdecl =>
              obtain rfl := Option.some.inj heq
              exact vouches_found ⟨h, hfile, fun _ => hdecl⟩ false
          · exact vouches_found ⟨h.counterpart heq, hfile,
              fun _ => Path.isDeclaration_of_counterpart? heq⟩ false
      · exact vouches_notFound _

theorem vouches_atPath (kind : ResolutionKind) {path : String} (h : Path.IsNormal path) :
    r.Vouches mode (r.atPath kind path mode) := by
  unfold atPath
  split
  · exact vouches_exactly h
  · cases mode with
    | types => exact vouches_foundOr (offers_declarationsAt h) _
    | runtime => exact vouches_foundOr (offers_scriptAt kind h) _

/-! ## The older fields -/

theorem isNormal_of_mem_mappedPaths {path place : String} (h : Path.IsNormal path)
    (hmem : place ∈ r.mappedPaths path) : Path.IsNormal place := by
  rw [mappedPaths] at hmem
  split at hmem
  · obtain ⟨target, -, hnormalize⟩ := List.mem_filterMap.1 hmem
    exact Path.isNormal_of_normalize? hnormalize
  · rw [List.mem_singleton.1 hmem]
    exact h

theorem offers_mappedDeclarations {path : String} (h : Path.IsNormal path) :
    r.Offers mode (r.mappedDeclarations path) :=
  offers_findSome? fun _ hmem => offers_declarationsAt (isNormal_of_mem_mappedPaths h hmem)

/-- A step taken from the path that a field names, if it names one. -/
theorem offers_fieldPath {field : Option String} {step : String → Option String}
    (h : ∀ path, Path.IsNormal path → r.Offers mode (step path)) :
    r.Offers mode ((fieldPath field).bind step) :=
  offers_bind fun path hpath => h path (Path.isNormal_of_bind_normalize? hpath)

theorem isNormal_indexName : Path.IsNormal indexName := by
  decide

theorem vouches_legacyRoot (kind : ResolutionKind) :
    r.Vouches mode (r.legacyRoot kind mode) := by
  refine vouches_foundOr ?_ .fileNotFound
  cases mode with
  | types =>
      exact (offers_fieldPath fun _ => offers_mappedDeclarations).orElse <|
        (offers_fieldPath fun _ => offers_declarationsAt).orElse <|
          offers_mappedDeclarations isNormal_indexName
  | runtime =>
      have hmain : r.Offers .runtime
          ((fieldPath r.manifest.main).bind (r.scriptAt (scriptEndings kind)) <|>
            r.scriptFile (scriptEndings kind) indexName) :=
        (offers_fieldPath fun _ => offers_scriptAt kind).orElse
          (offers_scriptFile kind isNormal_indexName)
      refine Offers.orElse ?_ hmain
      split
      · exact offers_fieldPath fun _ => offers_scriptAt kind
      · exact offers_none

theorem vouches_firstFound {answers : List Resolution} (h : ∀ a ∈ answers, r.Vouches mode a) :
    r.Vouches mode (firstFound answers) := by
  induction answers with
  | nil => exact vouches_notFound .fileNotFound
  | cons answer rest ih =>
      have hanswer : r.Vouches mode answer := h answer (List.mem_cons_self ..)
      cases rest with
      | nil => exact hanswer
      | cons next rest =>
          rw [firstFound]
          split
          · exact hanswer
          · exact ih fun a ha => h a (List.mem_cons_of_mem _ ha)
          · simp

theorem vouches_legacy (kind : ResolutionKind) (subpath : String) :
    r.Vouches mode (r.legacy kind subpath mode) := by
  unfold legacy
  split
  · exact vouches_legacyRoot kind
  · split
    · exact vouches_notFound _
    · next path hnormalize =>
        have hnormal : Path.IsNormal path := Path.isNormal_of_normalize? hnormalize
        cases mode with
        | runtime => exact vouches_atPath kind hnormal
        | types =>
            refine vouches_firstFound fun answer hmem => ?_
            obtain ⟨place, hplace, rfl⟩ := List.mem_map.1 hmem
            exact vouches_atPath kind (isNormal_of_mem_mappedPaths hnormal hplace)

/-! ## The `exports` field -/

theorem offers_namedDeclaration (target : String) :
    r.Offers mode (r.namedDeclaration target) := by
  intro path hpath
  obtain ⟨hnormalize, hfile⟩ := Option.filter_eq_some_iff.1 hpath
  rw [Bool.and_eq_true] at hfile
  exact ⟨Path.isNormal_of_normalize? hnormalize, hfile.2, fun _ => hfile.1⟩

theorem offers_targetDeclaration (target : String) :
    r.Offers mode (r.targetDeclaration target) :=
  offers_bind fun _ hnormalize =>
    offers_declarationFile (Path.isNormal_of_normalize? hnormalize)

/-- Whichever target has the declarations, the answer is good when they are. -/
theorem vouches_firstDeclared {declaration : String → Option String} {targets : List String}
    {answer : Resolution} (h : ∀ target, r.Offers mode (declaration target))
    (hanswer : r.firstDeclared declaration targets = some answer) : r.Vouches mode answer := by
  cases targets with
  | nil => exact absurd hanswer (by simp [firstDeclared])
  | cons first rest =>
      rw [firstDeclared] at hanswer
      split at hanswer
      · next path hpath =>
          obtain rfl := Option.some.inj hanswer
          exact vouches_found (h first path hpath) false
      · obtain ⟨path, hpath, rfl⟩ := Option.map_eq_some_iff.1 hanswer
        exact vouches_found (offers_findSome? (fun target _ => h target) path hpath) true

theorem offers_rootTypes (subpath : String) : r.Offers mode (r.rootTypes subpath) := by
  unfold rootTypes
  split
  · exact offers_fieldPath fun _ => offers_declarationsAt
  · exact offers_none

theorem vouches_nodeTargets (targets : List String) (subpath : String) :
    r.Vouches mode (r.nodeTargets targets subpath mode) := by
  cases mode with
  | runtime =>
      simp only [nodeTargets]
      split
      · exact vouches_notFound _
      · next path hpath =>
          split
          · next hfile =>
              have hnormal := Path.isNormal_of_bind_normalize? hpath
              exact vouches_found (admits_runtime hnormal hfile) false
          · exact vouches_notFound _
  | types =>
      simp only [nodeTargets]
      split
      · next answer hanswer => exact vouches_firstDeclared offers_namedDeclaration hanswer
      · exact vouches_foundOr (offers_rootTypes subpath) _

theorem vouches_bundlerTargets (targets : List String) :
    r.Vouches mode (r.bundlerTargets targets mode) := by
  cases mode with
  | runtime =>
      simp only [bundlerTargets]
      split
      · exact vouches_notFound _
      · next path hpath =>
          exact vouches_foundOr (offers_scriptFile .bundler (Path.isNormal_of_bind_normalize? hpath)) _
  | types =>
      simp only [bundlerTargets]
      split
      · next answer hanswer => exact vouches_firstDeclared offers_targetDeclaration hanswer
      · exact vouches_notFound _

theorem vouches_nodeExports (exports : Exports) (subpath : String) (active : ConditionSet) :
    r.Vouches mode (r.nodeExports exports subpath mode active) := by
  unfold nodeExports
  split
  · exact vouches_nodeTargets _ subpath
  · exact vouches_notFound _
  · exact vouches_notFound _
  · exact vouches_notFound _

theorem vouches_bundlerExports (exports : Exports) (subpath : String) (active : ConditionSet) :
    r.Vouches mode (r.bundlerExports exports subpath mode active) := by
  unfold bundlerExports
  split
  · exact vouches_bundlerTargets _
  · exact vouches_legacy .bundler subpath

/-! ## Subpaths and specifiers -/

theorem vouches_atSubpath (kind : ResolutionKind) (subpath : String) (active : ConditionSet) :
    r.Vouches mode (r.atSubpath kind subpath mode active) := by
  unfold atSubpath
  split
  · exact vouches_legacy _ subpath
  · exact vouches_legacy _ subpath
  · exact vouches_nodeExports _ subpath active
  · exact vouches_nodeExports _ subpath active
  · exact vouches_bundlerExports _ subpath active

theorem vouches_enter (kind : ResolutionKind) (subpath : String) :
    r.Vouches mode (r.enter kind subpath mode) :=
  vouches_atSubpath kind subpath _

theorem vouches_resolve (kind : ResolutionKind) (specifier : String) (importer : Option String)
    (active : ConditionSet) : r.Vouches mode (r.resolve kind specifier importer mode active) := by
  unfold resolve
  split
  · simp only
    split
    · next path hjoin => exact vouches_atPath kind (Path.isNormal_of_join? hjoin)
    · exact vouches_notFound _
  · split
    · exact vouches_atSubpath kind _ active
    · exact vouches_notFound _

theorem vouches_answer (kind : ResolutionKind) (question : Question) :
    r.Vouches mode (r.answer kind mode question) := by
  cases question with
  | entry subpath => exact vouches_enter kind subpath
  | specifier text importer active => exact vouches_resolve kind text importer active

end Resolver

/-! ## Packages without declarations -/

/-- A key of a tree that ends like a declaration is one of its declarations. -/
theorem FileTree.exists_declaration {tree : FileTree} {path : String} (hmem : path ∈ tree.contents)
    (hdecl : Path.isDeclaration path = true) : ∃ file ∈ tree.declarations, file.path = path := by
  refine ⟨⟨path, tree.contents[path]⟩, List.mem_filter.2 ⟨List.mem_map.2 ?_, ?_⟩, rfl⟩
  · refine ⟨(path, tree.contents[path]), ?_, rfl⟩
    rw [Std.TreeMap.mem_toList_iff_getElem?_eq_some]
    exact Std.TreeMap.getElem?_eq_some_getElem hmem
  · rw [File.kind, FileKind.isDeclaration_ofPath]
    exact hdecl

/-- Without declarations in the tree, no question for declarations is answered with a file. -/
theorem Resolver.Vouches.isFound_eq_false {r : Resolver} {answer : Resolution}
    (h : r.Vouches .types answer) (hnone : r.tree.declarations = []) : answer.isFound = false := by
  cases answer with
  | notFound reason => rfl
  | found file =>
      have hfile := h file rfl
      obtain ⟨declaration, hmem, -⟩ := FileTree.exists_declaration hfile.present
        (hfile.isDeclaration_eq ▸ (hfile.declared rfl).1)
      rw [hnone] at hmem
      exact absurd hmem (List.not_mem_nil)

theorem Analysis.anyTyped_eq_false {r : Resolver} (hnone : r.tree.declarations = [])
    (cells : List Cell) : anyTyped (cells.map (resolve r)) = false := by
  rw [anyTyped, List.any_eq_false]
  intro result hmem
  obtain ⟨cell, -, rfl⟩ := List.mem_map.1 hmem
  have hcell : (resolve r cell).types.isFound = false :=
    (Resolver.vouches_enter cell.kind cell.entryPoint).isFound_eq_false hnone
  rw [hcell]
  exact Bool.false_ne_true

/-- **Resolutions are sound.** Under every algorithm and in each mode, for every subpath and every
    specifier, the file of an answer lies in the package. A package without declarations therefore
    has no types and no problems. -/
theorem Resolver.answers_lie_in_package (tree : FileTree) (manifest : Manifest) :
    (∀ conditions kind mode subpath file,
      (ofPackage tree manifest conditions).enter kind subpath mode = .found file →
      file.LiesIn tree (ModuleScopes.ofTree tree manifest.type) mode) ∧
    (∀ conditions kind mode specifier importer active file,
      (ofPackage tree manifest conditions).resolve kind specifier importer mode active
        = .found file →
      file.LiesIn tree (ModuleScopes.ofTree tree manifest.type) mode) ∧
    (tree.declarations = [] → ∀ options,
      (Analysis.ofPackage tree manifest options).containsTypes = false ∧
        (Analysis.ofPackage tree manifest options).problems = []) := by
  refine ⟨fun conditions kind mode subpath => ?_,
    fun conditions kind mode specifier importer active => ?_, fun hnone options => ?_⟩
  · exact vouches_enter (r := ofPackage tree manifest conditions) kind subpath
  · exact vouches_resolve (r := ofPackage tree manifest conditions) kind specifier importer active
  · have huntyped := Analysis.anyTyped_eq_false
      (r := ofPackage tree manifest options.conditions) hnone
    refine ⟨huntyped _, ?_⟩
    simp only [Analysis.ofPackage, Analysis.collectProblems]
    exact if_neg (by rw [huntyped]; exact Bool.false_ne_true)

/-- A script with its declaration, and the script alone. -/
theorem Resolver.answers_lie_in_index_package :
    let manifest : Manifest := ⟨none, none, none, some "index.js", none, none, none, none⟩
    let untyped := FileTree.empty.insert "index.js" []
    let typed := untyped.insert "index.d.ts" []
    let scopes := ModuleScopes.ofTree typed none
    let declaration : Resolved := ⟨"index.d.ts", .cjs, true, false⟩
    let script : Resolved := ⟨"index.js", .cjs, false, false⟩
    let resolver := ofPackage typed manifest []
    (resolver.enter .node10 "." .types = .found declaration ∧
      declaration.LiesIn typed scopes .types) ∧
    (resolver.resolve .node16Esm "./lib/../index.js" none .runtime (ConditionSet.ofNames [])
        = .found script ∧
      script.LiesIn typed scopes .runtime) ∧
    (untyped.declarations = [] ∧
      (Analysis.ofPackage untyped manifest ⟨[], []⟩).containsTypes = false ∧
      (Analysis.ofPackage untyped manifest ⟨[], []⟩).problems = []) := by
  intro manifest untyped typed scopes declaration script resolver
  have henter : resolver.enter .node10 "." .types = .found declaration := by decide +kernel
  have hresolve : resolver.resolve .node16Esm "./lib/../index.js" none .runtime
      (ConditionSet.ofNames []) = .found script := by decide +kernel
  have hnone : untyped.declarations = [] := by decide +kernel
  have hsound := answers_lie_in_package typed manifest
  exact ⟨⟨henter, hsound.1 _ _ _ _ _ henter⟩, ⟨hresolve, hsound.2.1 _ _ _ _ _ _ _ hresolve⟩,
    hnone, (answers_lie_in_package untyped manifest).2.2 hnone _⟩

end TypingsAudit
