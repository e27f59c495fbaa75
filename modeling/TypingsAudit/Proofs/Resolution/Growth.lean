import Mathlib.Data.Option.Basic
import TypingsAudit.Analysis
import TypingsAudit.Proofs.FileTree
import TypingsAudit.Proofs.Resolution.Answers

set_option autoImplicit false

/-! # More files lose no answer

Files that are added to a package may change where an import leads. They never leave it without a
file when it had one: whatever step of probing comes to succeed in front of the old one, the old one
is still there as the last resort.

A step is followed by `Persists`, which says that an outcome is not lost, and an answer by
`Resolution.Keeps`. The steps are compared for two resolvers at once, one of which has all the files
of the other (`Resolver.Grows`), and for two algorithms at once, one of which tries all that the
other does at a path (`ResolutionKind.reach`). -/

namespace TypingsAudit

/-! ## Outcomes and answers -/

/-- The second outcome is there whenever the first one is. -/
def Persists {α : Type} (before after : Option α) : Prop :=
  before.isSome = true → after.isSome = true

/-- The second answer is a file whenever the first one is. -/
def Resolution.Keeps (before after : Resolution) : Prop :=
  before.isFound = true → after.isFound = true

namespace Persists

variable {α β : Type}

theorem refl (outcome : Option α) : Persists outcome outcome :=
  id

theorem none_left (after : Option α) : Persists none after :=
  fun h => absurd h (by simp)

theorem orElse {a b a' b' : Option α} (ha : Persists a a') (hb : Persists b b') :
    Persists (a <|> b) (a' <|> b') := by
  intro h
  rw [Option.orElse_eq_orElse, Option.orElse_eq_or, Option.isSome_or, Bool.or_eq_true] at h ⊢
  exact h.imp ha hb

/-- What is done with a result persists when the result is still the same. -/
theorem bind {a a' : Option α} {step step' : α → Option β} (ha : ∀ x, a = some x → a' = some x)
    (hstep : ∀ x, Persists (step x) (step' x)) : Persists (a.bind step) (a'.bind step') := by
  intro h
  cases hx : a with
  | none => rw [hx] at h; exact absurd h (by simp)
  | some x =>
      rw [hx] at h
      rw [ha x hx]
      exact hstep x h

/-- A search that has more to look through, and loses nothing at any item, persists. -/
theorem findSome? {items items' : List α} {step step' : α → Option β}
    (hitems : items ⊆ items') (hstep : ∀ x, Persists (step x) (step' x)) :
    Persists (items.findSome? step) (items'.findSome? step') := by
  intro h
  rw [List.findSome?_isSome_iff] at h ⊢
  obtain ⟨x, hx, hfound⟩ := h
  exact ⟨x, hitems hx, hstep x hfound⟩

end Persists

/-- How much an algorithm tries at a path: the path alone, also the usual endings and directories,
    or also the endings that bundlers know. -/
def ResolutionKind.reach : ResolutionKind → Nat
  | .node16Esm => 0
  | .node10 | .node16Cjs => 1
  | .bundler => 2

namespace Resolver

/-- `after` is a resolver for the same package with all the files of `before`, and perhaps more. -/
structure Grows (before after : Resolver) : Prop where
  tree : before.tree.Within after.tree
  manifest : before.manifest = after.manifest
  extraConditions : before.extraConditions = after.extraConditions

theorem Grows.refl (r : Resolver) : r.Grows r :=
  ⟨.refl r.tree, rfl, rfl⟩

variable {r r' : Resolver} {kind kind' : ResolutionKind} {mode : ResolutionMode}

/-! ## Probing -/

theorem scriptEndings_subset (h : kind.reach ≤ kind'.reach) :
    scriptEndings kind ⊆ scriptEndings kind' := by
  cases kind <;> cases kind' <;> first | exact absurd h (by decide) | decide

section Probing

variable (h : r.Grows r')
include h

theorem Grows.firstFile {paths paths' : List String} (hpaths : paths ⊆ paths') :
    Persists (r.firstFile paths) (r'.firstFile paths') := by
  intro hfound
  rw [Resolver.firstFile, List.find?_isSome] at hfound ⊢
  obtain ⟨path, hmem, hfile⟩ := hfound
  exact ⟨path, hpaths hmem, h.tree.isFile hfile⟩

theorem Grows.declarationFile (path : String) :
    Persists (r.declarationFile path) (r'.declarationFile path) :=
  h.firstFile (List.Subset.refl _)

theorem Grows.scriptFile {endings endings' : List String} (hendings : endings ⊆ endings')
    (path : String) : Persists (r.scriptFile endings path) (r'.scriptFile endings' path) :=
  h.firstFile (List.cons_subset_cons _ (List.map_subset _ hendings))

/-- The manifest of a directory stays, where there was one. -/
theorem Grows.manifestOf {dir : String} {manifest : Manifest}
    (hmanifest : r.manifestOf dir = some manifest) : r'.manifestOf dir = some manifest := by
  unfold Resolver.manifestOf at hmanifest ⊢
  split at hmanifest
  · next hroot => rwa [if_pos hroot, ← h.manifest]
  · next hroot =>
      rw [if_neg hroot]
      obtain ⟨path, hpath, hmanifest⟩ := Option.bind_eq_some_iff.1 hmanifest
      obtain ⟨file, hfile, hmanifest⟩ := Option.bind_eq_some_iff.1 hmanifest
      exact Option.bind_eq_some_iff.2
        ⟨path, hpath, Option.bind_eq_some_iff.2 ⟨file, h.tree.file? hfile, hmanifest⟩⟩

/-- A directory may get a manifest that it had none of. Its index is tried all the same, when what
    the manifest names is not there. -/
theorem Grows.declarationOfDirectory (dir : String) :
    Persists (r.declarationOfDirectory dir) (r'.declarationOfDirectory dir) := by
  have hjoined : ∀ request, Persists ((Path.join? dir request).bind r.declarationFile)
      ((Path.join? dir request).bind r'.declarationFile) := fun request =>
    .bind (fun _ => id) h.declarationFile
  have hnamed : ∀ field : Manifest → Option String, Persists
      (do
        let manifest ← r.manifestOf dir
        let path ← (field manifest).bind (Path.join? dir)
        r.declarationFile path)
      (do
        let manifest ← r'.manifestOf dir
        let path ← (field manifest).bind (Path.join? dir)
        r'.declarationFile path) := fun field =>
    .bind (fun _ => h.manifestOf) fun _ => .bind (fun _ => id) h.declarationFile
  unfold Resolver.declarationOfDirectory
  split
  · next hdir =>
      rw [if_pos (h.tree.isDirectory hdir)]
      exact (hnamed _).orElse ((hnamed _).orElse (hjoined _))
  · exact .none_left _

theorem Grows.scriptOfDirectory {endings endings' : List String} (hendings : endings ⊆ endings')
    (dir : String) :
    Persists (r.scriptOfDirectory endings dir) (r'.scriptOfDirectory endings' dir) := by
  have hindex : ∀ place, Persists ((Path.join? place indexName).bind (r.scriptFile endings))
      ((Path.join? place indexName).bind (r'.scriptFile endings')) := fun place =>
    .bind (fun _ => id) (h.scriptFile hendings)
  unfold Resolver.scriptOfDirectory
  split
  · next hdir =>
      rw [if_pos (h.tree.isDirectory hdir)]
      refine Persists.orElse ?_ (hindex dir)
      exact .bind (fun _ => h.manifestOf) fun _ => .bind (fun _ => id) fun main =>
        (h.scriptFile hendings main).orElse (hindex main)
  · exact .none_left _

theorem Grows.declarationsAt (path : String) :
    Persists (r.declarationsAt path) (r'.declarationsAt path) :=
  (h.declarationFile path).orElse (h.declarationOfDirectory path)

theorem Grows.scriptAt {endings endings' : List String} (hendings : endings ⊆ endings')
    (path : String) : Persists (r.scriptAt endings path) (r'.scriptAt endings' path) :=
  (h.scriptFile hendings path).orElse (h.scriptOfDirectory hendings path)

end Probing

/-! ## Paths that are named exactly -/

/-- The file that a path names exactly: itself, or the declaration that goes with it. -/
def exactTarget? (mode : ResolutionMode) (path : String) : Option String :=
  match mode with
  | .runtime => some path
  | .types => if Path.isDeclaration path then some path else Path.counterpart? path

/-- A path that names a file exactly leads to it. -/
theorem exactly_of_target {path target : String}
    (h : (exactTarget? mode path).filter r.tree.isFile = some target) :
    r.exactly path mode = r.found target false := by
  cases mode <;> simp only [exactTarget?] at h <;> simp only [exactly, h]

/-- A path that names no file exactly leads to none. -/
theorem exactly_of_none {path : String}
    (h : (exactTarget? mode path).filter r.tree.isFile = none) :
    (r.exactly path mode).isFound = false := by
  cases mode <;> simp only [exactTarget?] at h <;> simp only [exactly, h] <;> rfl

/-- Probing begins with the file that the path names exactly. -/
theorem declarationFile_of_exact {path target : String}
    (h : (exactTarget? .types path).filter r.tree.isFile = some target) :
    r.declarationFile path = some target := by
  obtain ⟨htarget, hfile⟩ := Option.filter_eq_some_iff.1 h
  rw [exactTarget?] at htarget
  unfold declarationFile firstFile declarationPaths
  split at htarget
  · next hdecl =>
      obtain rfl : path = target := Option.some.inj htarget
      rw [if_pos hdecl, List.find?_cons_of_pos hfile]
  · next hdecl =>
      rw [if_neg hdecl, htarget, Option.toList_some, List.singleton_append,
        List.find?_cons_of_pos hfile]

theorem scriptFile_of_isFile {path : String} (h : r.tree.isFile path = true)
    (endings : List String) : r.scriptFile endings path = some path :=
  List.find?_cons_of_pos h

/-- **What a path names exactly, every algorithm finds at it.** -/
theorem atPath_of_exactly {path : String} {file : Resolved}
    (h : r.exactly path mode = .found file) (kind : ResolutionKind) :
    r.atPath kind path mode = .found file := by
  unfold atPath
  split
  · exact h
  · cases htarget : (exactTarget? mode path).filter r.tree.isFile with
    | none =>
        have hnone := exactly_of_none htarget
        rw [h] at hnone
        exact absurd hnone (by simp [Resolution.isFound, Resolution.file?])
    | some target =>
        -- The list of paths to probe has the target in front, so nothing comes before it.
        rw [exactly_of_target htarget] at h
        cases mode with
        | types =>
            simp only [declarationsAt, declarationFile_of_exact htarget]
            exact h
        | runtime =>
            obtain ⟨hpath, hfile⟩ := Option.filter_eq_some_iff.1 htarget
            obtain rfl : path = target := Option.some.inj hpath
            simp only [scriptAt, scriptFile_of_isFile hfile]
            exact h

/-- Where a target with declarations is picked, one is picked when more targets have
    declarations. -/
theorem persists_firstDeclared {declaration declaration' : String → Option String}
    (h : ∀ target, Persists (declaration target) (declaration' target))
    (targets : List String) :
    Persists (r.firstDeclared declaration targets) (r'.firstDeclared declaration' targets) := by
  intro hfound
  rw [isSome_firstDeclared, List.any_eq_true] at hfound ⊢
  obtain ⟨target, hmem, htarget⟩ := hfound
  exact ⟨target, hmem, h target htarget⟩

section Growing

variable (h : r.Grows r')
include h

theorem Grows.exactly (path : String) :
    Resolution.Keeps (r.exactly path mode) (r'.exactly path mode) := by
  intro hfound
  cases htarget : (exactTarget? mode path).filter r.tree.isFile with
  | none => exact absurd hfound (by rw [exactly_of_none htarget]; decide)
  | some target =>
      obtain ⟨hpath, hfile⟩ := Option.filter_eq_some_iff.1 htarget
      rw [exactly_of_target (Option.filter_eq_some_iff.2 ⟨hpath, h.tree.isFile hfile⟩)]
      rfl

/-- More is found at a path of more files, and by an algorithm that tries more. -/
theorem Grows.atPath (hkind : kind.reach ≤ kind'.reach) (path : String) :
    Resolution.Keeps (r.atPath kind path mode) (r'.atPath kind' path mode) := by
  intro hfound
  by_cases hesm : kind = .node16Esm
  · subst hesm
    -- The larger reach may belong to any algorithm, and each begins with the exact path.
    have hexact : (r'.exactly path mode).isFound = true := h.exactly path hfound
    cases hanswer : r'.exactly path mode with
    | notFound reason => exact absurd hexact (by simp [hanswer])
    | found file => rw [atPath_of_exactly hanswer]; rfl
  · have hesm' : kind' ≠ .node16Esm := by
      rintro rfl
      cases kind <;> first | exact hesm rfl | exact absurd hkind (by decide)
    unfold Resolver.atPath at hfound ⊢
    rw [if_neg hesm, isFound_foundOr] at hfound
    rw [if_neg hesm', isFound_foundOr]
    cases mode with
    | types => exact h.declarationsAt path hfound
    | runtime => exact h.scriptAt (scriptEndings_subset hkind) path hfound

/-! ## The older fields -/

theorem Grows.mappedPaths (path : String) : r.mappedPaths path = r'.mappedPaths path := by
  rw [Resolver.mappedPaths, Resolver.mappedPaths, h.manifest]

theorem Grows.mappedDeclarations (path : String) :
    Persists (r.mappedDeclarations path) (r'.mappedDeclarations path) := by
  rw [Resolver.mappedDeclarations, h.mappedPaths]
  exact .findSome? (List.Subset.refl _) h.declarationsAt

/-- The package root is found by the same fields. Only a bundler has one more to try. -/
theorem Grows.legacyRoot (hkind : kind.reach ≤ kind'.reach) :
    Resolution.Keeps (r.legacyRoot kind mode) (r'.legacyRoot kind' mode) := by
  intro hfound
  unfold Resolver.legacyRoot at hfound ⊢
  rw [isFound_foundOr] at hfound ⊢
  rw [h.manifest] at hfound
  cases mode with
  | types =>
      refine Persists.orElse ?_ (.orElse ?_ (h.mappedDeclarations indexName)) hfound
      · exact .bind (fun _ => id) h.mappedDeclarations
      · exact .bind (fun _ => id) h.declarationsAt
  | runtime =>
      have hendings := scriptEndings_subset hkind
      refine Persists.orElse ?_ (.orElse ?_ (h.scriptFile hendings indexName)) hfound
      · refine .bind (fun path hmodule => ?_) (h.scriptAt hendings)
        -- Nothing reaches further than a bundler, so the field is read again.
        split at hmodule
        · next hbundler =>
            subst hbundler
            have hbundler' : kind' = .bundler := by
              cases kind' <;> first | rfl | exact absurd hkind (by decide)
            rwa [if_pos hbundler']
        · exact absurd hmodule (by simp)
      · exact .bind (fun _ => id) (h.scriptAt hendings)

/-- **The older fields lose no answer to more files, or to an algorithm that tries more.** -/
theorem Grows.legacy (hkind : kind.reach ≤ kind'.reach) (subpath : String) :
    Resolution.Keeps (r.legacy kind subpath mode) (r'.legacy kind' subpath mode) := by
  intro hfound
  unfold Resolver.legacy at hfound ⊢
  split at hfound
  · next hroot =>
      rw [if_pos hroot]
      exact h.legacyRoot hkind hfound
  · next hroot =>
      rw [if_neg hroot]
      cases hpath : Path.normalize? subpath with
      | none => exact absurd hfound (by simp [hpath])
      | some path =>
          rw [hpath] at hfound
          cases mode with
          | runtime => exact h.atPath hkind path hfound
          | types =>
              simp only [isFound_firstFound, List.any_map, List.any_eq_true] at hfound ⊢
              obtain ⟨place, hplace, hfound⟩ := hfound
              rw [← h.mappedPaths]
              exact ⟨place, hplace, h.atPath hkind place hfound⟩

/-! ## The `exports` field -/

theorem Grows.namedDeclaration (target : String) :
    Persists (r.namedDeclaration target) (r'.namedDeclaration target) := by
  intro hfound
  obtain ⟨path, hpath⟩ := Option.isSome_iff_exists.1 hfound
  obtain ⟨hnormalize, hdecl⟩ := Option.filter_eq_some_iff.1 hpath
  rw [Bool.and_eq_true] at hdecl
  refine Option.isSome_iff_exists.2 ⟨path, Option.filter_eq_some_iff.2 ⟨hnormalize, ?_⟩⟩
  rw [Bool.and_eq_true]
  exact ⟨hdecl.1, h.tree.isFile hdecl.2⟩

theorem Grows.targetDeclaration (target : String) :
    Persists (r.targetDeclaration target) (r'.targetDeclaration target) :=
  .bind (fun _ => id) h.declarationFile

theorem Grows.rootTypes (subpath : String) :
    Persists (r.rootTypes subpath) (r'.rootTypes subpath) := by
  unfold Resolver.rootTypes
  rw [h.manifest]
  split
  · exact .bind (fun _ => id) h.declarationsAt
  · exact .refl none

theorem Grows.nodeTargets (targets : List String) (subpath : String) :
    Resolution.Keeps (r.nodeTargets targets subpath mode)
      (r'.nodeTargets targets subpath mode) := by
  intro hfound
  cases mode with
  | runtime =>
      simp only [Resolver.nodeTargets] at hfound ⊢
      split at hfound
      · exact absurd hfound (by decide)
      · split at hfound
        · next hfile => rw [if_pos (h.tree.isFile hfile)]; rfl
        · exact absurd hfound (by decide)
  | types =>
      simp only [Resolver.nodeTargets] at hfound ⊢
      have hpersists : Persists (r.firstDeclared r.namedDeclaration targets)
          (r'.firstDeclared r'.namedDeclaration targets) :=
        persists_firstDeclared h.namedDeclaration targets
      cases hdeclared' : r'.firstDeclared r'.namedDeclaration targets with
      | some answer => exact isFound_of_firstDeclared hdeclared'
      | none =>
          -- Then no target was declared before either, and the `types` field had the answer.
          have hdeclared : r.firstDeclared r.namedDeclaration targets = none := by
            simpa [Persists, hdeclared'] using hpersists
          rw [hdeclared] at hfound
          rw [isFound_foundOr] at hfound ⊢
          exact h.rootTypes subpath hfound

theorem Grows.bundlerTargets (targets : List String) :
    Resolution.Keeps (r.bundlerTargets targets mode) (r'.bundlerTargets targets mode) := by
  intro hfound
  cases mode with
  | runtime =>
      simp only [Resolver.bundlerTargets] at hfound ⊢
      split at hfound
      · exact absurd hfound (by decide)
      · next path hpath =>
          rw [isFound_foundOr] at hfound ⊢
          exact h.scriptFile (List.Subset.refl _) path hfound
  | types =>
      simp only [Resolver.bundlerTargets] at hfound ⊢
      have hpersists : Persists (r.firstDeclared r.targetDeclaration targets)
          (r'.firstDeclared r'.targetDeclaration targets) :=
        persists_firstDeclared h.targetDeclaration targets
      split at hfound
      · next answer hdeclared =>
          obtain ⟨answer', hdeclared'⟩ :=
            Option.isSome_iff_exists.1 (hpersists (by rw [hdeclared]; rfl))
          rw [hdeclared']
          exact isFound_of_firstDeclared hdeclared'
      · exact absurd hfound (by decide)

/-! ## Subpaths and questions -/

/-- What `exports` says about a subpath does not depend on the files, so both sides come to the same
    targets, or both to the older fields. -/
theorem Grows.atSubpath (kind : ResolutionKind) (subpath : String) (active : ConditionSet) :
    Resolution.Keeps (r.atSubpath kind subpath mode active)
      (r'.atSubpath kind subpath mode active) := by
  have hlegacy : ∀ kind : ResolutionKind, Resolution.Keeps (r.legacy kind subpath mode)
      (r'.legacy kind subpath mode) := fun kind => h.legacy (Nat.le_refl _) subpath
  have hnode : ∀ exports, Resolution.Keeps (r.nodeExports exports subpath mode active)
      (r'.nodeExports exports subpath mode active) := fun exports => by
    unfold nodeExports
    split
    · exact h.nodeTargets _ subpath
    · exact id
    · exact id
    · exact id
  have hbundler : ∀ exports, Resolution.Keeps (r.bundlerExports exports subpath mode active)
      (r'.bundlerExports exports subpath mode active) := fun exports => by
    unfold bundlerExports
    split
    · exact h.bundlerTargets _
    · exact hlegacy .bundler
  unfold Resolver.atSubpath
  rw [← h.manifest]
  split
  · exact hlegacy _
  · exact hlegacy _
  · exact hnode _
  · exact hnode _
  · exact hbundler _

/-- **No answer is lost to more files.** -/
theorem Grows.answer (kind : ResolutionKind) (question : Question) :
    Resolution.Keeps (r.answer kind mode question) (r'.answer kind mode question) := by
  refine answer_rel (by rw [h.manifest]) (fun _ => id) (h.atPath (Nat.le_refl _))
    fun subpath _ => ?_
  have hactive : question.active r' kind mode = question.active r kind mode := by
    cases question with
    | entry subpath => simp only [Question.active, conditions, h.extraConditions]
    | specifier text importer active => rfl
  rw [hactive]
  exact h.atSubpath kind subpath _

end Growing

end Resolver

/-! ## Packages with more files -/

namespace Resolver

theorem grows_ofPackage {small large : FileTree} (h : small.Within large) (manifest : Manifest)
    (conditions : List String) :
    (ofPackage small manifest conditions).Grows (ofPackage large manifest conditions) :=
  ⟨h, rfl, rfl⟩

theorem Grows.anyTyped {r r' : Resolver} (h : r.Grows r') (cells : List Cell)
    (htyped : Analysis.anyTyped (cells.map (Analysis.resolve r)) = true) :
    Analysis.anyTyped (cells.map (Analysis.resolve r')) = true := by
  simp only [Analysis.anyTyped, List.any_map, List.any_eq_true] at htyped ⊢
  obtain ⟨cell, hcell, hfound⟩ := htyped
  exact ⟨cell, hcell, h.answer cell.kind (.entry cell.entryPoint) hfound⟩

/-- **More files lose no answer.** A question that leads to a file of the package still leads to a
    file when the package has more files, though perhaps to another one. A package that has types
    keeps having them. -/
theorem found_among_more_files (files files' : List (String × Bytes)) (tree tree' : FileTree)
    (hbuilt : FileTree.ofFiles files = .ok tree) (hbuilt' : FileTree.ofFiles files' = .ok tree')
    (hmore : ∀ (path : String) (bytes : Bytes),
      tree.contents[path]? = some bytes → tree'.contents[path]? = some bytes)
    (manifest : Manifest) :
    (∀ conditions kind mode question,
      ((ofPackage tree manifest conditions).answer kind mode question).isFound = true →
      ((ofPackage tree' manifest conditions).answer kind mode question).isFound = true) ∧
    (∀ options, (Analysis.ofPackage tree manifest options).containsTypes = true →
      (Analysis.ofPackage tree' manifest options).containsTypes = true) := by
  have hwithin : tree.Within tree' :=
    (FileTree.coherent_ofFiles hbuilt).within (FileTree.coherent_ofFiles hbuilt') hmore
  refine ⟨fun conditions kind mode question => ?_, fun options => ?_⟩
  · exact (grows_ofPackage hwithin manifest conditions).answer kind question
  · exact (grows_ofPackage hwithin manifest options.conditions).anyTyped _

/-- A directory with an index gets a manifest that names another script. The package has types before
    and after. -/
theorem directory_found_among_more_files :
    let nested : Bytes := Bytes.ofString "\x7b\"main\": \"a\"\x7d"
    let files : List (String × Bytes) := [("lib/index.js", []), ("index.d.ts", [])]
    let files' := files ++ [("lib/package.json", nested), ("lib/a.js", [])]
    let tree := (FileTree.empty.insert "lib/index.js" []).insert "index.d.ts" []
    let tree' := (tree.insert "lib/package.json" nested).insert "lib/a.js" []
    let manifest : Manifest := ⟨none, none, none, none, none, none, none, none⟩
    let entry := Question.entry "./lib"
    (FileTree.ofFiles files = .ok tree ∧ FileTree.ofFiles files' = .ok tree' ∧
      ∀ (path : String) (bytes : Bytes),
        tree.contents[path]? = some bytes → tree'.contents[path]? = some bytes) ∧
    ((ofPackage tree manifest []).answer .node10 .runtime entry
        = .found ⟨"lib/index.js", .cjs, false, false⟩ ∧
      (ofPackage tree' manifest []).answer .node10 .runtime entry
        = .found ⟨"lib/a.js", .cjs, false, false⟩ ∧
      ((ofPackage tree' manifest []).answer .node10 .runtime entry).isFound = true) ∧
    ((Analysis.ofPackage tree manifest ⟨[], []⟩).containsTypes = true ∧
      (Analysis.ofPackage tree' manifest ⟨[], []⟩).containsTypes = true) := by
  intro nested files files' tree tree' manifest entry
  have hbuilt : FileTree.ofFiles files = .ok tree := rfl
  have hbuilt' : FileTree.ofFiles files' = .ok tree' := rfl
  have hmore : ∀ (path : String) (bytes : Bytes),
      tree.contents[path]? = some bytes → tree'.contents[path]? = some bytes := by
    intro path bytes h
    have hpath : path = "lib/index.js" ∨ path = "index.d.ts" := by
      have hmem := FileTree.mem_contents_iff.2 ⟨bytes, h⟩
      simpa [tree, FileTree.mem_contents_insert, FileTree.empty, or_comm] using hmem
    rcases hpath with rfl | rfl
    · rw [← h]
      decide +kernel
    · rw [← h]
      decide +kernel
  have hbefore : (ofPackage tree manifest []).answer .node10 .runtime entry
      = .found ⟨"lib/index.js", .cjs, false, false⟩ := by decide +kernel
  have htyped : (Analysis.ofPackage tree manifest ⟨[], []⟩).containsTypes = true := by
    decide +kernel
  have hkept := found_among_more_files files files' tree tree' hbuilt hbuilt' hmore manifest
  exact ⟨⟨hbuilt, hbuilt', hmore⟩,
    ⟨hbefore, by decide +kernel, hkept.1 [] .node10 .runtime entry (by rw [hbefore]; rfl)⟩,
    htyped, hkept.2 _ htyped⟩

end Resolver

end TypingsAudit
