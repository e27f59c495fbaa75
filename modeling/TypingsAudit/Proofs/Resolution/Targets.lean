import TypingsAudit.Proofs.Exports.ConditionNames
import TypingsAudit.Proofs.Resolution.Answers

set_option autoImplicit false

/-! # The targets of `exports`

Node.js and a bundler walk the same `exports` and differ in what they make of its targets. Node.js
takes a declaration only where a target names it, a bundler also where it goes with a target, and so
a bundler comes to declarations no later (`exists_firstAt_le`). What they are given is the same when
`exports` mentions none of the conditions that only one of them activates. -/

namespace TypingsAudit

namespace Resolver

variable {r : Resolver}

/-! ## The first target with declarations -/

/-- `path` holds the declarations of the target at `index`, and no target before it has any. -/
structure FirstAt (declaration : String → Option String) (targets : List String) (index : Nat)
    (path : String) : Prop where
  here : targets[index]?.bind declaration = some path
  before : ∀ k < index, targets[k]?.bind declaration = none

variable {declaration declaration' : String → Option String}

/-- The first target is at the front, or at the front of the rest when the front has none. -/
theorem firstAt_cons_iff {first path : String} {rest : List String} {index : Nat} :
    FirstAt declaration (first :: rest) index path ↔
      index = 0 ∧ declaration first = some path ∨
      declaration first = none ∧ ∃ k, index = k + 1 ∧ FirstAt declaration rest k path := by
  constructor
  · intro h
    cases index with
    | zero => exact Or.inl ⟨rfl, h.here⟩
    | succ k =>
        have hrest : FirstAt declaration rest k path :=
          ⟨h.here, fun j hj => h.before (j + 1) (Nat.succ_lt_succ hj)⟩
        exact Or.inr ⟨h.before 0 (Nat.succ_pos k), k, rfl, hrest⟩
  · rintro (⟨rfl, hfirst⟩ | ⟨hfirst, k, rfl, hrest⟩)
    · exact ⟨hfirst, fun j hj => absurd hj (Nat.not_lt_zero j)⟩
    · refine ⟨hrest.here, fun j hj => ?_⟩
      cases j with
      | zero => exact hfirst
      | succ j => exact hrest.before j (Nat.lt_of_succ_lt_succ hj)

/-- A target with declarations is the first one or has the first one before it. -/
theorem exists_firstAt_le {targets : List String} {index : Nat} {path : String}
    (h : targets[index]?.bind declaration = some path) :
    ∃ k ≤ index, ∃ path', FirstAt declaration targets k path' := by
  -- The index counts from the front of the list, so it is generalized along with it.
  induction targets generalizing index with
  | nil => exact absurd h (by simp)
  | cons first rest ih =>
      cases hfirst : declaration first with
      | some path' =>
          exact ⟨0, Nat.zero_le index, path', firstAt_cons_iff.2 (Or.inl ⟨rfl, hfirst⟩)⟩
      | none =>
          cases index with
          | zero =>
              have hhere : declaration first = some path := h
              exact absurd (hfirst.symm.trans hhere) (by simp)
          | succ index =>
              rw [List.getElem?_cons_succ] at h
              obtain ⟨k, hk, path', hrest⟩ := ih h
              exact ⟨k + 1, Nat.succ_le_succ hk, path',
                firstAt_cons_iff.2 (Or.inr ⟨hfirst, k, rfl, hrest⟩)⟩

theorem findSome?_eq_some_iff_firstAt {targets : List String} {path : String} :
    targets.findSome? declaration = some path ↔
      ∃ index, FirstAt declaration targets index path := by
  induction targets with
  | nil => simpa using fun index h => absurd h.here (by simp)
  | cons first rest ih =>
      rw [List.findSome?_cons]
      cases hfirst : declaration first with
      | some path' => simp [firstAt_cons_iff, hfirst]
      | none =>
          simp only [ih]
          constructor
          · rintro ⟨index, h⟩
            exact ⟨index + 1, firstAt_cons_iff.2 (Or.inr ⟨hfirst, index, rfl, h⟩)⟩
          · rintro ⟨index, h⟩
            rcases firstAt_cons_iff.1 h with ⟨-, hsome⟩ | ⟨-, k, -, hrest⟩
            · exact absurd (hfirst.symm.trans hsome) (by simp)
            · exact ⟨k, hrest⟩

/-- **The answer is the first target with declarations.** It says so when that is not the first
    target of all. -/
theorem firstDeclared_eq_some_iff {targets : List String} {answer : Resolution} :
    r.firstDeclared declaration targets = some answer ↔
      ∃ index path, FirstAt declaration targets index path ∧
        answer = r.found path (decide (0 < index)) := by
  cases targets with
  | nil => simpa [firstDeclared] using fun index path h => absurd h.here (by simp)
  | cons first rest =>
      rw [firstDeclared]
      cases hfirst : declaration first with
      | some path =>
          constructor
          · intro h
            exact ⟨0, path, firstAt_cons_iff.2 (Or.inl ⟨rfl, hfirst⟩), (Option.some.inj h).symm⟩
          · rintro ⟨index, path', h, rfl⟩
            rcases firstAt_cons_iff.1 h with ⟨rfl, hsome⟩ | ⟨hnone, -⟩
            · obtain rfl := Option.some.inj (hfirst.symm.trans hsome)
              rfl
            · exact absurd (hnone.symm.trans hfirst) (by simp)
      | none =>
          simp only [Option.map_eq_some_iff, findSome?_eq_some_iff_firstAt]
          constructor
          · rintro ⟨path, ⟨index, h⟩, rfl⟩
            exact ⟨index + 1, path, firstAt_cons_iff.2 (Or.inr ⟨hfirst, index, rfl, h⟩), by simp⟩
          · rintro ⟨index, path, h, rfl⟩
            rcases firstAt_cons_iff.1 h with ⟨-, hsome⟩ | ⟨-, k, rfl, hrest⟩
            · exact absurd (hfirst.symm.trans hsome) (by simp)
            · exact ⟨path, ⟨k, hrest⟩, by simp⟩

/-- A target that names its declarations itself has them for a bundler too. -/
theorem targetDeclaration_of_namedDeclaration {target path : String}
    (h : r.namedDeclaration target = some path) : r.targetDeclaration target = some path := by
  obtain ⟨hnormalize, hdecl⟩ := Option.filter_eq_some_iff.1 h
  rw [Bool.and_eq_true] at hdecl
  unfold targetDeclaration declarationFile firstFile declarationPaths
  rw [hnormalize, Option.bind_some, if_pos hdecl.1, List.find?_cons_of_pos hdecl.2]

/-- **A bundler comes to declarations no later than Node.js**, and at the same target to the same
    ones. -/
theorem exists_targetDeclaration_le {targets : List String} {index : Nat} {path : String}
    (h : FirstAt r.namedDeclaration targets index path) :
    ∃ k ≤ index, ∃ path', FirstAt r.targetDeclaration targets k path' ∧
      (k = index → path' = path) := by
  obtain ⟨target, htarget, hnamed⟩ := Option.bind_eq_some_iff.1 h.here
  have hhere : targets[index]?.bind r.targetDeclaration = some path :=
    Option.bind_eq_some_iff.2 ⟨target, htarget, targetDeclaration_of_namedDeclaration hnamed⟩
  obtain ⟨k, hk, path', hfirst⟩ := exists_firstAt_le hhere
  refine ⟨k, hk, path', hfirst, ?_⟩
  rintro rfl
  exact Option.some.inj (hfirst.here.symm.trans hhere)

/-! ## Node.js and bundlers -/

/-- Without the conditions that only one of the two activates, both are given the same. -/
theorem lookup_esm_eq_bundler {exports : Exports} (hnames : ∀ name ∈ exports.conditionNames,
    name ≠ "node" ∧ name ≠ "module") (r : Resolver) (subpath : String) (mode : ResolutionMode) :
    exports.lookup subpath (r.conditions .node16Esm mode)
      = exports.lookup subpath (r.conditions .bundler mode) := by
  refine Exports.lookup_congr subpath fun name hmem => ?_
  obtain ⟨hnode, hmodule⟩ := hnames name hmem
  rw [ConditionSet.AgreeOn, Bool.eq_iff_iff]
  simp only [conditions, usualConditions, ConditionSet.isActive_ofNames, List.cons_append,
    List.mem_cons, hnode, hmodule, List.nil_append]

/-- What Node.js loads for the first target, a bundler loads too: it tries the target as it stands
    before any ending. -/
theorem bundlerTargets_of_nodeTargets {targets : List String} {subpath : String} {file : Resolved}
    (h : r.nodeTargets targets subpath .runtime = .found file) :
    r.bundlerTargets targets .runtime = .found file := by
  simp only [nodeTargets] at h
  simp only [bundlerTargets]
  split at h
  · exact absurd h (by simp)
  · next path hpath =>
      split at h
      · next hfile =>
          rw [← h]
          simp only [scriptFile, firstFile, scriptPaths, List.find?_cons_of_pos hfile]
          rfl
      · exact absurd h (by simp)

/-- Declarations that Node.js finds without the field `types` are those of the first target that
    names some. -/
theorem exists_firstAt_of_nodeTargets {targets : List String} {subpath : String} {file : Resolved}
    (hroot : r.rootTypes subpath = none)
    (h : r.nodeTargets targets subpath .types = .found file) :
    ∃ index path, FirstAt r.namedDeclaration targets index path ∧
      r.found path (decide (0 < index)) = .found file := by
  simp only [nodeTargets, hroot] at h
  split at h
  · next answer hanswer =>
      obtain ⟨index, path, hfirst, rfl⟩ := firstDeclared_eq_some_iff.1 hanswer
      exact ⟨index, path, hfirst, h⟩
  · exact absurd h (by simp [foundOr])

theorem nodeExports_eq_found_iff {exports : Exports} {subpath : String} {mode : ResolutionMode}
    {active : ConditionSet} {file : Resolved} :
    r.nodeExports exports subpath mode active = .found file ↔
      ∃ targets, exports.lookup subpath active = .candidates targets ∧
        r.nodeTargets targets subpath mode = .found file := by
  unfold nodeExports
  cases exports.lookup subpath active <;> simp

/-- Only the package root has the field `types` to turn to. -/
theorem rootTypes_eq_none {subpath : String}
    (h : subpath ≠ Exports.rootSubpath ∨ r.manifest.types = none) : r.rootTypes subpath = none := by
  unfold rootTypes
  rcases h with hsubpath | htypes
  · exact if_neg hsubpath
  · rw [htypes]
    exact ite_self none

/-- **With `exports` a bundler covers `node16-esm`**, where the field does not mention the
    conditions that only one of them activates. Both look up the same. A script that `node16-esm` finds, the
    bundler finds too. Declarations that `node16-esm` finds at a target, the bundler finds there or
    at an earlier target: the same file at the same target, and marked as a fallback only if that of
    `node16-esm` is. -/
theorem bundler_covers_esm (tree : FileTree) (manifest : Manifest) (conditions : List String)
    (exports : Exports) (hexports : manifest.exports = some exports)
    (hnames : ∀ name ∈ exports.conditionNames, name ≠ "node" ∧ name ≠ "module")
    (subpath : String) :
    let r := ofPackage tree manifest conditions
    (∀ mode, exports.lookup subpath (r.conditions .node16Esm mode)
      = exports.lookup subpath (r.conditions .bundler mode)) ∧
    (∀ file, r.enter .node16Esm subpath .runtime = .found file →
      r.enter .bundler subpath .runtime = .found file) ∧
    (subpath ≠ Exports.rootSubpath ∨ manifest.types = none →
      ∀ file, r.enter .node16Esm subpath .types = .found file →
      ∃ targets index index' file',
        exports.lookup subpath (r.conditions .bundler .types) = .candidates targets ∧
        FirstAt r.namedDeclaration targets index file.path ∧
        FirstAt r.targetDeclaration targets index' file'.path ∧
        r.enter .bundler subpath .types = .found file' ∧
        index' ≤ index ∧ (index' = index → file' = file) ∧
        (file'.usedFallback = true → file.usedFallback = true)) := by
  intro r
  have hlookup := lookup_esm_eq_bundler hnames r subpath
  have hesm : ∀ mode, r.enter .node16Esm subpath mode
      = r.nodeExports exports subpath mode (r.conditions .node16Esm mode) := fun mode => by
    simp only [enter, atSubpath, r, ofPackage, hexports]
  have hbundler : ∀ mode, r.enter .bundler subpath mode
      = r.bundlerExports exports subpath mode (r.conditions .bundler mode) := fun mode => by
    simp only [enter, atSubpath, r, ofPackage, hexports]
  refine ⟨hlookup, fun file hfile => ?runtime, fun hroot file hfile => ?types⟩
  case runtime =>
    rw [hesm] at hfile
    obtain ⟨targets, htargets, hfile⟩ := nodeExports_eq_found_iff.1 hfile
    rw [hbundler, bundlerExports, ← hlookup, htargets]
    exact bundlerTargets_of_nodeTargets hfile
  case types =>
    rw [hesm] at hfile
    obtain ⟨targets, htargets, hfile⟩ := nodeExports_eq_found_iff.1 hfile
    obtain ⟨index, path, hfirst, hfound⟩ :=
      exists_firstAt_of_nodeTargets (rootTypes_eq_none hroot) hfile
    obtain rfl := Resolution.found.inj hfound
    obtain ⟨index', hle, path', hfirst', hsame⟩ := exists_targetDeclaration_le hfirst
    -- The mark of a fallback is the index, so an earlier target is marked only if a later one is.
    have hdeclared : r.firstDeclared r.targetDeclaration targets
        = some (r.found path' (decide (0 < index'))) :=
      firstDeclared_eq_some_iff.2 ⟨index', path', hfirst', rfl⟩
    rw [hlookup] at htargets
    have hfound' : r.enter .bundler subpath .types = r.found path' (decide (0 < index')) := by
      rw [hbundler, bundlerExports, htargets]
      simp only [bundlerTargets, hdeclared]
    refine ⟨targets, index, index',
      ⟨path', r.scopes.formatOf path', Path.isDeclaration path', decide (0 < index')⟩,
      htargets, hfirst, hfirst', hfound', hle, ?_, ?_⟩
    · rintro rfl
      rw [hsame rfl]
    · intro hfallback
      exact decide_eq_true (Nat.lt_of_lt_of_le (of_decide_eq_true hfallback) hle)

/-- A target whose declarations lie beside it, in front of a target that names others. -/
theorem bundler_covers_esm_at_earlier_target :
    let exports := Exports.subpaths
      [("./a", .conditions [("import", .fallback [.target "./a.mjs", .target "./other.d.ts"])])]
    let manifest : Manifest := ⟨none, none, none, none, none, none, some exports, none⟩
    let tree := ((FileTree.empty.insert "a.mjs" []).insert "a.d.mts" []).insert "other.d.ts" []
    let r := ofPackage tree manifest ["node"]
    let script : Resolved := ⟨"a.mjs", .esm, false, false⟩
    let other : Resolved := ⟨"other.d.ts", .cjs, true, true⟩
    (manifest.exports = some exports ∧
      ∀ name ∈ exports.conditionNames, name ≠ "node" ∧ name ≠ "module") ∧
    (r.enter .node16Esm "./a" .runtime = .found script ∧
      r.enter .bundler "./a" .runtime = .found script) ∧
    (("./a" ≠ Exports.rootSubpath ∨ manifest.types = none) ∧
      r.enter .node16Esm "./a" .types = .found other ∧
      ∃ file', r.enter .bundler "./a" .types = .found file' ∧ file'.path = "a.d.mts") := by
  intro exports manifest tree r script other
  have hnames : ∀ name ∈ exports.conditionNames, name ≠ "node" ∧ name ≠ "module" := by
    decide +kernel
  have hcovers := bundler_covers_esm tree manifest ["node"] exports rfl hnames "./a"
  have hscript : r.enter .node16Esm "./a" .runtime = .found script := by decide +kernel
  have hother : r.enter .node16Esm "./a" .types = .found other := by decide +kernel
  have hroot : "./a" ≠ Exports.rootSubpath ∨ manifest.types = none := Or.inr rfl
  obtain ⟨-, -, -, file', -, -, -, hfile', -⟩ := hcovers.2.2 hroot other hother
  have hbeside : r.enter .bundler "./a" .types = .found ⟨"a.d.mts", .esm, true, false⟩ := by
    decide +kernel
  obtain rfl := Resolution.found.inj (hfile'.symm.trans hbeside)
  exact ⟨⟨rfl, hnames⟩, ⟨hscript, hcovers.2.1 script hscript⟩, hroot, hother, _, hfile', rfl⟩

end Resolver

end TypingsAudit
