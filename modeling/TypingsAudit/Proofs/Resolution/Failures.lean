import TypingsAudit.Proofs.Exports.Walk
import TypingsAudit.Proofs.Resolution.WithoutExports

set_option autoImplicit false

/-! # Why a subpath leads to nothing

An answer without a file gives a reason. `Resolver.FailsFor` says when each reason other than
`fileNotFound` is due: a lookup in `exports` came to nothing usable (`FailsOn`), or the older fields
led to a directory that cannot be imported. `atSubpath_eq_notFound_iff` says that these are the
reasons that are given, and everything else that fails does so for `fileNotFound`.

Where several places are tried one after the other, the reason is that of the last one
(`firstFound_eq_notFound_iff`). -/

namespace TypingsAudit

namespace Resolver

variable {r : Resolver} {kind : ResolutionKind} {mode : ResolutionMode} {subpath : String}
  {active : ConditionSet} {reason : NotFoundReason}

/-! ## Reasons -/

/-- The places that the older fields look at for a path of the package, in order. -/
def places (r : Resolver) (mode : ResolutionMode) (path : String) : List String :=
  match mode with
  | .runtime => [path]
  | .types => r.mappedPaths path

/-- The declaration file that a target of `exports` leads to under an algorithm that follows it. -/
def declarationFor (r : Resolver) (kind : ResolutionKind) (target : String) : Option String :=
  if kind = .bundler then r.targetDeclaration target else r.namedDeclaration target

/-- When the outcome of a lookup in `exports` is a reason to fail, to an algorithm that follows
    it. -/
def FailsOn (r : Resolver) (kind : ResolutionKind) (subpath : String) (mode : ResolutionMode)
    (outcome : Exports.Lookup) : NotFoundReason → Prop
  | .subpathNotExported => kind.enforcesFormat = true ∧ outcome = .notExported
  | .noActiveCondition => kind.enforcesFormat = true ∧ outcome = .noActiveCondition
  | .invalidTarget =>
    kind.enforcesFormat = true ∧ outcome = .invalidTarget ∨
      -- Only the first target counts for code.
      mode = .runtime ∧ ∃ first rest, outcome = .candidates (first :: rest) ∧
        Path.normalize? first = none
  | .notADeclaration =>
    mode = .types ∧
      (∃ targets, outcome = .candidates targets ∧
        ∀ target ∈ targets, r.declarationFor kind target = none) ∧
      (kind ≠ .bundler → r.rootTypes subpath = none)
  | .packageNotFound | .fileNotFound | .directoryImport => False

/-- When a subpath fails for a reason other than `fileNotFound`. -/
def FailsFor (r : Resolver) (kind : ResolutionKind) (subpath : String) (mode : ResolutionMode)
    (active : ConditionSet) : NotFoundReason → Prop
  | .directoryImport =>
    kind = .node16Esm ∧ r.manifest.exports = none ∧ subpath ≠ Exports.rootSubpath ∧
      ∃ path last, Path.normalize? subpath = some path ∧
        (∀ place ∈ r.places mode path, (r.exactly place mode).isFound = false) ∧
        (r.places mode path).getLast? = some last ∧ r.tree.isDirectory last = true
  | reason =>
    ∃ exports, r.manifest.exports = some exports ∧ kind ≠ .node10 ∧
      r.FailsOn kind subpath mode (exports.lookup subpath active) reason

/-! ## Paths -/

theorem foundOr_eq_notFound_iff {reason reason' : NotFoundReason} {outcome : Option String} :
    r.foundOr reason outcome = .notFound reason' ↔ outcome = none ∧ reason' = reason := by
  cases outcome with
  | none => simp [foundOr, eq_comm]
  | some path => simp [foundOr, found]

/-- A path that names no file exactly fails for being a directory or for being nothing. -/
theorem exactly_eq_notFound_iff {path : String} :
    r.exactly path mode = .notFound reason ↔
      (r.exactly path mode).isFound = false ∧
        reason = if r.tree.isDirectory path then .directoryImport else .fileNotFound := by
  cases htarget : (exactTarget? mode path).filter r.tree.isFile with
  | some target =>
      rw [exactly_of_target htarget]
      simp [found, Resolution.isFound, Resolution.file?]
  | none =>
      have hanswer : r.exactly path mode
          = .notFound (if r.tree.isDirectory path then .directoryImport else .fileNotFound) := by
        cases mode <;> simp only [exactTarget?] at htarget <;> simp only [exactly, htarget]
      rw [hanswer]
      constructor
      · intro hreason
        exact ⟨rfl, (Resolution.notFound.inj hreason).symm⟩
      · rintro ⟨-, rfl⟩
        rfl

/-- Only `node16-esm` gives a reason of its own for a path. -/
theorem atPath_eq_notFound_iff (h : reason ≠ .fileNotFound) {path : String} :
    r.atPath kind path mode = .notFound reason ↔
      kind = .node16Esm ∧ reason = .directoryImport ∧ (r.exactly path mode).isFound = false ∧
        r.tree.isDirectory path = true := by
  by_cases hesm : kind = .node16Esm
  · subst hesm
    have hexact : r.atPath .node16Esm path mode = r.exactly path mode := if_pos rfl
    rw [hexact, exactly_eq_notFound_iff]
    constructor
    · rintro ⟨hnone, hreason⟩
      split at hreason
      · next hdirectory => exact ⟨rfl, hreason, hnone, hdirectory⟩
      · exact absurd hreason h
    · rintro ⟨-, hreason, hnone, hdirectory⟩
      rw [if_pos hdirectory]
      exact ⟨hnone, hreason⟩
  · have hprobe : r.atPath kind path mode ≠ .notFound reason := by
      unfold atPath
      rw [if_neg hesm, Ne, foundOr_eq_notFound_iff]
      exact fun hanswer => h hanswer.2
    exact iff_of_false hprobe fun hanswer => hesm hanswer.1

/-! ## Several places -/

/-- Where no answer is a file, the last one is given. -/
theorem firstFound_eq_notFound_iff {answers : List Resolution} :
    firstFound answers = .notFound reason ↔
      (∀ answer ∈ answers, answer.isFound = false) ∧
        answers.getLast?.getD (.notFound .fileNotFound) = .notFound reason := by
  induction answers with
  | nil => simp [firstFound]
  | cons answer rest ih =>
      cases rest with
      | nil =>
          cases answer with
          | found file => simp [firstFound, Resolution.isFound, Resolution.file?]
          | notFound other => simp [firstFound, Resolution.isFound, Resolution.file?]
      | cons next rest =>
          rw [firstFound, List.getLast?_cons_cons, List.forall_mem_cons]
          · cases answer with
            | found file => simp [Resolution.isFound, Resolution.file?]
            | notFound other =>
                rw [if_neg (by simp)]
                simpa using ih
          · simp

/-- Below the package root, the older fields try one place after the other. -/
theorem legacy_eq_firstFound (hsubpath : subpath ≠ Exports.rootSubpath) {path : String}
    (hpath : Path.normalize? subpath = some path) :
    r.legacy kind subpath mode = firstFound ((r.places mode path).map (r.atPath kind · mode)) := by
  unfold legacy
  rw [if_neg hsubpath, hpath]
  cases mode with
  | types => rfl
  | runtime => rfl

theorem legacy_of_escape (hsubpath : subpath ≠ Exports.rootSubpath)
    (hpath : Path.normalize? subpath = none) :
    r.legacy kind subpath mode = .notFound .fileNotFound := by
  unfold legacy
  rw [if_neg hsubpath, hpath]

/-- **The older fields fail for a directory or for nothing.** It is the last place that is the
    directory. -/
theorem legacy_eq_notFound_iff (h : reason ≠ .fileNotFound) :
    r.legacy kind subpath mode = .notFound reason ↔
      kind = .node16Esm ∧ reason = .directoryImport ∧ subpath ≠ Exports.rootSubpath ∧
        ∃ path last, Path.normalize? subpath = some path ∧
          (∀ place ∈ r.places mode path, (r.exactly place mode).isFound = false) ∧
          (r.places mode path).getLast? = some last ∧ r.tree.isDirectory last = true := by
  by_cases hsubpath : subpath = Exports.rootSubpath
  · have hroot : r.legacy kind subpath mode ≠ .notFound reason := by
      rw [legacy, if_pos hsubpath]
      exact fun hanswer => h (foundOr_eq_notFound_iff.1 hanswer).2
    exact iff_of_false hroot fun hanswer => hanswer.2.2.1 hsubpath
  · cases hpath : Path.normalize? subpath with
    | none =>
        rw [legacy_of_escape hsubpath hpath]
        simp [Ne.symm h]
    | some path =>
        rw [legacy_eq_firstFound hsubpath hpath, firstFound_eq_notFound_iff, List.forall_mem_map,
          List.getLast?_map]
        constructor
        · rintro ⟨hnone, hlast⟩
          cases hplace : (r.places mode path).getLast? with
          | none =>
              rw [hplace] at hlast
              exact absurd (Resolution.notFound.inj hlast).symm h
          | some last =>
              rw [hplace] at hlast
              obtain ⟨rfl, rfl, -, hdirectory⟩ := (atPath_eq_notFound_iff h).1 hlast
              exact ⟨rfl, rfl, hsubpath, path, last, rfl, hnone, hplace, hdirectory⟩
        · rintro ⟨rfl, rfl, -, path', last, hpath', hnone, hplace, hdirectory⟩
          obtain rfl := Option.some.inj hpath'
          have hmem : last ∈ r.places mode path := List.mem_of_getLast? hplace
          have hlast : r.atPath .node16Esm last mode = .notFound .directoryImport :=
            (atPath_eq_notFound_iff h).2 ⟨rfl, rfl, hnone last hmem, hdirectory⟩
          refine ⟨hnone, ?_⟩
          rw [hplace]
          exact hlast

/-! ## The targets of `exports` -/

theorem firstDeclared_eq_none_iff {declaration : String → Option String} {targets : List String} :
    r.firstDeclared declaration targets = none ↔
      ∀ target ∈ targets, declaration target = none := by
  rw [← Option.isNone_iff_eq_none, ← Option.not_isSome, isSome_firstDeclared]
  simp

/-- The first target, where there is one, has no normal form. -/
theorem head?_bind_normalize?_eq_none_iff {targets : List String} (hne : targets ≠ []) :
    targets.head?.bind Path.normalize? = none ↔
      ∃ first rest, targets = first :: rest ∧ Path.normalize? first = none := by
  cases targets with
  | nil => exact absurd rfl hne
  | cons first rest => simp

/-- What is loaded for the first target decides, unless that target escapes. -/
theorem firstTarget_eq_notFound_iff {load : String → Resolution}
    (hload : ∀ path, load path ≠ .notFound reason) {targets : List String} (hne : targets ≠ []) :
    (match targets.head?.bind Path.normalize? with
      | none => Resolution.notFound .invalidTarget
      | some path => load path) = .notFound reason ↔
      reason = .invalidTarget ∧
        ∃ first rest, targets = first :: rest ∧ Path.normalize? first = none := by
  rw [← head?_bind_normalize?_eq_none_iff hne]
  cases targets.head?.bind Path.normalize? with
  | none => simp [eq_comm]
  | some path => simp [hload path]

theorem nodeTargets_runtime_eq_notFound_iff (h : reason ≠ .fileNotFound) {targets : List String}
    (hne : targets ≠ []) :
    r.nodeTargets targets subpath .runtime = .notFound reason ↔
      reason = .invalidTarget ∧
        ∃ first rest, targets = first :: rest ∧ Path.normalize? first = none := by
  refine firstTarget_eq_notFound_iff (fun path => ?_) hne
  split
  · simp [found]
  · simp [Ne.symm h]

theorem bundlerTargets_runtime_eq_notFound_iff (h : reason ≠ .fileNotFound)
    {targets : List String} (hne : targets ≠ []) :
    r.bundlerTargets targets .runtime = .notFound reason ↔
      reason = .invalidTarget ∧
        ∃ first rest, targets = first :: rest ∧ Path.normalize? first = none :=
  firstTarget_eq_notFound_iff (fun _ hload => h (foundOr_eq_notFound_iff.1 hload).2) hne

theorem nodeTargets_types_eq_notFound_iff {targets : List String} :
    r.nodeTargets targets subpath .types = .notFound reason ↔
      reason = .notADeclaration ∧ (∀ target ∈ targets, r.namedDeclaration target = none) ∧
        r.rootTypes subpath = none := by
  rw [← firstDeclared_eq_none_iff (r := r)]
  simp only [nodeTargets]
  cases hdeclared : r.firstDeclared r.namedDeclaration targets with
  | none => simp [foundOr_eq_notFound_iff, and_comm]
  | some answer =>
      have hfound := isFound_of_firstDeclared hdeclared
      have hne : answer ≠ .notFound reason := by
        rintro rfl
        exact absurd hfound (by simp)
      simp [hne]

theorem bundlerTargets_types_eq_notFound_iff {targets : List String} :
    r.bundlerTargets targets .types = .notFound reason ↔
      reason = .notADeclaration ∧ ∀ target ∈ targets, r.targetDeclaration target = none := by
  rw [← firstDeclared_eq_none_iff (r := r)]
  simp only [bundlerTargets]
  cases hdeclared : r.firstDeclared r.targetDeclaration targets with
  | none => simp [eq_comm]
  | some answer =>
      have hfound := isFound_of_firstDeclared hdeclared
      have hne : answer ≠ .notFound reason := by
        rintro rfl
        exact absurd hfound (by simp)
      simp [hne]

/-! ## Subpaths -/

theorem targets_ne_nil {exports : Exports} {targets : List String}
    (h : exports.lookup subpath active = .candidates targets) : targets ≠ [] := by
  obtain ⟨-, -, -, hne⟩ := Exports.lookup_eq_candidates_iff.1 h
  exact hne

theorem nodeExports_eq_notFound_iff (h : reason ≠ .fileNotFound)
    (hnode : kind.enforcesFormat = true) {exports : Exports} :
    r.nodeExports exports subpath mode active = .notFound reason ↔
      r.FailsOn kind subpath mode (exports.lookup subpath active) reason := by
  have hbundler : kind ≠ .bundler := by
    rintro rfl
    exact absurd hnode (by decide)
  have hdeclaration : r.declarationFor kind = r.namedDeclaration :=
    funext fun _ => if_neg hbundler
  unfold nodeExports
  cases hlookup : exports.lookup subpath active with
  | candidates targets =>
      cases mode with
      | runtime =>
          rw [nodeTargets_runtime_eq_notFound_iff h (targets_ne_nil hlookup)]
          cases reason <;> simp [FailsOn]
      | types =>
          rw [nodeTargets_types_eq_notFound_iff, ← hdeclaration]
          cases reason <;> simp [FailsOn, hbundler]
  | notExported => cases reason <;> simp [FailsOn, hnode]
  | noActiveCondition => cases reason <;> simp [FailsOn, hnode]
  | invalidTarget => cases reason <;> simp [FailsOn, hnode]

/-- A bundler that has no targets turns to the older fields, and those give it no other reason. -/
theorem bundlerExports_eq_notFound_iff (h : reason ≠ .fileNotFound) {exports : Exports} :
    r.bundlerExports exports subpath mode active = .notFound reason ↔
      r.FailsOn .bundler subpath mode (exports.lookup subpath active) reason := by
  have hnode : ¬ ResolutionKind.bundler.enforcesFormat = true := by decide
  have hdeclaration : r.declarationFor .bundler = r.targetDeclaration :=
    funext fun _ => if_pos rfl
  have hlegacy : r.legacy .bundler subpath mode ≠ .notFound reason := fun hanswer =>
    absurd ((legacy_eq_notFound_iff h).1 hanswer).1 (by decide)
  unfold bundlerExports
  cases hlookup : exports.lookup subpath active with
  | candidates targets =>
      cases mode with
      | runtime =>
          rw [bundlerTargets_runtime_eq_notFound_iff h (targets_ne_nil hlookup)]
          cases reason <;> simp [FailsOn]
      | types =>
          rw [bundlerTargets_types_eq_notFound_iff, ← hdeclaration]
          cases reason <;> simp [FailsOn]
  | notExported => cases reason <;> simp [FailsOn, hnode, hlegacy]
  | noActiveCondition => cases reason <;> simp [FailsOn, hnode, hlegacy]
  | invalidTarget => cases reason <;> simp [FailsOn, hnode, hlegacy]

/-- Where a subpath is left to `exports`, it fails as the outcome of the lookup says. -/
theorem failsFor_iff_of_exports {exports : Exports} (hexports : r.manifest.exports = some exports)
    (hkind : kind ≠ .node10) :
    r.FailsFor kind subpath mode active reason ↔
      r.FailsOn kind subpath mode (exports.lookup subpath active) reason := by
  cases reason <;> simp [FailsFor, FailsOn, hexports, hkind]

/-- **The reasons other than `fileNotFound` are given just when they are due.** -/
theorem atSubpath_eq_notFound_iff (h : reason ≠ .fileNotFound) :
    r.atSubpath kind subpath mode active = .notFound reason ↔
      r.FailsFor kind subpath mode active reason := by
  cases hexports : r.manifest.exports with
  | none =>
      rw [atSubpath_of_exports_eq_none hexports, legacy_eq_notFound_iff h]
      cases reason <;> simp [FailsFor, hexports]
  | some exports =>
      cases kind with
      | node10 =>
          have hlegacy : r.legacy .node10 subpath mode ≠ .notFound reason := fun hanswer =>
            absurd ((legacy_eq_notFound_iff h).1 hanswer).1 (by decide)
          refine iff_of_false hlegacy ?_
          cases reason <;> simp [FailsFor]
      | node16Cjs =>
          rw [failsFor_iff_of_exports hexports (by decide), ← nodeExports_eq_notFound_iff h rfl]
          simp only [atSubpath, hexports]
      | node16Esm =>
          rw [failsFor_iff_of_exports hexports (by decide), ← nodeExports_eq_notFound_iff h rfl]
          simp only [atSubpath, hexports]
      | bundler =>
          rw [failsFor_iff_of_exports hexports (by decide), ← bundlerExports_eq_notFound_iff h]
          simp only [atSubpath, hexports]

/-- A subpath of the package is never in another package. -/
theorem atSubpath_ne_packageNotFound :
    r.atSubpath kind subpath mode active ≠ .notFound .packageNotFound := by
  intro hanswer
  obtain ⟨-, -, -, ⟨⟩⟩ := (atSubpath_eq_notFound_iff (by decide)).1 hanswer

theorem not_failsFor_fileNotFound : ¬ r.FailsFor kind subpath mode active .fileNotFound := by
  rintro ⟨-, -, -, ⟨⟩⟩

/-- Every failure that is not due to another reason is `fileNotFound`. -/
theorem atSubpath_eq_fileNotFound_iff :
    r.atSubpath kind subpath mode active = .notFound .fileNotFound ↔
      (r.atSubpath kind subpath mode active).isFound = false ∧
        ∀ reason, ¬ r.FailsFor kind subpath mode active reason := by
  constructor
  · intro hanswer
    refine ⟨by rw [hanswer]; rfl, fun reason hfails => ?_⟩
    have hreason : reason ≠ .fileNotFound := by
      rintro rfl
      exact not_failsFor_fileNotFound hfails
    have hother := (atSubpath_eq_notFound_iff hreason).2 hfails
    exact hreason (Resolution.notFound.inj (hother.symm.trans hanswer))
  · rintro ⟨hmissing, hnone⟩
    cases hanswer : r.atSubpath kind subpath mode active with
    | found file =>
        rw [hanswer] at hmissing
        exact absurd hmissing (by simp [Resolution.isFound, Resolution.file?])
    | notFound reason =>
        by_cases hreason : reason = .fileNotFound
        · rw [hreason]
        · exact absurd ((atSubpath_eq_notFound_iff hreason).1 hanswer) (hnone reason)

theorem enforcesFormat_iff :
    kind.enforcesFormat = true ↔ kind = .node16Cjs ∨ kind = .node16Esm := by
  cases kind <;> simp [ResolutionKind.enforcesFormat]

/-- **A reason says what is the case.** For a subpath of the package, `packageNotFound` is never
    the reason. `subpathNotExported` and `noActiveCondition` are given where Node.js looks the
    subpath up in `exports` with that outcome, and so is `invalidTarget`, but also where the first
    target for code escapes the package. `notADeclaration` says that the targets in `exports` lead
    to no declarations, and `directoryImport` that `node16-esm` has no `exports` to go by and came
    to a directory last. Every other failure is `fileNotFound`. -/
theorem enter_reasons_hold (tree : FileTree) (manifest : Manifest) (conditions : List String)
    (kind : ResolutionKind) (mode : ResolutionMode) (subpath : String) :
    let r := ofPackage tree manifest conditions
    let active := r.conditions kind mode
    let answer := r.enter kind subpath mode
    answer ≠ .notFound .packageNotFound ∧
    (answer = .notFound .subpathNotExported ↔
      (kind = .node16Cjs ∨ kind = .node16Esm) ∧
        ∃ exports, manifest.exports = some exports ∧
          exports.lookup subpath active = .notExported) ∧
    (answer = .notFound .noActiveCondition ↔
      (kind = .node16Cjs ∨ kind = .node16Esm) ∧
        ∃ exports, manifest.exports = some exports ∧
          exports.lookup subpath active = .noActiveCondition) ∧
    (answer = .notFound .invalidTarget ↔
      ∃ exports, manifest.exports = some exports ∧
        ((kind = .node16Cjs ∨ kind = .node16Esm) ∧
            exports.lookup subpath active = .invalidTarget ∨
          kind ≠ .node10 ∧ mode = .runtime ∧
            ∃ first rest, exports.lookup subpath active = .candidates (first :: rest) ∧
              Path.normalize? first = none)) ∧
    (answer = .notFound .notADeclaration ↔
      mode = .types ∧ kind ≠ .node10 ∧
        (∃ exports targets, manifest.exports = some exports ∧
          exports.lookup subpath active = .candidates targets ∧
          ∀ target ∈ targets, r.declarationFor kind target = none) ∧
        (kind ≠ .bundler → r.rootTypes subpath = none)) ∧
    (answer = .notFound .directoryImport ↔
      kind = .node16Esm ∧ manifest.exports = none ∧ subpath ≠ Exports.rootSubpath ∧
        ∃ path last, Path.normalize? subpath = some path ∧
          (∀ place ∈ r.places mode path, (r.exactly place mode).isFound = false) ∧
          (r.places mode path).getLast? = some last ∧ tree.isDirectory last = true) ∧
    (answer = .notFound .fileNotFound ↔
      answer.isFound = false ∧ ∀ reason, ¬ r.FailsFor kind subpath mode active reason) := by
  intro r active answer
  have hdue : ∀ {reason : NotFoundReason}, reason ≠ .fileNotFound →
      (answer = .notFound reason ↔ r.FailsFor kind subpath mode active reason) :=
    atSubpath_eq_notFound_iff
  have hnode10 : kind.enforcesFormat = true → kind ≠ .node10 := by
    rintro hnode rfl
    exact absurd hnode (by decide)
  -- An algorithm that enforces formats is none that passes over `exports`.
  have hnode : ∀ outcome : Exports.Lookup,
      (∃ exports, manifest.exports = some exports ∧ kind ≠ .node10 ∧
        kind.enforcesFormat = true ∧ exports.lookup subpath active = outcome) ↔
      kind.enforcesFormat = true ∧
        ∃ exports, manifest.exports = some exports ∧ exports.lookup subpath active = outcome := by
    intro outcome
    constructor
    · rintro ⟨exports, hexports, -, hnode, hlookup⟩
      exact ⟨hnode, exports, hexports, hlookup⟩
    · rintro ⟨hnode, exports, hexports, hlookup⟩
      exact ⟨exports, hexports, hnode10 hnode, hnode, hlookup⟩
  refine ⟨atSubpath_ne_packageNotFound, ?notExported, ?inactive, ?invalid, ?undeclared,
    hdue (by decide), atSubpath_eq_fileNotFound_iff⟩
  case notExported => rw [hdue (by decide), ← enforcesFormat_iff, ← hnode .notExported]; rfl
  case inactive => rw [hdue (by decide), ← enforcesFormat_iff, ← hnode .noActiveCondition]; rfl
  case invalid =>
    rw [hdue (by decide), ← enforcesFormat_iff]
    constructor
    · rintro ⟨exports, hexports, hkind, hlookup | hescape⟩
      · exact ⟨exports, hexports, Or.inl hlookup⟩
      · exact ⟨exports, hexports, Or.inr ⟨hkind, hescape⟩⟩
    · rintro ⟨exports, hexports, hlookup | ⟨hkind, hescape⟩⟩
      · exact ⟨exports, hexports, hnode10 hlookup.1, Or.inl hlookup⟩
      · exact ⟨exports, hexports, hkind, Or.inr hescape⟩
  case undeclared =>
    rw [hdue (by decide)]
    constructor
    · rintro ⟨exports, hexports, hkind, hmode, ⟨targets, hlookup, hnone⟩, hroot⟩
      exact ⟨hmode, hkind, ⟨exports, targets, hexports, hlookup, hnone⟩, hroot⟩
    · rintro ⟨hmode, hkind, ⟨exports, targets, hexports, hlookup, hnone⟩, hroot⟩
      exact ⟨exports, hexports, hkind, hmode, ⟨targets, hlookup, hnone⟩, hroot⟩

-- A directory stands for its index, but not for an ES module.
example :
    let manifest : Manifest := ⟨none, none, none, none, none, none, none, none⟩
    let r := ofPackage (FileTree.empty.insert "lib/index.js" []) manifest []
    r.enter .node16Esm "./lib" .runtime = .notFound .directoryImport ∧
      r.enter .node16Cjs "./lib" .runtime = .found ⟨"lib/index.js", .cjs, false, false⟩ := by
  decide +kernel

end Resolver

end TypingsAudit
