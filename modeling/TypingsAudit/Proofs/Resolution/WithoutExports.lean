import TypingsAudit.Proofs.Resolution.Growth

set_option autoImplicit false

/-! # Algorithms without `exports`

Where a package has no `exports` field, all algorithms go by the older fields and by probing. They
share that code and differ in three places: the endings of a script, the field `module`, and whether
a path has to name its file exactly. So `node16-cjs` is `node10`, a bundler looks for declarations
as `node10` does, and from `node16-esm` over `node10` to the bundler each one finds what the one before
it finds. What `node16-esm` finds at a path the others find there too, the same file; only where
`typesVersions` gives a path several places may they find another file at an earlier place. -/

namespace TypingsAudit

/-- The field `typesVersions`, if the package has one, gives the path at most one place. -/
def Manifest.MapsAtMostOnce (manifest : Manifest) (path : String) : Prop :=
  ∀ versions targets, manifest.typesVersions = some versions → versions.map? path = some targets →
    targets.length ≤ 1

/-- The second answer is the same file whenever the first one is a file. -/
def Resolution.KeepsFile (before after : Resolution) : Prop :=
  ∀ file, before = .found file → after = .found file

namespace Resolver

variable {r : Resolver} {kind : ResolutionKind} {mode : ResolutionMode}

/-- Without `exports` every subpath is left to the older fields. -/
theorem atSubpath_of_exports_eq_none (h : r.manifest.exports = none) (kind : ResolutionKind)
    (subpath : String) (mode : ResolutionMode) (active : ConditionSet) :
    r.atSubpath kind subpath mode active = r.legacy kind subpath mode := by
  unfold atSubpath
  rw [h]
  cases kind <;> rfl

/-! ## Algorithms that do as `node10` does -/

/-- The package root is the same to all of them, but that a bundler has its own way to the
    script. -/
theorem legacyRoot_eq_node10 (h : kind = .bundler → mode = .types) :
    r.legacyRoot kind mode = r.legacyRoot .node10 mode := by
  cases mode with
  | types => rfl
  | runtime =>
      cases kind with
      | node10 | node16Cjs | node16Esm => rfl
      | bundler => exact absurd (h rfl) (by decide)

theorem atPath_eq_node10 (hesm : kind ≠ .node16Esm) (h : kind = .bundler → mode = .types)
    (path : String) : r.atPath kind path mode = r.atPath .node10 path mode := by
  cases kind with
  | node10 | node16Cjs => rfl
  | node16Esm => exact absurd rfl hesm
  | bundler =>
      obtain rfl := h rfl
      rfl

theorem legacy_eq_node10 (hesm : kind ≠ .node16Esm) (h : kind = .bundler → mode = .types)
    (subpath : String) : r.legacy kind subpath mode = r.legacy .node10 subpath mode := by
  have hpath : (r.atPath kind · mode) = (r.atPath .node10 · mode) :=
    funext (atPath_eq_node10 hesm h)
  unfold legacy
  rw [legacyRoot_eq_node10 h]
  split
  · rfl
  · split
    · rfl
    · next path _ =>
        cases mode with
        | types => rw [hpath]
        | runtime => exact atPath_eq_node10 hesm h path

theorem answer_eq_node10 (hexports : r.manifest.exports = none) (hesm : kind ≠ .node16Esm)
    (h : kind = .bundler → mode = .types) (question : Question) :
    r.answer kind mode question = r.answer .node10 mode question := by
  refine answer_rel rfl (fun _ => rfl) (atPath_eq_node10 hesm h) fun subpath _ => ?_
  rw [atSubpath_of_exports_eq_none hexports, atSubpath_of_exports_eq_none hexports,
    legacy_eq_node10 hesm h]

/-! ## What is found at an exact path -/

/-- Of at most one answer the first found one is that answer. -/
theorem firstFound_map_of_length_le_one {places : List String} {f g : String → Resolution}
    (hplaces : places.length ≤ 1) (hfg : ∀ place, (f place).KeepsFile (g place)) :
    (firstFound (places.map f)).KeepsFile (firstFound (places.map g)) := by
  -- Of two answers `g` may have an earlier one that `f` has not, so a second place breaks this.
  match places with
  | [] => exact fun _ => id
  | [place] => exact hfg place
  | _ :: _ :: _ => exact absurd hplaces (by simp)

theorem length_mappedPaths_le_one {path : String} (h : r.manifest.MapsAtMostOnce path) :
    (r.mappedPaths path).length ≤ 1 := by
  unfold mappedPaths
  split
  · next targets htargets =>
      obtain ⟨versions, hversions, hmap⟩ := Option.bind_eq_some_iff.1 htargets
      exact Nat.le_trans (List.length_filterMap_le _ _) (h versions targets hversions hmap)
  · exact Nat.le_refl 1

/-- What a subpath names exactly, every algorithm finds for it, unless an earlier place of several
    is in the way. -/
theorem legacy_of_exact {subpath : String} (hroot : subpath ≠ Exports.rootSubpath)
    (hone : mode = .types → ∀ path, Path.normalize? subpath = some path →
      r.manifest.MapsAtMostOnce path) (kind : ResolutionKind) :
    Resolution.KeepsFile (r.legacy .node16Esm subpath mode) (r.legacy kind subpath mode) := by
  intro file h
  unfold legacy at h ⊢
  rw [if_neg hroot] at h ⊢
  cases hpath : Path.normalize? subpath with
  | none => exact absurd h (by simp [hpath])
  | some path =>
      rw [hpath] at h
      cases mode with
      | runtime =>
          have hexact : r.exactly path .runtime = .found file := h
          exact atPath_of_exactly hexact kind
      | types =>
          have hplaces := length_mappedPaths_le_one (hone rfl path hpath)
          exact firstFound_map_of_length_le_one hplaces
            (fun place file hplace => atPath_of_exactly hplace kind) file h

/-- What a relative specifier names exactly, every algorithm finds. -/
theorem answer_of_exact_relative {question : Question} (hrelative : question.IsRelative)
    (kind : ResolutionKind) :
    Resolution.KeepsFile (r.answer .node16Esm mode question) (r.answer kind mode question) := by
  have hpath : ∀ path,
      Resolution.KeepsFile (r.atPath .node16Esm path mode) (r.atPath kind path mode) :=
    fun path file hexact => atPath_of_exactly hexact kind
  have hanswer := answer_rel_of_isRelative (fun _ _ => id) hpath hrelative
    (question.active r kind mode)
  rw [Question.under_active] at hanswer
  exact hanswer

/-! ## The four algorithms -/

/-- **Without `exports` the algorithms refine one another.** `node16-cjs` answers as `node10` does,
    and a bundler does for declarations. `node16-esm` answers as `node10` for the package root. For
    any other subpath it has no file where `node10` has none, and `node10` has the same file at
    runtime and where `typesVersions` does not give the path several places. For a relative specifier
    it is the same file in any case. At runtime a bundler has a file where `node10` has one. -/
theorem kinds_refine_without_exports (tree : FileTree) (manifest : Manifest)
    (conditions : List String) (hexports : manifest.exports = none) :
    let r := ofPackage tree manifest conditions
    (∀ mode question, r.answer .node16Cjs mode question = r.answer .node10 mode question) ∧
    (∀ question, r.answer .bundler .types question = r.answer .node10 .types question) ∧
    (∀ mode question, question.subpath? r = some Exports.rootSubpath →
      r.answer .node16Esm mode question = r.answer .node10 mode question) ∧
    (∀ mode question subpath file, question.subpath? r = some subpath →
      subpath ≠ Exports.rootSubpath → r.answer .node16Esm mode question = .found file →
      (r.answer .node10 mode question).isFound = true ∧
      ((mode = .types → ∀ path, Path.normalize? subpath = some path →
          manifest.MapsAtMostOnce path) →
        r.answer .node10 mode question = .found file)) ∧
    (∀ mode question file, question.IsRelative → r.answer .node16Esm mode question = .found file →
      r.answer .node10 mode question = .found file) ∧
    (∀ question, (r.answer .node10 .runtime question).isFound = true →
      (r.answer .bundler .runtime question).isFound = true) := by
  intro r
  have hnone : r.manifest.exports = none := hexports
  have hlegacy : ∀ kind subpath mode active,
      r.atSubpath kind subpath mode active = r.legacy kind subpath mode :=
    atSubpath_of_exports_eq_none hnone
  refine ⟨fun mode question => ?cjs, fun question => ?bundlerTypes,
    fun mode question hroot => ?root,
    fun mode question subpath file hsubpath hroot hfile => ?subpath,
    fun mode question file hrelative hfile => ?relative, fun question => ?bundlerRuntime⟩
  case cjs => exact answer_eq_node10 hnone (by decide) (by nofun) question
  case bundlerTypes => exact answer_eq_node10 hnone (by decide) (fun _ => rfl) question
  case root =>
    rw [answer_of_subpath? hroot, answer_of_subpath? hroot, hlegacy, hlegacy]
    exact legacyRoot_eq_node10 (by nofun)
  case subpath =>
    rw [answer_of_subpath? hsubpath, hlegacy] at hfile ⊢
    have hreach : ResolutionKind.reach .node16Esm ≤ ResolutionKind.reach .node10 := by decide
    refine ⟨(Grows.refl r).legacy hreach subpath (by rw [hfile]; rfl), fun hone => ?_⟩
    exact legacy_of_exact hroot hone .node10 file hfile
  case relative => exact answer_of_exact_relative hrelative .node10 file hfile
  case bundlerRuntime =>
    have hreach : ResolutionKind.reach .node10 ≤ ResolutionKind.reach .bundler := by decide
    refine answer_rel rfl (fun _ => id) ((Grows.refl r).atPath hreach) fun subpath _ => ?_
    rw [hlegacy, hlegacy]
    exact (Grows.refl r).legacy hreach subpath

/-- A package that keeps its declarations in a directory of their own. -/
theorem kinds_refine_for_mapped_declarations :
    let versions : TypesVersions := ⟨"*", [("*", ["types/*"])]⟩
    let manifest : Manifest := ⟨some "pkg", none, none, none, none, none, none, some versions⟩
    let tree := ((FileTree.empty.insert "a.js" []).insert "types/a.d.ts" []).insert "index.js" []
    let r := ofPackage tree manifest []
    let declared : Resolved := ⟨"types/a.d.ts", .cjs, true, false⟩
    let script : Resolved := ⟨"a.js", .cjs, false, false⟩
    let entry := Question.entry "./a.js"
    let relative := Question.specifier "./a.js" (some "index.js") (ConditionSet.ofNames [])
    let bare := Question.specifier "pkg" none (ConditionSet.ofNames [])
    manifest.exports = none ∧
    (bare.subpath? r = some "." ∧
      r.answer .node16Esm .runtime bare = r.answer .node10 .runtime bare) ∧
    (entry.subpath? r = some "./a.js" ∧ manifest.MapsAtMostOnce "a.js" ∧
      r.answer .node16Esm .types entry = .found declared ∧
      r.answer .node10 .types entry = .found declared) ∧
    (relative.IsRelative ∧ r.answer .node16Esm .runtime relative = .found script ∧
      r.answer .node10 .runtime relative = .found script) ∧
    ((r.answer .node10 .runtime bare).isFound = true ∧
      (r.answer .bundler .runtime bare).isFound = true) := by
  intro versions manifest tree r declared script entry relative bare
  obtain ⟨-, -, hroot, hsubpath, hrelative, hbundler⟩ :=
    kinds_refine_without_exports tree manifest [] rfl
  have hbare : bare.subpath? r = some "." := by decide +kernel
  have hone : manifest.MapsAtMostOnce "a.js" := by
    intro versions' targets hversions hmap
    obtain rfl : versions = versions' := Option.some.inj hversions
    have htargets : versions.map? "a.js" = some ["types/a.js"] := by decide +kernel
    obtain rfl : ["types/a.js"] = targets := Option.some.inj (htargets.symm.trans hmap)
    decide
  have hentry : r.answer .node16Esm .types entry = .found declared := by decide +kernel
  have hscript : r.answer .node16Esm .runtime relative = .found script := by decide +kernel
  have hfound : (r.answer .node10 .runtime bare).isFound = true := by decide +kernel
  have hsame := (hsubpath .types entry "./a.js" declared rfl (by decide) hentry).2
  refine ⟨rfl, ⟨hbare, hroot .runtime bare hbare⟩,
    ⟨rfl, hone, hentry, hsame fun _ path hpath => ?_⟩,
    ⟨rfl, hscript, hrelative .runtime relative script rfl hscript⟩, hfound, hbundler bare hfound⟩
  have hnormal : Path.normalize? "./a.js" = some "a.js" := by decide +kernel
  obtain rfl : "a.js" = path := Option.some.inj (hnormal.symm.trans hpath)
  exact hone

end Resolver

end TypingsAudit
