import TypingsAudit.Proofs.Analysis.ProblemOrder
import TypingsAudit.Proofs.Exports.ConditionNames
import TypingsAudit.Proofs.Resolution.FieldReads

set_option autoImplicit false

/-! # Selecting algorithms

An analysis can be asked for some of the algorithms only. That is a filter: no cell depends on
another one, so what is left of the cells, of their answers and of their problems is what the full
analysis has of them, in the same order. Only the problem that is about the package as a whole, that
some cells have code and no types, is not one of a cell.

The options are lists, and nothing depends on their order or on repetitions in them: algorithms are
put in canonical order, and of the conditions only the set is looked at, without the one that is
always active. -/

namespace TypingsAudit

/-! ## Algorithms and cells -/

namespace ResolutionKind

theorem select_of_ne_nil {kinds : List ResolutionKind} (h : kinds ≠ []) :
    select kinds = all.filter (· ∈ kinds) :=
  if_neg (by simpa using h)

theorem mem_select {kinds : List ResolutionKind} (h : kinds ≠ []) {kind : ResolutionKind} :
    kind ∈ select kinds ↔ kind ∈ kinds := by
  have hall : kind ∈ all := by cases kind <;> decide
  rw [select_of_ne_nil h, List.mem_filter, decide_eq_true_eq, and_iff_right hall]

/-- To select fewer algorithms is to drop some of the selected ones. -/
theorem select_eq_filter {kinds kinds' : List ResolutionKind} (hsome : kinds ≠ [])
    (hsome' : kinds' ≠ []) (h : ∀ kind ∈ kinds', kind ∈ kinds) :
    select kinds' = (select kinds).filter (· ∈ kinds') := by
  rw [select_of_ne_nil hsome, select_of_ne_nil hsome', List.filter_filter]
  refine List.filter_congr fun kind _ => ?_
  rw [← Bool.decide_and, decide_eq_decide]
  exact ⟨fun hkind => ⟨hkind, h kind hkind⟩, And.left⟩

end ResolutionKind

/-- The entry point with only those algorithms that are accepted. -/
def EntryPoint.restrict (accepts : ResolutionKind → Bool) (entry : EntryPoint) : EntryPoint :=
  { entry with kinds := entry.kinds.filter accepts }

theorem EntryPoint.ofManifest_filter (manifest : Manifest) (kinds : List ResolutionKind)
    (accepts : ResolutionKind → Bool) :
    ofManifest manifest (kinds.filter accepts)
      = (ofManifest manifest kinds).map (restrict accepts) := by
  rw [ofManifest, ofManifest, List.map_map]
  refine List.map_congr_left fun subpath _ => ?_
  simp only [Function.comp, ofSubpath, restrict]
  split
  · rfl
  · rfl

namespace Analysis

theorem cells_restrict (accepts : ResolutionKind → Bool) (entryPoints : List EntryPoint) :
    cells (entryPoints.map (EntryPoint.restrict accepts))
      = (cells entryPoints).filter (accepts ·.kind) := by
  rw [cells, cells, List.filter_flatMap, List.flatMap_map]
  refine List.flatMap_congr fun entry _ => ?_
  rw [List.filter_map]
  rfl

end Analysis

/-! ## Conditions -/

namespace Resolver

/-- Under the same conditions a subpath has the same answer. -/
theorem atSubpath_congr {active active' : ConditionSet} (h : ∀ c, active.AgreeOn active' c)
    (r : Resolver) (kind : ResolutionKind) (subpath : String) (mode : ResolutionMode) :
    r.atSubpath kind subpath mode active = r.atSubpath kind subpath mode active' := by
  have hlookup : ∀ exports : Exports,
      exports.lookup subpath active = exports.lookup subpath active' := fun exports =>
    Exports.lookup_congr subpath fun c _ => h c
  unfold atSubpath nodeExports bundlerExports
  simp only [hlookup]

/-- The condition that is always active need not be named. -/
theorem agreeOn_conditions {r r' : Resolver}
    (h : ∀ c, c ≠ ConditionSet.always → (c ∈ r.extraConditions ↔ c ∈ r'.extraConditions))
    (kind : ResolutionKind) (mode : ResolutionMode) (c : String) :
    (r.conditions kind mode).AgreeOn (r'.conditions kind mode) c := by
  rw [ConditionSet.AgreeOn, Bool.eq_iff_iff, conditions, conditions,
    ConditionSet.isActive_ofNames, ConditionSet.isActive_ofNames]
  by_cases hc : c = ConditionSet.always
  · simp [hc]
  · simp only [List.mem_append, h c hc]

/-- Nothing of an answer depends on the order of the conditions. -/
theorem enter_congr (tree : FileTree) (manifest : Manifest) {conditions conditions' : List String}
    (h : ∀ c, c ≠ ConditionSet.always → (c ∈ conditions' ↔ c ∈ conditions))
    (kind : ResolutionKind) (subpath : String) (mode : ResolutionMode) :
    (ofPackage tree manifest conditions').enter kind subpath mode
      = (ofPackage tree manifest conditions).enter kind subpath mode := by
  rw [ofPackage_eq_withManifest tree rfl conditions conditions']
  have hread : manifest.AgreesFor kind mode (ofPackage tree manifest conditions).manifest :=
    ⟨rfl, fun _ => rfl, fun _ => rfl, fun _ _ => rfl⟩
  exact (atSubpath_withManifest rfl hread subpath _).trans
    (atSubpath_congr (agreeOn_conditions h kind mode) ..)

end Resolver

namespace Analysis

theorem resolve_congr (tree : FileTree) (manifest : Manifest)
    {conditions conditions' : List String}
    (h : ∀ c, c ≠ ConditionSet.always → (c ∈ conditions' ↔ c ∈ conditions)) :
    resolve (Resolver.ofPackage tree manifest conditions')
      = resolve (Resolver.ofPackage tree manifest conditions) := by
  funext cell
  rw [resolve, resolve, Resolver.enter_congr tree manifest h, Resolver.enter_congr tree manifest h]

/-! ## Problems -/

variable {tree : FileTree} {untyped : CellResult → Problem}

/-- A problem has the algorithm of its cell, so to accept some algorithms is to accept some cells. -/
theorem filter_problems (accepts : ResolutionKind → Bool) (results : List CellResult) :
    (results.flatMap (·.problems tree)).filter (accepts ·.cell.kind)
      = (results.filter (accepts ·.cell.kind)).flatMap (·.problems tree) :=
  filter_flatMap_problems tree (accepts ·.kind) results

theorem filter_problems_untyped (tree : FileTree) (results : List CellResult) :
    (results.flatMap (·.problems tree)).filter (·.kind ≠ .untypedResolution)
      = results.flatMap (·.problems tree) := by
  refine List.filter_eq_self.2 fun problem hproblem => ?_
  obtain ⟨result, -, hproblem⟩ := List.mem_flatMap.1 hproblem
  exact decide_eq_true (kind_ne_untyped_of_mem_problems hproblem)

/-- Without the problem about the whole package the list has the problems of the cells. -/
theorem filter_listing_untyped (huntyped : ∀ result, (untyped result).kind = .untypedResolution)
    (results : List CellResult) :
    (listing tree untyped results).filter (·.kind ≠ .untypedResolution)
      = results.flatMap (·.problems tree) := by
  induction results with
  | nil => rfl
  | cons result rest ih =>
      have hfirst : (result.problems tree).filter (·.kind ≠ .untypedResolution)
          = result.problems tree := by
        simpa using filter_problems_untyped tree [result]
      rw [listing]
      split
      · rw [List.filter_append, hfirst, List.filter_cons_of_neg (by simp [huntyped]),
          filter_problems_untyped, List.flatMap_cons]
      · rw [List.filter_append, hfirst, ih, List.flatMap_cons]

/-- The problems of a package with types, without the one about the whole package. -/
theorem filter_ofPackage_problems (tree : FileTree) (manifest : Manifest)
    (options : AnalysisOptions) (h : (ofPackage tree manifest options).containsTypes = true) :
    (ofPackage tree manifest options).problems.filter (·.kind ≠ .untypedResolution)
      = (ofPackage tree manifest options).resolutions.flatMap (·.problems tree) := by
  rw [ofPackage_problems_eq, if_pos h]
  exact filter_listing_untyped (fun _ => rfl) _

/-! ## Two selections -/

section Selections

variable (tree : FileTree) (manifest : Manifest) {options options' : AnalysisOptions}
  (hselect : ResolutionKind.select options'.kinds
    = (ResolutionKind.select options.kinds).filter (· ∈ options'.kinds))

include hselect in
theorem entryPoints_eq_restrict :
    (ofPackage tree manifest options').entryPoints
      = (ofPackage tree manifest options).entryPoints.map
          (EntryPoint.restrict (· ∈ options'.kinds)) := by
  show EntryPoint.ofManifest manifest (ResolutionKind.select options'.kinds) = _
  rw [hselect, EntryPoint.ofManifest_filter]
  rfl

variable (hconditions : ∀ c, c ≠ ConditionSet.always →
  (c ∈ options'.conditions ↔ c ∈ options.conditions))

include hselect hconditions in
/-- The two runs share the answer to each cell, so to filter the cells is to filter the results. -/
theorem resolutions_eq_filter :
    (ofPackage tree manifest options').resolutions
      = (ofPackage tree manifest options).resolutions.filter (·.cell.kind ∈ options'.kinds) := by
  show (cells (ofPackage tree manifest options').entryPoints).map (resolve _)
    = ((cells (ofPackage tree manifest options).entryPoints).map (resolve _)).filter _
  rw [resolve_congr tree manifest hconditions, entryPoints_eq_restrict tree manifest hselect,
    cells_restrict, List.filter_map]
  rfl

include hselect hconditions in
/-- A typed cell of the smaller selection is one of the larger. -/
theorem containsTypes_of_selection (h : (ofPackage tree manifest options').containsTypes = true) :
    (ofPackage tree manifest options).containsTypes = true := by
  obtain ⟨result, hresult, hfound⟩ := List.any_eq_true.1 h
  have hmem : result ∈ (ofPackage tree manifest options').resolutions := hresult
  rw [resolutions_eq_filter tree manifest hselect hconditions] at hmem
  exact List.any_eq_true.2 ⟨result, (List.mem_filter.1 hmem).1, hfound⟩

end Selections

/-- **Selecting algorithms is filtering.** With some of the algorithms and the same conditions, the
    entry points are the same, and the answers and the problems of the cells are those of the full
    analysis, in its order. With all of them the two analyses are equal, however the options list
    them. -/
theorem ofPackage_selection_filters (tree : FileTree) (manifest : Manifest)
    (options options' : AnalysisOptions) (hsome' : options'.kinds ≠ [])
    (hkinds : ∀ kind ∈ options'.kinds, kind ∈ options.kinds)
    (hconditions : ∀ c, c ≠ ConditionSet.always →
      (c ∈ options'.conditions ↔ c ∈ options.conditions)) :
    let full := ofPackage tree manifest options
    let part := ofPackage tree manifest options'
    part.entryPoints.map (fun entry => (entry.subpath, entry.isPattern))
      = full.entryPoints.map (fun entry => (entry.subpath, entry.isPattern)) ∧
    part.resolutions = full.resolutions.filter (·.cell.kind ∈ options'.kinds) ∧
    (part.containsTypes = true → full.containsTypes = true ∧
      part.problems.filter (·.kind ≠ .untypedResolution)
        = (full.problems.filter (·.kind ≠ .untypedResolution)).filter
            (·.cell.kind ∈ options'.kinds)) ∧
    (part.containsTypes = false → part.problems = []) ∧
    ((∀ kind ∈ options.kinds, kind ∈ options'.kinds) → part = full) := by
  intro full part
  have hsome : options.kinds ≠ [] := by
    obtain ⟨kind, hkind⟩ := List.exists_mem_of_ne_nil _ hsome'
    exact List.ne_nil_of_mem (hkinds kind hkind)
  have hselect := ResolutionKind.select_eq_filter hsome hsome' hkinds
  have hresults := resolutions_eq_filter tree manifest hselect hconditions
  refine ⟨?_, hresults, fun htyped => ?_, fun huntyped => ?_, fun hall => ?_⟩
  · rw [entryPoints_eq_restrict tree manifest hselect, List.map_map]
    rfl
  · have hfull := containsTypes_of_selection tree manifest hselect hconditions htyped
    refine ⟨hfull, ?_⟩
    rw [filter_ofPackage_problems tree manifest options' htyped,
      filter_ofPackage_problems tree manifest options hfull,
      filter_problems (· ∈ options'.kinds)]
    exact congrArg (List.flatMap _) hresults
  · rw [ofPackage_problems_eq]
    exact if_neg (by rw [huntyped]; exact Bool.false_ne_true)
  · have hsame : ResolutionKind.select options'.kinds = ResolutionKind.select options.kinds := by
      rw [hselect, List.filter_eq_self]
      exact fun kind hkind => decide_eq_true (hall kind ((ResolutionKind.mem_select hsome).1 hkind))
    show ofPackage tree manifest options' = ofPackage tree manifest options
    rw [ofPackage, ofPackage, hsame, resolve_congr tree manifest hconditions]

/-- One of two algorithms, with a condition named twice instead of once. -/
theorem ofPackage_node16_filters :
    let manifest : Manifest := ⟨none, none, none, none, none, none,
      some (.subpaths
        [("./a", .conditions [("worker", .target "./a.js")]), ("./*", .target "./*.js"),
         ("./c", .conditions [("types", .target "./c.d.ts")])]), none⟩
    let tree := (FileTree.empty.insert "a.js" []).insert "c.d.ts" []
    let options : AnalysisOptions := ⟨[.bundler, .node16Cjs, .bundler], ["default", "worker"]⟩
    let options' : AnalysisOptions := ⟨[.node16Cjs], ["worker", "worker"]⟩
    let full := ofPackage tree manifest options
    let part := ofPackage tree manifest options'
    part.entryPoints.map (fun entry => (entry.subpath, entry.isPattern))
      = [("./a", false), ("./*", true), ("./c", false)] ∧
    part.resolutions = full.resolutions.filter (·.cell.kind ∈ options'.kinds) ∧
    (part.containsTypes = true ∧ full.containsTypes = true ∧
      part.problems.filter (·.kind ≠ .untypedResolution)
        = (full.problems.filter (·.kind ≠ .untypedResolution)).filter
            (·.cell.kind ∈ options'.kinds)) ∧
    ofPackage tree manifest ⟨[.node16Cjs, .bundler], ["worker"]⟩ = full := by
  intro manifest tree options options' full part
  have hconditions : ∀ c, c ≠ ConditionSet.always →
      (c ∈ ["worker", "worker"] ↔ c ∈ ["default", "worker"]) := by
    intro c hc
    simp [show c ≠ "default" from hc]
  have hconditions' : ∀ c, c ≠ ConditionSet.always →
      (c ∈ ["worker"] ↔ c ∈ ["default", "worker"]) := by
    intro c hc
    simp [show c ≠ "default" from hc]
  obtain ⟨hentries, hresults, htyped, -, -⟩ := ofPackage_selection_filters tree manifest options
    options' (by decide) (by decide) hconditions
  obtain ⟨-, -, -, -, hequal⟩ := ofPackage_selection_filters tree manifest options
    ⟨[.node16Cjs, .bundler], ["worker"]⟩ (by decide) (by decide) hconditions'
  have hpart : part.containsTypes = true := by decide +kernel
  exact ⟨hentries.trans (by decide +kernel), hresults, ⟨hpart, htyped hpart⟩, hequal (by decide)⟩

end Analysis

end TypingsAudit
