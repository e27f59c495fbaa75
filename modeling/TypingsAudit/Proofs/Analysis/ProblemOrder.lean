import TypingsAudit.Proofs.Analysis.Classification
import TypingsAudit.Proofs.Data

set_option autoImplicit false

/-! # The order of problems

The problems of a package are those of its cells, one cell after another, and one more: that some
cells have code and no types. The analysis puts this one at the end and sorts. What has to be shown
is that the sort moves nothing else, and moves it right behind the problems of its own cell.

The problems of the cells are in order already, since a subpath is an entry point once and the
algorithms of an entry point are in canonical order (`pairwise_precedes_cells`). A stable sort then
takes the last item to the place in front of everything that has to come after it
(`mergeSort_append_singleton`). -/

namespace TypingsAudit

/-! ## Entry points and cells -/

/-- What the enumeration of entry points keeps: each subpath once, and the algorithms of each in
    canonical order. -/
structure EntryPoint.Enumerated (entryPoints : List EntryPoint) : Prop where
  subpaths_nodup : (entryPoints.map (·.subpath)).Nodup
  kinds_ordered : ∀ entry ∈ entryPoints, entry.kinds.Pairwise (·.rank < ·.rank)

theorem ResolutionKind.pairwise_select (kinds : List ResolutionKind) :
    (select kinds).Pairwise (·.rank < ·.rank) := by
  have hall : all.Pairwise (·.rank < ·.rank) := by decide
  unfold select
  split
  · exact hall
  · exact hall.filter _

theorem EntryPoint.enumerated_ofManifest (manifest : Manifest) (kinds : List ResolutionKind) :
    Enumerated (ofManifest manifest (ResolutionKind.select kinds)) := by
  refine ⟨?_, fun entry hmem => ?_⟩
  · have hsub : EntryPoint.subpath ∘ ofSubpath (ResolutionKind.select kinds) = id := rfl
    rw [ofManifest, List.map_map, hsub, List.map_id]
    exact nodup_eraseDups _
  · obtain ⟨subpath, -, rfl⟩ := List.mem_map.1 hmem
    simp only [ofSubpath]
    split
    · exact List.Pairwise.nil
    · exact ResolutionKind.pairwise_select kinds

namespace Analysis

theorem mem_cells {entryPoints : List EntryPoint} {cell : Cell} :
    cell ∈ cells entryPoints ↔
      ∃ entry ∈ entryPoints, entry.subpath = cell.entryPoint ∧ cell.kind ∈ entry.kinds := by
  constructor
  · intro h
    obtain ⟨entry, hentry, h⟩ := List.mem_flatMap.1 h
    obtain ⟨kind, hkind, rfl⟩ := List.mem_map.1 h
    exact ⟨entry, hentry, rfl, hkind⟩
  · rintro ⟨entry, hentry, hsub, hkind⟩
    refine List.mem_flatMap.2 ⟨entry, hentry, List.mem_map.2 ⟨cell.kind, hkind, ?_⟩⟩
    rw [hsub]

/-- The place of a cell in the order of reports. -/
def cellPlace (entryPoints : List EntryPoint) (cell : Cell) : Nat × Nat :=
  (entryPoints.findIdx (·.subpath == cell.entryPoint), cell.kind.rank)

/-- A cell has its place strictly before that of another one. -/
def Precedes (entryPoints : List EntryPoint) (a b : Cell) : Prop :=
  (cellPlace entryPoints a).1 < (cellPlace entryPoints b).1 ∨
    (cellPlace entryPoints a).1 = (cellPlace entryPoints b).1 ∧
      (cellPlace entryPoints a).2 < (cellPlace entryPoints b).2

theorem place_eq (entryPoints : List EntryPoint) (problem : Problem) :
    place entryPoints problem = cellPlace entryPoints problem.cell := rfl

variable {entryPoints : List EntryPoint}

theorem Precedes.ne {a b : Cell} (h : Precedes entryPoints a b) : a ≠ b := by
  rintro rfl
  rcases h with h | ⟨-, h⟩
  · exact absurd h (Nat.lt_irrefl _)
  · exact absurd h (Nat.lt_irrefl _)

/-- A problem may not be reported after another one exactly when the cell of that one precedes. -/
theorem inOrder_eq_true_iff {a b : Problem} :
    inOrder entryPoints a b = true ↔ ¬ Precedes entryPoints b.cell a.cell := by
  simp only [inOrder, Precedes, ← place_eq]
  obtain ⟨entryA, rankA⟩ := place entryPoints a
  obtain ⟨entryB, rankB⟩ := place entryPoints b
  simp only [Bool.or_eq_true, Bool.and_eq_true, decide_eq_true_eq, beq_iff_eq]
  omega

theorem inOrder_trans (a b c : Problem) (hab : inOrder entryPoints a b = true)
    (hbc : inOrder entryPoints b c = true) : inOrder entryPoints a c = true := by
  simp only [inOrder_eq_true_iff, Precedes] at *
  omega

theorem inOrder_total (a b : Problem) :
    (inOrder entryPoints a b || inOrder entryPoints b a) = true := by
  simp only [Bool.or_eq_true, inOrder_eq_true_iff, Precedes]
  omega

theorem inOrder_of_precedes {a b : Problem} (h : Precedes entryPoints a.cell b.cell) :
    inOrder entryPoints a b = true := by
  simp only [inOrder_eq_true_iff, Precedes] at *
  omega

/-- An entry point with a subpath of its own is found where it stands. -/
theorem findIdx_subpath (h : (entryPoints.map (·.subpath)).Nodup) (i : Nat)
    (hi : i < entryPoints.length) :
    entryPoints.findIdx (·.subpath == entryPoints[i].subpath) = i := by
  have hi' : i < (entryPoints.map (·.subpath)).length := by simpa using hi
  have hidx := h.idxOf_getElem i hi'
  rw [List.getElem_map, List.idxOf, List.findIdx_map] at hidx
  exact hidx

/-- **The cells stand in the order of their places.** -/
theorem pairwise_precedes_cells (h : EntryPoint.Enumerated entryPoints) :
    (cells entryPoints).Pairwise (Precedes entryPoints) := by
  refine List.pairwise_flatMap.2 ⟨fun entry hentry => ?_, ?_⟩
  · -- Within an entry point the algorithms decide.
    refine List.pairwise_map.2 ((h.kinds_ordered entry hentry).imp fun hrank => ?_)
    exact Or.inr ⟨rfl, hrank⟩
  · refine List.pairwise_iff_getElem.2 fun i j hi hj hij x hx y hy => Or.inl ?_
    obtain ⟨kindX, -, rfl⟩ := List.mem_map.1 hx
    obtain ⟨kindY, -, rfl⟩ := List.mem_map.1 hy
    show entryPoints.findIdx (·.subpath == entryPoints[i].subpath)
      < entryPoints.findIdx (·.subpath == entryPoints[j].subpath)
    rwa [findIdx_subpath h.subpaths_nodup i hi, findIdx_subpath h.subpaths_nodup j hj]

/-- No cell occurs twice. -/
theorem nodup_cells (h : EntryPoint.Enumerated entryPoints) : (cells entryPoints).Nodup :=
  (pairwise_precedes_cells h).imp Precedes.ne

/-- The place of a cell names one of the entry points. -/
theorem cellPlace_lt {cell : Cell} (h : cell ∈ cells entryPoints) :
    (cellPlace entryPoints cell).1 < entryPoints.length := by
  obtain ⟨entry, hentry, hsub, -⟩ := mem_cells.1 h
  exact List.findIdx_lt_length_of_exists ⟨entry, hentry, beq_iff_eq.2 hsub⟩

/-! ## The list of problems -/

/-- The problem that cells have code and no types, as the first of them reports it. -/
def untypedAt (results : List CellResult) (first : CellResult) : Problem :=
  { kind := .untypedResolution
    cell := first.cell
    typesPath := none
    runtimePath := first.runtime.path?
    details := .untypedCells ((results.filter CellResult.isUntyped).map (·.cell)) }

/-- The problems of cells, one cell after another. What `untyped` says about the first cell that has
    code and no types stands right behind the problems of that cell, and nowhere else. -/
def listing (tree : FileTree) (untyped : CellResult → Problem) : List CellResult → List Problem
  | [] => []
  | result :: rest =>
    if result.isUntyped then
      result.problems tree ++ untyped result :: rest.flatMap (·.problems tree)
    else result.problems tree ++ listing tree untyped rest

variable {tree : FileTree} {untyped : CellResult → Problem}

theorem listing_of_typed {results : List CellResult} (h : ∀ r ∈ results, ¬ r.isUntyped) :
    listing tree untyped results = results.flatMap (·.problems tree) := by
  induction results with
  | nil => rfl
  | cons result rest ih =>
      rw [listing, if_neg (h result (List.mem_cons_self ..)), List.flatMap_cons,
        ih fun r hr => h r (List.mem_cons_of_mem _ hr)]

theorem listing_of_first (tree : FileTree) (untyped : CellResult → Problem)
    {before after : List CellResult} {first : CellResult}
    (hbefore : ∀ r ∈ before, ¬ r.isUntyped) (hfirst : first.isUntyped) :
    listing tree untyped (before ++ first :: after)
      = (before ++ [first]).flatMap (·.problems tree) ++
        untyped first :: after.flatMap (·.problems tree) := by
  induction before with
  | nil => simp [listing, hfirst]
  | cons result rest ih =>
      rw [List.cons_append, listing, if_neg (hbefore result (List.mem_cons_self ..)),
        ih fun r hr => hbefore r (List.mem_cons_of_mem _ hr), List.cons_append, List.flatMap_cons,
        List.append_assoc]

theorem cell_of_mem_problems {result : CellResult} {problem : Problem}
    (h : problem ∈ result.problems tree) : problem.cell = result.cell := by
  obtain ⟨finding, -, rfl⟩ := List.mem_map.1 h
  rfl

/-- To accept the problems of some cells is to accept these cells. -/
theorem filter_flatMap_problems (tree : FileTree) (accepts : Cell → Bool)
    (results : List CellResult) :
    (results.flatMap (·.problems tree)).filter (accepts ·.cell)
      = (results.filter (accepts ·.cell)).flatMap (·.problems tree) := by
  induction results with
  | nil => rfl
  | cons result rest ih =>
      rw [List.flatMap_cons, List.filter_append, ih, List.filter_cons]
      split
      · next haccepts =>
          rw [List.flatMap_cons, List.filter_eq_self.2 fun problem hproblem => ?_]
          rw [cell_of_mem_problems hproblem]
          exact haccepts
      · next hrejects =>
          rw [List.filter_eq_nil_iff.2 fun problem hproblem => ?_, List.nil_append]
          rw [cell_of_mem_problems hproblem]
          exact hrejects

/-- One cell after another, the problems are in order as they come. -/
theorem pairwise_inOrder_problems (tree : FileTree) {results : List CellResult}
    (h : results.Pairwise fun a b => Precedes entryPoints a.cell b.cell) :
    (results.flatMap (·.problems tree)).Pairwise (inOrder entryPoints · ·) := by
  refine List.pairwise_flatMap.2 ⟨fun result _ => ?_, h.imp fun hprec x hx y hy => ?_⟩
  · refine List.pairwise_of_forall_mem_list fun x hx y hy => ?_
    rw [inOrder_eq_true_iff, cell_of_mem_problems hx, cell_of_mem_problems hy]
    exact fun hself => hself.ne rfl
  · rw [← cell_of_mem_problems hx, ← cell_of_mem_problems hy] at hprec
    exact inOrder_of_precedes hprec

/-- A problem put at the end moves behind the last problem of its own cell. -/
theorem mergeSort_problems_concat (tree : FileTree) {before after : List CellResult}
    {first : CellResult} {u : Problem} (hu : u.cell = first.cell)
    (h : (before ++ first :: after).Pairwise fun a b => Precedes entryPoints a.cell b.cell) :
    ((before ++ first :: after).flatMap (·.problems tree) ++ [u]).mergeSort (inOrder entryPoints)
      = (before ++ [first]).flatMap (·.problems tree) ++
        u :: after.flatMap (·.problems tree) := by
  have hsplit : (before ++ first :: after).flatMap (·.problems tree)
      = (before ++ [first]).flatMap (·.problems tree) ++ after.flatMap (·.problems tree) := by
    rw [← List.flatMap_append, List.append_assoc, List.singleton_append]
  have hsorted := pairwise_inOrder_problems tree h
  rw [hsplit] at hsorted ⊢
  obtain ⟨-, hfirst, hcross⟩ := List.pairwise_append.1 h
  refine mergeSort_append_singleton inOrder_trans inOrder_total hsorted ?_ ?_
  · intro x hx
    obtain ⟨result, hmem, hx⟩ := List.mem_flatMap.1 hx
    rcases List.mem_append.1 hmem with hmem | hmem
    · have hprec := hcross result hmem first (List.mem_cons_self ..)
      rw [← cell_of_mem_problems hx, ← hu] at hprec
      exact inOrder_of_precedes hprec
    · rw [List.mem_singleton.1 hmem] at hx
      rw [inOrder_eq_true_iff, cell_of_mem_problems hx, hu]
      exact fun hself => hself.ne rfl
  · intro x hx
    obtain ⟨result, hmem, hx⟩ := List.mem_flatMap.1 hx
    have hprec := (List.pairwise_cons.1 hfirst).1 result hmem
    rw [← cell_of_mem_problems hx, ← hu] at hprec
    rw [inOrder_eq_true_iff, not_not]
    exact hprec

/-- **The sort only puts the added problem in its place.** -/
theorem mergeSort_problems {results : List CellResult}
    (h : results.Pairwise fun a b => Precedes entryPoints a.cell b.cell) :
    (results.flatMap (·.problems tree) ++ (untypedProblem results).toList).mergeSort
        (inOrder entryPoints)
      = listing tree (untypedAt results) results := by
  cases hfilter : results.filter CellResult.isUntyped with
  | nil =>
      have htyped : ∀ r ∈ results, ¬ r.isUntyped := List.filter_eq_nil_iff.1 hfilter
      have hnone : untypedProblem results = none := by rw [untypedProblem, hfilter]
      rw [hnone, Option.toList_none, List.append_nil, listing_of_typed htyped]
      exact List.mergeSort_of_pairwise (pairwise_inOrder_problems tree h)
  | cons first others =>
      have hsome : untypedProblem results = some (untypedAt results first) := by
        rw [untypedProblem, untypedAt, hfilter]
      obtain ⟨before, after, hsplit, hbefore, hfirst, -⟩ := List.filter_eq_cons_iff.1 hfilter
      have hlisting : listing tree (untypedAt results) (before ++ first :: after) = _ :=
        listing_of_first tree (untypedAt results) hbefore hfirst
      rw [hsplit] at h
      have hsort := mergeSort_problems_concat tree (u := untypedAt results first) rfl h
      rw [← hsplit] at hlisting hsort
      rw [hsome, Option.toList_some, hsort, hlisting]

/-! ## Kinds of findings -/

/-- No finding of a cell is about several cells. -/
theorem kind_ne_untyped_of_mem_problems {tree : FileTree} {result : CellResult} {problem : Problem}
    (h : problem ∈ result.problems tree) : problem.kind ≠ .untypedResolution := by
  obtain ⟨finding, hfinding, rfl⟩ := List.mem_map.1 h
  show finding.kind ≠ .untypedResolution
  unfold CellResult.findings at hfinding
  split at hfinding
  · exact absurd hfinding (List.not_mem_nil)
  · rw [List.mem_singleton.1 hfinding]
    simp
  · rw [List.mem_singleton.1 hfinding]
    simp
  · intro hkind
    have hcompares := Finding.comparesFiles_of_mem_ofFiles hfinding
    rw [hkind] at hcompares
    exact absurd hcompares (by decide)

/-- A cell is reported to have no declarations exactly when it has code and no types. -/
theorem noResolution_cells_problems (tree : FileTree) (result : CellResult) :
    ((result.problems tree).filter (·.kind = .noResolution)).map (·.cell)
      = if result.isUntyped then [result.cell] else [] := by
  obtain ⟨cell, types, runtime⟩ := result
  cases types with
  | notFound reason =>
      cases runtime with
      | notFound reason' => rfl
      | found code => rfl
  | found file =>
      cases runtime with
      | notFound reason => rfl
      | found code =>
          have hnone : (CellResult.problems tree ⟨cell, .found file, .found code⟩).filter
              (·.kind = .noResolution) = [] := by
            refine List.filter_eq_nil_iff.2 fun problem hmem => ?_
            obtain ⟨finding, hfinding, rfl⟩ := List.mem_map.1 hmem
            have hcompares := Finding.comparesFiles_of_mem_ofFiles hfinding
            intro hmissing
            have hkind : finding.kind = .noResolution := of_decide_eq_true hmissing
            rw [hkind] at hcompares
            exact absurd hcompares (by decide)
          rw [hnone]
          rfl

/-! ## What a list of problems names -/

variable {tree : FileTree} {untyped : CellResult → Problem}

theorem mem_listing {results : List CellResult} {problem : Problem}
    (h : problem ∈ listing tree untyped results) :
    ∃ result ∈ results, problem ∈ result.problems tree ∨ problem = untyped result := by
  induction results with
  | nil => exact absurd h (List.not_mem_nil)
  | cons result rest ih =>
      rw [listing] at h
      split at h
      · rcases List.mem_append.1 h with h | h
        · exact ⟨result, List.mem_cons_self .., Or.inl h⟩
        · rcases List.mem_cons.1 h with h | h
          · exact ⟨result, List.mem_cons_self .., Or.inr h⟩
          · obtain ⟨other, hmem, h⟩ := List.mem_flatMap.1 h
            exact ⟨other, List.mem_cons_of_mem _ hmem, Or.inl h⟩
      · rcases List.mem_append.1 h with h | h
        · exact ⟨result, List.mem_cons_self .., Or.inl h⟩
        · obtain ⟨other, hmem, h⟩ := ih h
          exact ⟨other, List.mem_cons_of_mem _ hmem, h⟩

theorem noResolution_cells_flatMap (tree : FileTree) (results : List CellResult) :
    ((results.flatMap (·.problems tree)).filter (·.kind = .noResolution)).map (·.cell)
      = (results.filter CellResult.isUntyped).map (·.cell) := by
  induction results with
  | nil => rfl
  | cons result rest ih =>
      rw [List.flatMap_cons, List.filter_append, List.map_append, ih,
        noResolution_cells_problems, List.filter_cons]
      split
      · rfl
      · rfl

/-- The cells that are reported without declarations are those with code and no types. -/
theorem noResolution_cells_listing {results : List CellResult}
    (huntyped : ∀ result, (untyped result).kind ≠ .noResolution) :
    ((listing tree untyped results).filter (·.kind = .noResolution)).map (·.cell)
      = (results.filter CellResult.isUntyped).map (·.cell) := by
  induction results with
  | nil => rfl
  | cons result rest ih =>
      rw [listing]
      split
      · next huntypedResult =>
          rw [List.filter_append, List.map_append, noResolution_cells_problems,
            List.filter_cons_of_neg (by simpa using huntyped result), noResolution_cells_flatMap,
            List.filter_cons_of_pos huntypedResult, if_pos huntypedResult]
          rfl
      · next htyped =>
          rw [List.filter_append, List.map_append, noResolution_cells_problems, ih,
            List.filter_cons_of_neg htyped, if_neg htyped]
          rfl

/-- The list of problems of a package with types. -/
theorem ofPackage_problems_eq (tree : FileTree) (manifest : Manifest) (options : AnalysisOptions) :
    let analysis := ofPackage tree manifest options
    analysis.problems = if analysis.containsTypes = true
      then listing tree (untypedAt analysis.resolutions) analysis.resolutions else [] := by
  intro analysis
  have hprecedes : analysis.resolutions.Pairwise
      fun a b => Precedes analysis.entryPoints a.cell b.cell :=
    List.pairwise_map.2 (pairwise_precedes_cells (EntryPoint.enumerated_ofManifest ..))
  show collectProblems tree analysis.entryPoints analysis.resolutions = _
  rw [collectProblems, mergeSort_problems hprecedes]
  rfl

/-- **The problems of a package are the problems of its cells, in the order of the cells.** -/
theorem ofPackage_problems_in_cell_order (tree : FileTree) (manifest : Manifest)
    (options : AnalysisOptions) :
    let entryPoints := EntryPoint.ofManifest manifest (ResolutionKind.select options.kinds)
    let results := (cells entryPoints).map
      (resolve (Resolver.ofPackage tree manifest options.conditions))
    let analysis := ofPackage tree manifest options
    analysis.entryPoints = entryPoints ∧
    (∀ entry ∈ entryPoints, entry.kinds.Pairwise (·.rank < ·.rank)) ∧
    (∀ entry ∈ entryPoints, ∀ kind ∈ entry.kinds,
      (cells entryPoints).count ⟨entry.subpath, kind⟩ = 1) ∧
    analysis.resolutions = results ∧
    ((∀ result ∈ results, result.types.isFound = false) →
      analysis.containsTypes = false ∧ analysis.problems = []) ∧
    ((∃ result ∈ results, result.types.isFound = true) →
      analysis.containsTypes = true ∧
        analysis.problems = listing tree (untypedAt results) results) ∧
    (∀ problem ∈ analysis.problems,
      (∃ entry ∈ entryPoints,
        entry.subpath = problem.cell.entryPoint ∧ problem.cell.kind ∈ entry.kinds) ∧
      (place entryPoints problem).1 < entryPoints.length) ∧
    (∀ problem ∈ analysis.problems, problem.kind = .untypedResolution →
      problem.details = .untypedCells
        ((analysis.problems.filter (·.kind = .noResolution)).map (·.cell))) := by
  intro entryPoints results analysis
  have henum : EntryPoint.Enumerated entryPoints := EntryPoint.enumerated_ofManifest ..
  have hproblems : analysis.problems
      = if anyTyped results then listing tree (untypedAt results) results else [] :=
    ofPackage_problems_eq tree manifest options
  -- A problem is reported only in a package with types, as one of the list.
  have hmem : ∀ problem ∈ analysis.problems,
      analysis.problems = listing tree (untypedAt results) results ∧
        ∃ result ∈ results,
          problem ∈ result.problems tree ∨ problem = untypedAt results result := by
    intro problem hmem
    rw [hproblems] at hmem ⊢
    split at hmem
    · next htyped => exact ⟨if_pos htyped, mem_listing hmem⟩
    · exact absurd hmem (List.not_mem_nil)
  refine ⟨rfl, henum.kinds_ordered, fun entry hentry kind hkind => ?_, rfl, fun hnone => ?_,
    fun hsome => ?_, fun problem hproblem => ?_, fun problem hproblem hkind => ?_⟩
  · exact List.count_eq_one_of_mem (nodup_cells henum) (mem_cells.2 ⟨entry, hentry, rfl, hkind⟩)
  · have huntyped : anyTyped results = false :=
      List.any_eq_false.2 fun result hresult => by simp [hnone result hresult]
    exact ⟨huntyped, by rw [hproblems, huntyped]; rfl⟩
  · have htyped : anyTyped results = true := List.any_eq_true.2 hsome
    exact ⟨htyped, by rw [hproblems, htyped]; rfl⟩
  · obtain ⟨-, result, hresult, hfrom⟩ := hmem problem hproblem
    obtain ⟨cell, hcell, rfl⟩ := List.mem_map.1 hresult
    have hsame : problem.cell = cell := by
      rcases hfrom with hfrom | rfl
      · exact cell_of_mem_problems hfrom
      · rfl
    rw [place_eq, hsame]
    exact ⟨mem_cells.1 hcell, cellPlace_lt hcell⟩
  · obtain ⟨hlisting, result, -, hfrom⟩ := hmem problem hproblem
    rcases hfrom with hfrom | rfl
    · exact absurd hkind (kind_ne_untyped_of_mem_problems hfrom)
    · rw [hlisting, noResolution_cells_listing fun _ => by simp [untypedAt]]
      rfl

/-- One entry point without types stands before another one without code. -/
theorem untyped_entry_problems_in_cell_order :
    let manifest : Manifest := ⟨none, none, none, none, none, none,
      some (.subpaths
        [("./a", .target "./a.js"), ("./c", .conditions [("types", .target "./c.d.ts")])]), none⟩
    let options : AnalysisOptions := ⟨[.node16Cjs], []⟩
    let untyped := FileTree.empty.insert "a.js" []
    let typed := untyped.insert "c.d.ts" []
    let a : Cell := ⟨"./a", .node16Cjs⟩
    let ofTypes : Problem :=
      ⟨.noResolution, a, none, some "a.js", .resolutionFailure .notADeclaration⟩
    let ofPackageTypes : Problem :=
      ⟨.untypedResolution, a, none, some "a.js", .untypedCells [a]⟩
    let ofCode : Problem :=
      ⟨.internalResolutionError, ⟨"./c", .node16Cjs⟩, some "c.d.ts", none,
        .resolutionFailure .noActiveCondition⟩
    ((ofPackage typed manifest options).problems = [ofTypes, ofPackageTypes, ofCode] ∧
      ofPackageTypes.details = .untypedCells
        (((ofPackage typed manifest options).problems.filter (·.kind = .noResolution)).map
          (·.cell))) ∧
    ((ofPackage untyped manifest options).containsTypes = false ∧
      (ofPackage untyped manifest options).problems = []) := by
  intro manifest options untyped typed a ofTypes ofPackageTypes ofCode
  obtain ⟨-, -, -, -, -, hlisting, -, hcells⟩ :=
    ofPackage_problems_in_cell_order typed manifest options
  obtain ⟨-, -, -, -, hempty, -⟩ := ofPackage_problems_in_cell_order untyped manifest options
  have hproblems : (ofPackage typed manifest options).problems
      = [ofTypes, ofPackageTypes, ofCode] :=
    (hlisting (by decide +kernel)).2.trans (by decide +kernel)
  have hmem : ofPackageTypes ∈ (ofPackage typed manifest options).problems := by
    rw [hproblems]
    decide
  exact ⟨⟨hproblems, hcells ofPackageTypes hmem rfl⟩, hempty (by decide +kernel)⟩

end Analysis

end TypingsAudit
