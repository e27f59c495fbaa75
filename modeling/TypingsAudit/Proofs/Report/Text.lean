import Mathlib.Algebra.GroupWithZero.Nat
import Mathlib.Data.List.Forall2
import TypingsAudit.Proofs.Report.Groups
import TypingsAudit.Report.Text

set_option autoImplicit false

/-! # What a report on problems says

The report on the problems of a package has a block for each group and a row for each problem, and
its summary counts them. `Report.PrintsRows` and `Report.PrintsBlock` say what is printed for a
group without saying how the lines are made.

The counts are taken in different ways: the problems are counted by groups, and the entry points by
going through those of the package and looking for a problem that names one. The second count is
that of the names in the problems since each of these names an entry point, and no two entry points
have one name (`Report.length_affected`). -/

namespace TypingsAudit.Report

/-! ## Blocks -/

/-- What a problem says beyond its kind, at the end of its row. -/
def detailEnding (problem : Problem) : String :=
  match detailText problem.details with
  | some detail => " (" ++ detail ++ ")"
  | none => ""

/-- There is one line for each problem, in their order, and the last one alone closes the branch. -/
structure PrintsRows (problems : List Problem) (lines : List String) : Prop where
  length_eq : lines.length = problems.length
  row : ∀ i problem, problems[i]? = some problem →
    lines[i]? = some
      ((if i + 1 = problems.length then "└──" else "├──") ++ "  " ++ problemText problem ++
        detailEnding problem)
  closes : ∀ i line, lines[i]? = some line →
    (Text.startsWith "└──" line = true ↔ i + 1 = problems.length)

/-- The lines are a heading, an explanation, the rows of the problems and an empty line. -/
def PrintsBlock (group : ProblemKind × List Problem) (lines : List String) : Prop :=
  ∃ rows, PrintsRows group.2 rows ∧
    lines = [group.1.title ++ " (" ++ group.1.name ++ ")", "  " ++ group.1.description] ++ rows ++
      [""]

theorem row_plain (isLast : Bool) (problem : Problem) :
    row .plain isLast problem
      = branch isLast ++ "  " ++ problemText problem ++ detailEnding problem := by
  unfold row detailEnding
  cases detailText problem.details <;> rfl

/-- The branch of a row is at its front. -/
theorem startsWith_row (isLast : Bool) (problem : Problem) :
    Text.startsWith "└──" (row .plain isLast problem) = isLast := by
  rw [row_plain, Text.startsWith]
  cases isLast <;> simp [branch, List.isPrefixOf]

theorem rows_cons (painter : Painter) (problem : Problem) (rest : List Problem) :
    rows painter (problem :: rest) = row painter rest.isEmpty problem :: rows painter rest := by
  cases rest <;> rfl

theorem rows_eq_mapIdx (painter : Painter) (problems : List Problem) :
    rows painter problems
      = problems.mapIdx fun i problem => row painter (i + 1 = problems.length) problem := by
  induction problems with
  | nil => rfl
  | cons problem rest ih =>
      have hlast : rest.isEmpty = decide (0 + 1 = (problem :: rest).length) := by
        cases rest <;> simp
      simp only [rows_cons, ih, List.mapIdx_cons, hlast, List.length_cons,
        Nat.add_right_cancel_iff]

theorem printsRows_rows (problems : List Problem) : PrintsRows problems (rows .plain problems) where
  length_eq := by rw [rows_eq_mapIdx, List.length_mapIdx]
  row i problem hproblem := by
    rw [rows_eq_mapIdx, List.getElem?_mapIdx, hproblem, Option.map_some, row_plain, branch]
    simp only [decide_eq_true_eq]
  closes i line hline := by
    rw [rows_eq_mapIdx, List.getElem?_mapIdx, Option.map_eq_some_iff] at hline
    obtain ⟨problem, -, rfl⟩ := hline
    rw [startsWith_row, decide_eq_true_eq]

theorem printsBlock_block (group : ProblemKind × List Problem) :
    PrintsBlock group (block .plain group) := by
  obtain ⟨kind, problems⟩ := group
  refine ⟨rows .plain problems, printsRows_rows problems, ?_⟩
  have hopening : " (" = " " ++ "(" := rfl
  simp only [block, Painter.paint_plain, hopening, String.append_assoc]

/-! ## Counts -/

/-- The names of entry points in the problems, each once. -/
def namedEntryPoints (analysis : Analysis) : List String :=
  (analysis.problems.map (·.cell.entryPoint)).eraseDups

theorem total_eq_sum (groups : List (ProblemKind × List Problem)) :
    total groups = (groups.map (·.2.length)).sum := by
  induction groups with
  | nil => rfl
  | cons group rest ih =>
      rw [List.map_cons, List.sum_cons, ← ih]
      rfl

/-- The groups have as many problems as there are. -/
theorem total_of_grouped {problems : List Problem} {groups : List (ProblemKind × List Problem)}
    (h : Problem.Grouped problems groups) : total groups = problems.length := by
  rw [total_eq_sum, ← h.perm.length_eq, List.length_flatMap]

/-- The names in the problems are those of the affected entry points. -/
theorem length_affected {analysis : Analysis}
    (hdistinct : (analysis.entryPoints.map (·.subpath)).Nodup)
    (hnamed : ∀ problem ∈ analysis.problems,
      problem.cell.entryPoint ∈ analysis.entryPoints.map (·.subpath)) :
    (affected analysis).length = (namedEntryPoints analysis).length := by
  have hsublist : (affected analysis).Sublist analysis.entryPoints := List.filter_sublist
  have hperm : ((affected analysis).map (·.subpath)).Perm (namedEntryPoints analysis) := by
    refine (List.perm_ext_iff_of_nodup (hdistinct.sublist (hsublist.map _))
      (nodup_eraseDups _)).2 fun name => ?_
    rw [List.mem_eraseDups, List.mem_map, List.mem_map]
    constructor
    · rintro ⟨entry, hentry, rfl⟩
      obtain ⟨-, hany⟩ := List.mem_filter.1 hentry
      obtain ⟨problem, hproblem, hname⟩ := List.any_eq_true.1 hany
      exact ⟨problem, hproblem, eq_of_beq hname⟩
    · rintro ⟨problem, hproblem, rfl⟩
      obtain ⟨entry, hentry, hname⟩ := List.mem_map.1 (hnamed problem hproblem)
      refine ⟨entry, List.mem_filter.2 ⟨hentry, ?_⟩, hname⟩
      exact List.any_eq_true.2 ⟨problem, hproblem, beq_iff_eq.2 hname.symm⟩
  simpa using hperm.length_eq

/-- Every problem of a package names one of its entry points. -/
theorem entryPoint_mem_of_mem_problems {tree : FileTree} {manifest : Manifest}
    {options : AnalysisOptions} {problem : Problem}
    (h : problem ∈ (Analysis.ofPackage tree manifest options).problems) :
    problem.cell.entryPoint
      ∈ (Analysis.ofPackage tree manifest options).entryPoints.map (·.subpath) := by
  rw [Analysis.ofPackage_problems_eq, List.mem_ite_nil_right] at h
  obtain ⟨result, hresult, hfrom⟩ := Analysis.mem_listing h.2
  have hcell : problem.cell = result.cell := by
    rcases hfrom with hfrom | rfl
    · exact Analysis.cell_of_mem_problems hfrom
    · rfl
  obtain ⟨cell, hmem, rfl⟩ := List.mem_map.1 hresult
  obtain ⟨entry, hentry, hsubpath, -⟩ := Analysis.mem_cells.1 hmem
  rw [hcell]
  exact List.mem_map.2 ⟨entry, hentry, hsubpath⟩

/-- The lines of a summary with these counts. -/
def summaryOf (problems affected entryPoints : Nat) (kinds : List (ProblemKind × Nat)) :
    List String :=
  [rule, "Summary", "  Total problems: " ++ toString problems,
    "  Entry points affected: " ++ toString affected ++ " of " ++ toString entryPoints] ++
  kinds.map fun (kind, count) => "    " ++ kind.name ++ ": " ++ toString count

/-- **A report accounts for every problem once.** Whatever a filter accepts of the problems of a
    package is in the groups of its kinds, which are in ascending order. The report has a block for
    each group of problems, with a row for each problem of the group. The summary says how many
    problems there are, in all and of each kind, and how many entry points they name; these are not
    more than the package has. -/
theorem problems_accounted_for (tree : FileTree) (manifest : Manifest) (options : AnalysisOptions) :
    let analysis := Analysis.ofPackage tree manifest options
    let groups := Problem.groupByKind analysis.problems
    let problemCount := analysis.problems.length
    let affectedCount := (namedEntryPoints analysis).length
    (∀ accepts, analysis.problemsWhere accepts = analysis.problems.filter accepts ∧
      Problem.Grouped (analysis.problems.filter accepts)
        (Problem.groupByKind (analysis.problemsWhere accepts))) ∧
    (∀ summary, ∃ blocks, List.Forall₂ PrintsBlock groups blocks ∧
      Report.problems .plain analysis summary = unlines
        (["⚠ Problems found in " ++ packageLabel analysis, ""] ++ blocks.flatten ++
          if summary then
            summaryOf problemCount affectedCount analysis.entryPoints.length
              (groups.map fun (kind, group) => (kind, group.length))
          else [])) ∧
    total groups = problemCount ∧ (groups.map (·.2.length)).sum = problemCount ∧
    (affected analysis).length = affectedCount ∧ affectedCount ≤ analysis.entryPoints.length := by
  intro analysis groups problemCount affectedCount
  have htotal : total groups = problemCount := total_of_grouped (Problem.grouped_groupByKind _)
  have haffected : (affected analysis).length = affectedCount :=
    length_affected (EntryPoint.enumerated_ofManifest ..).subpaths_nodup
      fun _ => entryPoint_mem_of_mem_problems
  refine ⟨fun accepts => ⟨rfl, Problem.grouped_groupByKind _⟩, fun summary => ?_, htotal,
    (total_eq_sum groups).symm.trans htotal, haffected, ?_⟩
  · refine ⟨groups.map (block .plain), ?_, ?_⟩
    · refine List.forall₂_map_right_iff.2 (List.forall₂_same.2 fun group _ => ?_)
      exact printsBlock_block group
    · have hclosing : summaryLines .plain analysis groups
          = summaryOf problemCount affectedCount analysis.entryPoints.length
            (groups.map fun (kind, group) => (kind, group.length)) := by
        simp only [summaryLines, htotal, haffected, summaryOf, Painter.paint_plain, List.map_map,
          String.append_assoc]
        rfl
      rw [← hclosing, ← List.flatMap_def]
      rfl
  · rw [← haffected]
    exact List.length_filter_le ..

/-- Five problems of three kinds at two of three entry points. -/
theorem five_problems_accounted_for :
    let manifest : Manifest := ⟨none, none, none, none, none, none,
      some (.subpaths
        [("./a", .target "./a.js"), ("./b", .target "./b.js"),
         ("./c", .conditions [("types", .target "./c.d.ts")])]), none⟩
    let tree := (FileTree.empty.insert "a.js" []).insert "c.d.ts" []
    let analysis := Analysis.ofPackage tree manifest ⟨[.node16Esm, .node16Cjs], []⟩
    let groups := Problem.groupByKind analysis.problems
    let untyped (kind : ResolutionKind) : Problem :=
      ⟨.noResolution, ⟨"./a", kind⟩, none, some "a.js", .resolutionFailure .notADeclaration⟩
    let somewhereUntyped : Problem :=
      ⟨.untypedResolution, ⟨"./a", .node16Cjs⟩, none, some "a.js",
        .untypedCells [⟨"./a", .node16Cjs⟩, ⟨"./a", .node16Esm⟩]⟩
    let unbuilt (kind : ResolutionKind) : Problem :=
      ⟨.internalResolutionError, ⟨"./c", kind⟩, some "c.d.ts", none,
        .resolutionFailure .noActiveCondition⟩
    groups = [(.noResolution, [untyped .node16Cjs, untyped .node16Esm]),
      (.untypedResolution, [somewhereUntyped]),
      (.internalResolutionError, [unbuilt .node16Cjs, unbuilt .node16Esm])] ∧
    Problem.Grouped (analysis.problems.filter (·.cell.kind = .node16Esm))
      [(.noResolution, [untyped .node16Esm]), (.internalResolutionError, [unbuilt .node16Esm])] ∧
    (∃ blocks, List.Forall₂ PrintsBlock groups blocks ∧
      Report.problems .plain analysis true = unlines
        (["⚠ Problems found in <unnamed package>", ""] ++ blocks.flatten ++
          summaryOf 5 2 3
            [(.noResolution, 2), (.untypedResolution, 1), (.internalResolutionError, 2)])) ∧
    total groups = 5 ∧ (affected analysis).length = 2 := by
  intro manifest tree analysis groups untyped somewhereUntyped unbuilt
  have hproblems : analysis.problems = [untyped .node16Cjs, somewhereUntyped, untyped .node16Esm,
      unbuilt .node16Cjs, unbuilt .node16Esm] :=
    (Analysis.ofPackage_problems_eq ..).trans (by decide +kernel)
  obtain ⟨hgrouped, hprinted, htotal, -, haffected, -⟩ :=
    problems_accounted_for tree manifest ⟨[.node16Esm, .node16Cjs], []⟩
  have hcount : analysis.problems.length = 5 := by rw [hproblems]; rfl
  have hnamed : (namedEntryPoints analysis).length = 2 := by
    rw [namedEntryPoints, hproblems]
    decide
  have hgroups : groups = [(.noResolution, [untyped .node16Cjs, untyped .node16Esm]),
      (.untypedResolution, [somewhereUntyped]),
      (.internalResolutionError, [unbuilt .node16Cjs, unbuilt .node16Esm])] := by
    show Problem.groupByKind analysis.problems = _
    rw [hproblems]
    decide
  refine ⟨hgroups, ?_, ?_, htotal.trans hcount, haffected.trans hnamed⟩
  · obtain ⟨hwhere, hsome⟩ := hgrouped (·.cell.kind = .node16Esm)
    have haccepted : analysis.problems.filter (·.cell.kind = .node16Esm)
        = [untyped .node16Esm, unbuilt .node16Esm] := by
      rw [hproblems]
      rfl
    rw [hwhere, haccepted] at hsome
    rw [haccepted]
    exact hsome
  · obtain ⟨blocks, hblocks, htext⟩ := hprinted true
    refine ⟨blocks, hblocks, ?_⟩
    rw [hcount, hnamed, show Problem.groupByKind analysis.problems = _ from hgroups] at htext
    exact htext

end TypingsAudit.Report
