import TypingsAudit.Analysis.Comparison
import TypingsAudit.EntryPoint
import TypingsAudit.Resolution.Resolver

set_option autoImplicit false

/-! # The analysis of a package

`Analysis.ofPackage` resolves every entry point of a package under every selected algorithm and
collects the problems of the cells. A package without any types has no problems; in one with types,
the cells without are a problem of their own, reported at the first of them. Problems are in the
order of their cells. -/

namespace TypingsAudit

/-- What an analysis is asked for besides the package. -/
structure AnalysisOptions where
  /-- The selected algorithms; none means all of them. -/
  kinds : List ResolutionKind
  /-- Export conditions that are active besides the usual ones. -/
  conditions : List String
  deriving DecidableEq, Repr

structure Analysis where
  packageName : Option String
  packageVersion : Option String
  /-- Whether any import has types. -/
  containsTypes : Bool
  entryPoints : List EntryPoint
  resolutions : List CellResult
  problems : List Problem
  deriving DecidableEq, Repr

namespace Analysis

/-- The cells of entry points, each with its algorithms in turn. -/
def cells (entryPoints : List EntryPoint) : List Cell :=
  entryPoints.flatMap fun entry => entry.kinds.map fun kind => ⟨entry.subpath, kind⟩

/-- Resolve a cell to its declarations and to its code. -/
def resolve (resolver : Resolver) (cell : Cell) : CellResult :=
  { cell
    types := resolver.enter cell.kind cell.entryPoint .types
    runtime := resolver.enter cell.kind cell.entryPoint .runtime }

/-- The problem of a package with types that some cells have none, at the first such cell. -/
def untypedProblem (results : List CellResult) : Option Problem :=
  match results.filter CellResult.isUntyped with
  | [] => none
  | first :: rest =>
    some
      { kind := .untypedResolution
        cell := first.cell
        typesPath := none
        runtimePath := first.runtime.path?
        details := .untypedCells ((first :: rest).map (·.cell)) }

/-- The place of a problem in a report: that of its entry point, and that of its algorithm. -/
def place (entryPoints : List EntryPoint) (problem : Problem) : Nat × Nat :=
  (entryPoints.findIdx (·.subpath == problem.cell.entryPoint), problem.cell.kind.rank)

/-- Whether a problem is reported no later than another one. -/
def inOrder (entryPoints : List EntryPoint) (a b : Problem) : Bool :=
  let (entryA, rankA) := place entryPoints a
  let (entryB, rankB) := place entryPoints b
  entryA < entryB || (entryA == entryB && rankA ≤ rankB)

/-- Whether any cell has types. -/
def anyTyped (results : List CellResult) : Bool :=
  results.any (·.types.isFound)

/-- The problems of a package, in the order of the cells. -/
def collectProblems (tree : FileTree) (entryPoints : List EntryPoint)
    (results : List CellResult) : List Problem :=
  if anyTyped results then
    (results.flatMap (·.problems tree) ++ (untypedProblem results).toList).mergeSort
      (inOrder entryPoints)
  else []

/-- The analysis of a package with the given files and manifest. -/
def ofPackage (tree : FileTree) (manifest : Manifest) (options : AnalysisOptions) : Analysis :=
  let entryPoints := EntryPoint.ofManifest manifest (ResolutionKind.select options.kinds)
  let resolver := Resolver.ofPackage tree manifest options.conditions
  let resolutions := (cells entryPoints).map (resolve resolver)
  { packageName := manifest.name
    packageVersion := manifest.version
    containsTypes := anyTyped resolutions
    entryPoints
    resolutions
    problems := collectProblems tree entryPoints resolutions }

/-- The analysis of a package whose manifest is one of its files. -/
def ofFiles (tree : FileTree) (options : AnalysisOptions) : Except Manifest.Error Analysis :=
  match tree.file? Manifest.fileName with
  | none => .error .missing
  | some file => do
    let manifest ← Manifest.parse file.contents
    .ok (ofPackage tree manifest options)

/-- The problems that a filter accepts, in their order. -/
def problemsWhere (analysis : Analysis) (accepts : Problem → Bool) : List Problem :=
  analysis.problems.filter accepts

end Analysis

end TypingsAudit
