import TypingsAudit.Analysis.Problem
import TypingsAudit.FileTree
import TypingsAudit.Script.ModuleSyntax

set_option autoImplicit false

/-! # Comparing types and code

A cell is resolved twice, to its declarations and to the code that runs. `CellResult.problems` says
what is wrong with the two answers, looking at them and at how the two files are written.

Formats matter only to the algorithms that enforce them. There are two ways for a file to pass for
what it is not: the types count as one format and the code as the other, or the code is loaded in a
format it is not written in. Exported names are compared only where an ES module imports CommonJS
code that does not pass for anything else. -/

namespace TypingsAudit

/-- How the file at a path is written, if it is a script or a declaration file. -/
def FileTree.moduleSyntax? (tree : FileTree) (path : String) : Option ModuleSyntax := do
  let file ← tree.file? path
  if file.kind.isScript || file.kind.isDeclaration then
    some (ModuleSyntax.ofSource file.path file.text)
  else none

/-- The format a file is written in, where that shows. -/
def ModuleSyntax.format? (s : ModuleSyntax) : Option ModuleFormat :=
  match s.kind with
  | .esm => some .esm
  | .cjs => some .cjs
  | .none => none
  | .unparsable => none

/-- A cell with the declarations and the code that it resolves to. -/
structure CellResult where
  cell : Cell
  types : Resolution
  runtime : Resolution
  deriving DecidableEq, Repr

/-- A kind of problem with what it says. -/
structure Finding where
  kind : ProblemKind
  details : ProblemDetails
  deriving DecidableEq, Repr

namespace Finding

/-- A file that should have the format `expected` has the other one. -/
def mismatch (source : MismatchSource) (kind : ProblemKind) (expected actual : ModuleFormat) :
    Finding :=
  ⟨kind, .formatMismatch source expected actual⟩

/-- Types and code that are loaded in different formats. -/
def ofFormats (types runtime : ModuleFormat) : Option Finding :=
  match types, runtime with
  | .esm, .cjs => some (mismatch .typesVsRuntime .falseCjs .esm .cjs)
  | .cjs, .esm => some (mismatch .typesVsRuntime .falseEsm .cjs .esm)
  | _, _ => none

/-- Code that is loaded in a format it is not written in. -/
def ofAuthored (runtime : ModuleFormat) (authored : Option ModuleFormat) : Option Finding :=
  match runtime, authored with
  | .cjs, some .esm => some (mismatch .declaredVsSyntax .falseEsm .cjs .esm)
  | .esm, some .cjs => some (mismatch .declaredVsSyntax .falseCjs .esm .cjs)
  | _, _ => none

/-- Both ways to have a false format. One kind is found once, in the first way. -/
def ofFalseFormats (types runtime : ModuleFormat) (authored : Option ModuleFormat) :
    List Finding :=
  let first := ofFormats types runtime
  let second := (ofAuthored runtime authored).filter fun f => first.map (·.kind) ≠ some f.kind
  first.toList ++ second.toList

/-- A default export that is only a property of what the code exports. -/
def ofDefault (types runtime : ModuleSyntax) : List Finding :=
  if "default" ∈ types.exports ∧ "default" ∈ runtime.commonJs.names ∧ !runtime.commonJs.setsExports
  then [⟨.cjsOnlyExportsDefault, .none⟩] else []

/-- The exports of the types that the code does not set, the default apart. -/
def missingNames (types runtime : ModuleSyntax) : List String :=
  types.exports.filter fun name => name ≠ "default" ∧ name ∉ runtime.commonJs.names

/-- Exports of the types that the code lacks, where the names of both are known. -/
def ofNames (types runtime : ModuleSyntax) : List Finding :=
  if runtime.commonJs.hasUnknown ∨ types.hasExportAssignment then []
  else
    match missingNames types runtime with
    | [] => []
    | names => [⟨.namedExports, .missingExports names⟩]

/-- What the exports of both files show when an ES module imports CommonJS code. -/
def ofExports (types runtime : Option ModuleSyntax) : List Finding :=
  match types, runtime with
  | some types, some runtime => ofDefault types runtime ++ ofNames types runtime
  | _, _ => []

/-- What is wrong with declarations and code that are both found. -/
def ofFiles (tree : FileTree) (kind : ResolutionKind) (types runtime : Resolved) : List Finding :=
  let fallback : List Finding := if types.usedFallback then [⟨.fallbackCondition, .none⟩] else []
  if kind.enforcesFormat then
    let runtimeSyntax := tree.moduleSyntax? runtime.path
    let falseFormats :=
      ofFalseFormats types.format runtime.format (runtimeSyntax.bind ModuleSyntax.format?)
    let required : List Finding :=
      if kind = .node16Cjs ∧ types.format = .esm then [⟨.cjsResolvesToEsm, .none⟩] else []
    let exports :=
      if kind = .node16Esm ∧ runtime.format = .cjs ∧ falseFormats.isEmpty then
        ofExports (tree.moduleSyntax? types.path) runtimeSyntax
      else []
    fallback ++ falseFormats ++ required ++ exports
  else fallback

end Finding

namespace CellResult

/-- Whether the cell has code and no types. -/
def isUntyped (result : CellResult) : Bool :=
  result.runtime.isFound && !result.types.isFound

/-- A finding about the cell as a problem. -/
def problem (result : CellResult) (finding : Finding) : Problem :=
  { kind := finding.kind
    cell := result.cell
    typesPath := result.types.path?
    runtimePath := result.runtime.path?
    details := finding.details }

/-- What is wrong with the cell. -/
def findings (tree : FileTree) (result : CellResult) : List Finding :=
  match result.types, result.runtime with
  | .notFound _, .notFound _ => []
  | .notFound reason, .found _ => [⟨.noResolution, .resolutionFailure reason⟩]
  | .found _, .notFound reason => [⟨.internalResolutionError, .resolutionFailure reason⟩]
  | .found types, .found runtime => Finding.ofFiles tree result.cell.kind types runtime

/-- The problems of the cell. -/
def problems (tree : FileTree) (result : CellResult) : List Problem :=
  (result.findings tree).map result.problem

end CellResult

end TypingsAudit
