import TypingsAudit.Resolution.Basic

set_option autoImplicit false

/-! # Problems

What can be wrong between the types of a package and the code that runs, one kind for each way, and
the data that a report shows with it. -/

namespace TypingsAudit

/-- The kinds of problems. The order of the constructors is the order of reports. -/
inductive ProblemKind where
  /-- Code is found but no declarations. -/
  | noResolution
  /-- Some imports have types and others have none. -/
  | untypedResolution
  /-- A file counts as CommonJS and is ESM. -/
  | falseEsm
  /-- A file counts as ESM and is CommonJS. -/
  | falseCjs
  /-- `require` leads to the types of an ES module. -/
  | cjsResolvesToEsm
  /-- The types have a default export where the code has only a property of that name. -/
  | cjsOnlyExportsDefault
  /-- The types name exports that the code lacks. -/
  | namedExports
  /-- The types were found behind an earlier candidate without a file. -/
  | fallbackCondition
  /-- Declarations are found but no code. -/
  | internalResolutionError
  deriving DecidableEq, Repr

namespace ProblemKind

/-- Every kind, in the order of reports. -/
def all : List ProblemKind :=
  [.noResolution, .untypedResolution, .falseEsm, .falseCjs, .cjsResolvesToEsm,
   .cjsOnlyExportsDefault, .namedExports, .fallbackCondition, .internalResolutionError]

def name : ProblemKind → String
  | .noResolution => "NoResolution"
  | .untypedResolution => "UntypedResolution"
  | .falseEsm => "FalseESM"
  | .falseCjs => "FalseCJS"
  | .cjsResolvesToEsm => "CJSResolvesToESM"
  | .cjsOnlyExportsDefault => "CJSOnlyExportsDefault"
  | .namedExports => "NamedExports"
  | .fallbackCondition => "FallbackCondition"
  | .internalResolutionError => "InternalResolutionError"

/-- The heading of the kind in a report. -/
def title : ProblemKind → String
  | .noResolution => "Resolution failed"
  | .untypedResolution => "No types"
  | .falseEsm => "Masquerading as ESM"
  | .falseCjs => "Masquerading as CJS"
  | .cjsResolvesToEsm => "ESM (dynamic import only)"
  | .cjsOnlyExportsDefault => "CJS default export"
  | .namedExports => "Named exports"
  | .fallbackCondition => "Used fallback condition"
  | .internalResolutionError => "Internal resolution error"

/-- The explanation below the heading. -/
def description : ProblemKind → String
  | .noResolution => "Import found at runtime, but no declaration file resolves."
  | .untypedResolution => "Import resolves to an untyped JavaScript file."
  | .falseEsm => "Declared as CommonJS, but the file is ESM."
  | .falseCjs => "Declared as ESM, but the file is CommonJS."
  | .cjsResolvesToEsm => "A require() resolves to ES module types."
  | .cjsOnlyExportsDefault =>
    "Types export a default, but the CommonJS module only sets exports.default."
  | .namedExports => "Types declare named exports the CommonJS module lacks."
  | .fallbackCondition => "Types were found only after an earlier condition failed."
  | .internalResolutionError => "Types resolve, but the runtime import fails."

theorem mem_all (kind : ProblemKind) : kind ∈ all := by
  cases kind <;> decide

end ProblemKind

/-- An entry point under one algorithm. -/
structure Cell where
  entryPoint : String
  kind : ResolutionKind
  deriving DecidableEq, Repr

/-- Which two formats disagree. -/
inductive MismatchSource where
  /-- The formats that the types and the code are loaded as. -/
  | typesVsRuntime
  /-- The format the code is loaded as and the one it is written in. -/
  | declaredVsSyntax
  deriving DecidableEq, Repr

def MismatchSource.name : MismatchSource → String
  | .typesVsRuntime => "typesVsRuntime"
  | .declaredVsSyntax => "declaredVsSyntax"

/-- What a problem says beyond its kind. -/
inductive ProblemDetails where
  | none
  | resolutionFailure (reason : NotFoundReason)
  | formatMismatch (source : MismatchSource) (expected actual : ModuleFormat)
  | missingExports (names : List String)
  | untypedCells (cells : List Cell)
  deriving DecidableEq, Repr

def ProblemDetails.name : ProblemDetails → String
  | .none => "none"
  | .resolutionFailure _ => "resolutionFailure"
  | .formatMismatch .. => "formatMismatch"
  | .missingExports _ => "missingExports"
  | .untypedCells _ => "untypedCells"

structure Problem where
  kind : ProblemKind
  cell : Cell
  typesPath : Option String
  runtimePath : Option String
  details : ProblemDetails
  deriving DecidableEq, Repr

namespace Problem

/-- The problems of each kind, in the order of kinds, without the kinds that do not occur. The
    problems of one kind stay in their order. -/
def groupByKind (problems : List Problem) : List (ProblemKind × List Problem) :=
  (ProblemKind.all.map fun kind => (kind, problems.filter (·.kind = kind))).filter fun (_, group) =>
    !group.isEmpty

end Problem

end TypingsAudit
