import TypingsAudit.Analysis
import TypingsAudit.Json.Printer

set_option autoImplicit false

/-! # Reports for programs

A whole analysis as JSON. The problems of a package with types appear a second time, grouped by
kind. -/

namespace TypingsAudit.Report.Raw

def optional : Option String → Json
  | some text => .string text
  | none => .null

def texts (items : List String) : Json :=
  .array (items.map .string)

def entryPoint (entry : EntryPoint) : Json :=
  .object
    [("subpath", .string entry.subpath),
     ("isPattern", .bool entry.isPattern),
     ("resolutionKinds", texts (entry.kinds.map (·.name)))]

def resolution : Resolution → Json
  | .found file =>
    .object
      [("status", .string "found"),
       ("path", .string file.path),
       ("moduleFormat", .string file.format.name),
       ("isDeclaration", .bool file.isDeclaration),
       ("usedFallbackCondition", .bool file.usedFallback)]
  | .notFound reason =>
    .object [("status", .string "notFound"), ("reason", .string reason.name)]

/-- The two members that name a cell. -/
def cellMembers (cell : Cell) : Json.Members :=
  [("entryPoint", .string cell.entryPoint), ("resolutionKind", .string cell.kind.name)]

def cellResult (result : CellResult) : Json :=
  .object
    (cellMembers result.cell ++
      [("types", resolution result.types), ("runtime", resolution result.runtime)])

/-- What the details of a problem have besides their name. -/
def detailMembers : ProblemDetails → Json.Members
  | .none => []
  | .resolutionFailure reason => [("reason", .string reason.name)]
  | .formatMismatch source expected actual =>
    [("source", .string source.name), ("expected", .string expected.name),
     ("actual", .string actual.name)]
  | .missingExports names => [("names", texts names)]
  | .untypedCells cells => [("cells", .array (cells.map fun cell => .object (cellMembers cell)))]

def problem (p : Problem) : Json :=
  .object
    ([("kind", .string p.kind.name)] ++ cellMembers p.cell ++
      [("typesPath", optional p.typesPath),
       ("runtimePath", optional p.runtimePath),
       ("details", .object (("type", .string p.details.name) :: detailMembers p.details))])

def analysis (a : Analysis) : Json :=
  .object
    [("packageName", optional a.packageName),
     ("packageVersion", optional a.packageVersion),
     ("containsTypes", .bool a.containsTypes),
     ("entryPoints", .array (a.entryPoints.map entryPoint)),
     ("resolutions", .array (a.resolutions.map cellResult)),
     ("problems", .array (a.problems.map problem))]

/-- The problems of each kind that occurs. -/
def groups (problems : List Problem) : Json :=
  .object ((Problem.groupByKind problems).map fun (kind, group) =>
    (kind.name, .array (group.map problem)))

/-- The report as a value. -/
def toJson (a : Analysis) : Json :=
  .object
    (("analysis", analysis a) ::
      if a.containsTypes then [("problems", groups a.problems)] else [])

/-- The report as a text. -/
def text (a : Analysis) : String :=
  (toJson a).pretty ++ "\n"

end TypingsAudit.Report.Raw
