import TypingsAudit.Analysis
import TypingsAudit.Report.Style

set_option autoImplicit false

/-! # Reports for readers

The three messages about an analysis: that the package has no types, that nothing is wrong with it,
or what is wrong. The last one has a block for each kind of problem and a row for each problem, and
may end in a summary that counts them. -/

namespace TypingsAudit.Report

/-- Lines of text, each with its end. -/
def unlines (lines : List String) : String :=
  String.join (lines.map (· ++ "\n"))

/-- The package with its version, as far as they are known. -/
def packageLabel (analysis : Analysis) : String :=
  match analysis.packageName, analysis.packageVersion with
  | some name, some version => name ++ "@" ++ version
  | some name, none => name
  | none, _ => "<unnamed package>"

variable (painter : Painter)

def paintedLabel (analysis : Analysis) : String :=
  painter.paint .boldWhite (packageLabel analysis)

/-- The message that a package has no types. -/
def untypedMessage (analysis : Analysis) : String :=
  unlines [painter.paint .boldBlue "ℹ" ++ " " ++ paintedLabel painter analysis ++
    " does not contain types"]

/-- The message that nothing is wrong with a package. -/
def noProblemsMessage (analysis : Analysis) : String :=
  unlines [painter.paint .boldGreen "✓" ++ " No problems found in " ++
    paintedLabel painter analysis ++ s!" ({analysis.entryPoints.length} entry points)"]

/-! ## Problems -/

/-- What a problem says beyond its kind, in a few words. -/
def detailText : ProblemDetails → Option String
  | .none => none
  | .resolutionFailure reason => some reason.text
  | .formatMismatch _ expected actual => some s!"expected {expected.label}, found {actual.label}"
  | .missingExports names => some ("missing: " ++ ", ".intercalate names)
  | .untypedCells cells => some s!"{cells.length} untyped"

/-- The text filled up with blanks on the right. -/
def padRight (width : Nat) (text : String) : String :=
  text ++ String.ofList (List.replicate (width - text.length) ' ')

/-- The cell of a problem and the files that it is about. -/
def problemText (problem : Problem) : String :=
  let cell := padRight 12 problem.cell.kind.name ++ " " ++ problem.cell.entryPoint
  match problem.typesPath, problem.runtimePath with
  | some types, some runtime => cell ++ "  " ++ types ++ " → " ++ runtime
  | some path, none => cell ++ "  " ++ path
  | none, some path => cell ++ "  " ++ path
  | none, none => cell

/-- The branch in front of a row. -/
def branch (isLast : Bool) : String :=
  if isLast then "└──" else "├──"

def row (isLast : Bool) (problem : Problem) : String :=
  painter.paint .dimmed (branch isLast) ++ "  " ++ problemText problem ++
    match detailText problem.details with
    | some detail => " (" ++ painter.paint .red detail ++ ")"
    | none => ""

/-- A row for each problem, the last one closing the branch. -/
def rows : List Problem → List String
  | [] => []
  | [problem] => [row painter true problem]
  | problem :: rest => row painter false problem :: rows rest

/-- The lines about the problems of one kind. -/
def block (group : ProblemKind × List Problem) : List String :=
  let (kind, problems) := group
  [painter.paint .bold kind.title ++ " " ++ painter.paint .dimmed ("(" ++ kind.name ++ ")"),
    "  " ++ painter.paint .dimmed kind.description] ++ rows painter problems ++ [""]

/-! ## The summary -/

/-- The entry points that a problem names. -/
def affected (analysis : Analysis) : List EntryPoint :=
  analysis.entryPoints.filter fun entry =>
    analysis.problems.any (·.cell.entryPoint == entry.subpath)

/-- How many problems the groups have. -/
def total (groups : List (ProblemKind × List Problem)) : Nat :=
  groups.foldr (fun group count => group.2.length + count) 0

def rule : String :=
  String.ofList (List.replicate 60 '─')

/-- The lines that count the problems. -/
def summaryLines (analysis : Analysis) (groups : List (ProblemKind × List Problem)) :
    List String :=
  [painter.paint .dimmed rule,
    painter.paint .bold "Summary",
    "  Total problems: " ++ painter.paint .boldYellow (toString (total groups)),
    "  Entry points affected: " ++
      painter.paint .boldRed (toString (affected analysis).length) ++
      s!" of {analysis.entryPoints.length}"] ++
  groups.map fun (kind, problems) =>
    "    " ++ kind.name ++ ": " ++ painter.paint .red (toString problems.length)

/-- The lines of the report on the problems of a package. -/
def problemLines (analysis : Analysis) (summary : Bool) : List String :=
  let groups := Problem.groupByKind analysis.problems
  [painter.paint .boldYellow "⚠" ++ " Problems found in " ++ paintedLabel painter analysis, ""] ++
    groups.flatMap (block painter) ++
    if summary then summaryLines painter analysis groups else []

/-- The report on the problems of a package. -/
def problems (analysis : Analysis) (summary : Bool) : String :=
  unlines (problemLines painter analysis summary)

/-- The message that an analysis calls for. -/
def message (analysis : Analysis) (summary : Bool) : String :=
  if !analysis.containsTypes then untypedMessage painter analysis
  else if analysis.problems.isEmpty then noProblemsMessage painter analysis
  else problems painter analysis summary

end TypingsAudit.Report
