import TypingsAudit.CommandLine.Arguments
import TypingsAudit.Loading
import TypingsAudit.Report.Raw
import TypingsAudit.Report.Text

set_option autoImplicit false

/-! # Running the program

From arguments and what is found at the path of the package to an exit status and the text to print.
The status is 0 for a package without problems or without types, 1 for one with problems or one that
cannot be analyzed, and 2 for arguments that make no sense. -/

namespace TypingsAudit.CommandLine

/-- What a run of the program comes to. -/
structure Outcome where
  status : Nat
  output : String
  errors : String
  deriving DecidableEq, Repr

/-- Why a package has no analysis. -/
inductive Failure where
  | loading (error : LoadError)
  | analysis (package : String) (error : Manifest.Error)

namespace Failure

def message : Failure → String
  | .loading error => error.message
  | .analysis package _ => s!"Failed to analyze {package}"

/-- What led to the failure, the most general first. -/
def causes : Failure → List String
  | .loading error => error.causes
  | .analysis _ error => [error.message]

/-- The text with blanks in front of every line but the first. -/
def hang (width : Nat) (text : String) : String :=
  String.ofList (text.toList.flatMap fun c =>
    if c = '\n' then '\n' :: List.replicate width ' ' else [c])

/-- The causes of a failure as they are printed. Only several causes are numbered. -/
def causeText : List String → String
  | [] => ""
  | [cause] => "\n\nCaused by:\n    " ++ hang 4 cause
  | causes =>
    "\n\nCaused by:" ++ String.join (causes.zipIdx.map fun (cause, i) =>
      let number := toString i
      "\n" ++ String.ofList (List.replicate (5 - number.length) ' ') ++ number ++ ": " ++
        hang 7 cause)

/-- The text that is printed about a failure. -/
def report (failure : Failure) : String :=
  "Error: " ++ failure.message ++ causeText failure.causes ++ "\n"

end Failure

/-- A package that has been looked at. -/
structure Examination where
  tree : FileTree
  analysis : Analysis

/-- Load and analyze the package of a task, with what was found at its path. -/
def examine (task : Invocation) (found : Option DiskEntry) : Except Failure Examination := do
  let tree ← (FileTree.load task.package found).mapError .loading
  let analysis ← (Analysis.ofFiles tree task.options).mapError (.analysis task.package)
  return { tree, analysis }

/-- What a run prints that is not about the package. -/
structure Setting where
  painter : Report.Painter
  /-- The milliseconds the run took, in digits. -/
  elapsed : String
  threads : Nat
  deriving DecidableEq, Repr

/-- The line that ends a message. -/
def finishLine (setting : Setting) (fileCount : Nat) : String :=
  let number := setting.painter.paint .cyan
  setting.painter.paint .brightBlue "●" ++ " Finished in " ++ number setting.elapsed ++ "ms on " ++
    number (toString fileCount) ++ " files (using " ++ number (toString setting.threads) ++
    " threads)."

/-- The text that is printed about a package. -/
def output (task : Invocation) (setting : Setting) (examined : Examination) : String :=
  if task.raw then Report.Raw.text examined.analysis
  else
    Report.message setting.painter examined.analysis task.summary ++
      Report.unlines ["", finishLine setting examined.tree.files.length]

/-- The exit status for a package that has been looked at. -/
def exitStatus (analysis : Analysis) : Nat :=
  if analysis.containsTypes && !analysis.problems.isEmpty then 1 else 0

/-- What a task comes to. -/
def conclude (task : Invocation) (setting : Setting) :
    Except Failure Examination → Outcome
  | .error failure => { status := 1, output := "", errors := failure.report }
  | .ok examined =>
    { status := exitStatus examined.analysis
      output := output task setting examined
      errors := "" }

/-- The usage of the program. -/
def usage : String :=
  "Usage: typings-audit [OPTIONS] <PACKAGE>"

def helpText : String :=
  Report.unlines
    ["Check whether a package's types agree with the code it runs",
      "",
      usage,
      "",
      "Arguments:",
      "  <PACKAGE>  Package directory or npm tarball (.tgz)",
      "",
      "Options:",
      "  -r, --raw                        Print the full analysis as JSON",
      "      --no-summary                 Omit the summary after the problem list",
      "      --resolution <KINDS>         Resolution algorithms to simulate (comma separated)",
      "      --condition <CONDITION>      Extra export condition enabled in every resolution",
      "  -h, --help                       Print help"]

/-- What arguments come to that ask for help or make no sense. -/
def Interruption.outcome : Interruption → Outcome
  | .help => { status := 0, output := helpText, errors := "" }
  | .misuse fault =>
    { status := 2
      output := ""
      errors := Report.unlines ["error: " ++ fault.message, "", usage] }

/-- What arguments come to, with what is found at the path of the package. -/
def run (setting : Setting) (find : String → Option DiskEntry) (arguments : List String) :
    Outcome :=
  match parse arguments with
  | .error interruption => interruption.outcome
  | .ok task => conclude task setting (examine task (find task.package))

end TypingsAudit.CommandLine
