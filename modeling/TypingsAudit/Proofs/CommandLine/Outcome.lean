import TypingsAudit.Proofs.Analysis.ProblemOrder
import TypingsAudit.Proofs.CommandLine.Flags
import TypingsAudit.Proofs.Data

set_option autoImplicit false

/-! # What a run comes to

A run fails where its package has no analysis, and there are three reasons for that (`Fails`). Else
its status and its message depend on two questions: whether any cell has types, and whether the
classification of cells finds anything (`CellResult.HasFault`).

The analysis answers the second question by its list of problems. This list has one problem that no
cell has by itself, that some cells have no types; it is there only beside the problems of these
cells, so the list is empty just where no cell has a fault (`Analysis.listing_eq_nil_iff`).

Each of the three messages starts with a mark of its own, in color as well as without, so a text is
never two of them (`Report.Message.text_append_injective`). -/

namespace TypingsAudit

/-! ## Cells with a fault -/

namespace CellResult

/-- The table of problems has something for the cell: there is code and there are no types, or types
    and no code, or a row about two files applies to those that are found. -/
inductive HasFault (tree : FileTree) (result : CellResult) : Prop
  | untyped {reason : NotFoundReason} {code : Resolved} (htypes : result.types = .notFound reason)
      (hcode : result.runtime = .found code) : HasFault tree result
  | unbuilt {types : Resolved} {reason : NotFoundReason} (htypes : result.types = .found types)
      (hcode : result.runtime = .notFound reason) : HasFault tree result
  | row {types code : Resolved} {f : Finding} (htypes : result.types = .found types)
      (hcode : result.runtime = .found code)
      (hf : Finding.Applies tree result.cell.kind types code f) : HasFault tree result

variable {tree : FileTree} {result : CellResult}

/-- A cell has problems just where the table has something for it. -/
theorem problems_ne_nil_iff : result.problems tree ≠ [] ↔ result.HasFault tree := by
  rw [problems, ne_eq, List.map_eq_nil_iff]
  obtain ⟨cell, types, code⟩ := result
  cases types with
  | notFound reason =>
      cases code with
      | notFound _ =>
          refine iff_of_false (by simp [findings]) ?_
          rintro (⟨-, ⟨⟩⟩ | ⟨⟨⟩, -⟩ | ⟨⟨⟩, -, -⟩)
      | found code => exact iff_of_true (by simp [findings]) (.untyped rfl rfl)
  | found types =>
      cases code with
      | notFound reason => exact iff_of_true (by simp [findings]) (.unbuilt rfl rfl)
      | found code =>
          rw [findings_of_found rfl rfl, List.eq_nil_iff_forall_not_mem, not_forall_not]
          simp only [Finding.mem_ofFiles_iff]
          constructor
          · rintro ⟨f, hf⟩
            exact .row rfl rfl hf
          · rintro (⟨⟨⟩, -⟩ | ⟨-, ⟨⟩⟩ | ⟨⟨⟩, ⟨⟩, hf⟩)
            exact ⟨_, hf⟩

theorem problems_ne_nil_of_isUntyped (tree : FileTree) (h : result.isUntyped = true) :
    result.problems tree ≠ [] := by
  rw [problems_ne_nil_iff]
  obtain ⟨cell, types, code⟩ := result
  obtain ⟨hcode, htypes⟩ := Bool.and_eq_true_iff.1 h
  cases types with
  | found _ => cases htypes
  | notFound reason =>
      cases code with
      | notFound _ => cases hcode
      | found code => exact .untyped rfl rfl

end CellResult

namespace Analysis

/-- The problem about the package comes only with problems of its cells. -/
theorem listing_eq_nil_iff {tree : FileTree} {untyped : CellResult → Problem}
    {results : List CellResult} :
    listing tree untyped results = [] ↔ ∀ result ∈ results, result.problems tree = [] := by
  induction results with
  | nil => simp [listing]
  | cons result rest ih =>
      rw [listing, List.forall_mem_cons]
      split
      · next huntyped =>
          have hproblems := CellResult.problems_ne_nil_of_isUntyped tree huntyped
          simp [hproblems]
      · rw [List.append_eq_nil_iff, ih]

variable (tree : FileTree) (manifest : Manifest) (options : AnalysisOptions)

theorem containsTypes_eq_true_iff :
    (ofPackage tree manifest options).containsTypes = true ↔
      ∃ result ∈ (ofPackage tree manifest options).resolutions, result.types.isFound = true :=
  List.any_eq_true

theorem containsTypes_eq_false_iff :
    (ofPackage tree manifest options).containsTypes = false ↔
      ∀ result ∈ (ofPackage tree manifest options).resolutions, result.types.isFound = false := by
  simp only [← Bool.not_eq_true, containsTypes_eq_true_iff, not_exists, not_and]

/-- **A package has problems where some cell has types and some cell has a fault.** -/
theorem problems_ne_nil_iff :
    (ofPackage tree manifest options).problems ≠ [] ↔
      (∃ result ∈ (ofPackage tree manifest options).resolutions, result.types.isFound = true) ∧
        ∃ result ∈ (ofPackage tree manifest options).resolutions, result.HasFault tree := by
  rw [ofPackage_problems_eq, ← containsTypes_eq_true_iff]
  have hfaults : ∀ results : List CellResult, listing tree (untypedAt results) results ≠ [] ↔
      ∃ result ∈ results, result.HasFault tree := by
    intro results
    rw [ne_eq, listing_eq_nil_iff, not_forall]
    simp only [not_forall, exists_prop, ← CellResult.problems_ne_nil_iff, ne_eq]
  split
  · next htyped => exact (hfaults _).trans (and_iff_right htyped).symm
  · next huntyped => simp [huntyped]

end Analysis

/-! ## Messages -/

namespace Report

/-- The messages about an analysis. -/
inductive Message where
  | untyped
  | noProblems
  | problems
  deriving DecidableEq, Repr

namespace Message

variable (painter : Painter) (analysis : Analysis) (summary : Bool)

def text : Message → String
  | .untyped => untypedMessage painter analysis
  | .noProblems => noProblemsMessage painter analysis
  | .problems => Report.problems painter analysis summary

/-- The message that an analysis calls for. -/
def ofAnalysis : Message :=
  if !analysis.containsTypes then .untyped
  else if analysis.problems.isEmpty then .noProblems
  else .problems

theorem message_eq : message painter analysis summary
    = (ofAnalysis analysis).text painter analysis summary := by
  unfold message ofAnalysis
  split
  · rfl
  · split <;> rfl

/-- What a message starts with. -/
def mark : Message → String
  | .untyped => painter.paint .boldBlue "ℹ"
  | .noProblems => painter.paint .boldGreen "✓"
  | .problems => painter.paint .boldYellow "⚠"

theorem exists_text_eq (message : Message) :
    ∃ rest, message.text painter analysis summary = message.mark painter ++ rest := by
  have hlines : ∀ (first : String) (rest more : List String),
      ∃ text, unlines ([first] ++ rest ++ more) = first ++ text := by
    intro first rest more
    refine ⟨"\n" ++ unlines (rest ++ more), ?_⟩
    simp [unlines, String.append_assoc]
  cases message with
  | untyped =>
      obtain ⟨rest, h⟩ := hlines (painter.paint .boldBlue "ℹ" ++ " " ++
        paintedLabel painter analysis ++ " does not contain types") [] []
      exact ⟨_, h.trans (by simp only [String.append_assoc]; rfl)⟩
  | noProblems =>
      obtain ⟨rest, h⟩ := hlines (painter.paint .boldGreen "✓" ++ " No problems found in " ++
        paintedLabel painter analysis ++ s!" ({analysis.entryPoints.length} entry points)") [] []
      exact ⟨_, h.trans (by simp only [String.append_assoc]; rfl)⟩
  | problems =>
      obtain ⟨rest, h⟩ := hlines (painter.paint .boldYellow "⚠" ++ " Problems found in " ++
        paintedLabel painter analysis) _ _
      exact ⟨_, h.trans (by simp only [String.append_assoc]; rfl)⟩

theorem utf8ByteSize_mark_eq (painter : Painter) (message other : Message) :
    (message.mark painter).utf8ByteSize = (other.mark painter).utf8ByteSize := by
  obtain ⟨colors⟩ := painter
  cases colors <;> cases message <;> cases other <;> decide +kernel

theorem mark_injective (painter : Painter) : Function.Injective (mark painter) := by
  intro message other
  obtain ⟨colors⟩ := painter
  cases colors <;> cases message <;> cases other <;> decide +kernel

/-- Texts of two messages differ, whatever follows them. -/
theorem text_append_injective {message other : Message} {more more' : String}
    (h : message.text painter analysis summary ++ more
      = other.text painter analysis summary ++ more') : message = other := by
  obtain ⟨rest, hrest⟩ := exists_text_eq painter analysis summary message
  obtain ⟨rest', hrest'⟩ := exists_text_eq painter analysis summary other
  rw [hrest, hrest', String.append_assoc, String.append_assoc] at h
  exact mark_injective painter (Text.eq_of_append_eq h (utf8ByteSize_mark_eq ..)).1

variable {analysis}

theorem ofAnalysis_eq_untyped_iff :
    ofAnalysis analysis = .untyped ↔ analysis.containsTypes = false := by
  unfold ofAnalysis
  cases analysis.containsTypes <;> cases analysis.problems.isEmpty <;> simp

theorem ofAnalysis_eq_problems_iff :
    ofAnalysis analysis = .problems ↔ analysis.containsTypes = true ∧ analysis.problems ≠ [] := by
  rw [ne_eq, ← List.isEmpty_iff]
  unfold ofAnalysis
  cases analysis.containsTypes <;> cases analysis.problems.isEmpty <;> simp

end Message

end Report

namespace CommandLine

/-! ## Packages with and without an analysis -/

/-- A package loads as a tree, and the manifest in its root can be read. -/
structure Readable (task : Invocation) (found : Option DiskEntry) (tree : FileTree)
    (manifest : Manifest) : Prop where
  loads : FileTree.load task.package found = .ok tree
  has_manifest : ∃ file, tree.file? Manifest.fileName = some file ∧
    Manifest.parse file.contents = .ok manifest

/-- Why a package has no analysis: it does not load, or there is no manifest in its root, or the
    manifest is rejected. -/
inductive Fails (task : Invocation) (found : Option DiskEntry) : Failure → Prop
  | unloaded {error : LoadError} (hload : FileTree.load task.package found = .error error) :
      Fails task found (.loading error)
  | noManifest {tree : FileTree} (hload : FileTree.load task.package found = .ok tree)
      (hfile : tree.file? Manifest.fileName = none) :
      Fails task found (.analysis task.package .missing)
  | badManifest {tree : FileTree} {file : File} {error : Manifest.Error}
      (hload : FileTree.load task.package found = .ok tree)
      (hfile : tree.file? Manifest.fileName = some file)
      (hmanifest : Manifest.parse file.contents = .error error) :
      Fails task found (.analysis task.package error)

variable {task : Invocation} {found : Option DiskEntry} {tree : FileTree} {manifest : Manifest}

theorem Readable.examine_eq (h : Readable task found tree manifest) :
    examine task found = .ok ⟨tree, Analysis.ofPackage tree manifest task.options⟩ := by
  obtain ⟨hload, file, hfile, hmanifest⟩ := h
  simp only [examine, hload, Analysis.ofFiles, hfile, hmanifest, Except.mapError, bind, Except.bind]
  rfl

theorem Fails.examine_eq {failure : Failure} (h : Fails task found failure) :
    examine task found = .error failure := by
  cases h with
  | unloaded hload => simp only [examine, hload, Except.mapError, bind, Except.bind]
  | noManifest hload hfile =>
      simp only [examine, hload, Analysis.ofFiles, hfile, Except.mapError, bind, Except.bind]
  | badManifest hload hfile hmanifest =>
      simp only [examine, hload, Analysis.ofFiles, hfile, hmanifest, Except.mapError, bind,
        Except.bind]

/-- A package has an analysis or a reason to have none. -/
theorem readable_or_fails (task : Invocation) (found : Option DiskEntry) :
    (∃ tree manifest, Readable task found tree manifest) ∨ ∃ failure, Fails task found failure := by
  cases hload : FileTree.load task.package found with
  | error error => exact .inr ⟨_, .unloaded hload⟩
  | ok tree =>
      cases hfile : tree.file? Manifest.fileName with
      | none => exact .inr ⟨_, .noManifest hload hfile⟩
      | some file =>
          cases hmanifest : Manifest.parse file.contents with
          | error error => exact .inr ⟨_, .badManifest hload hfile hmanifest⟩
          | ok manifest => exact .inl ⟨tree, manifest, hload, file, hfile, hmanifest⟩

theorem Readable.not_fails (h : Readable task found tree manifest) {failure : Failure} :
    ¬ Fails task found failure := by
  intro hfails
  have hexamine := h.examine_eq.symm.trans hfails.examine_eq
  cases hexamine

theorem Failure.report_ne_empty (failure : Failure) : failure.report ≠ "" := by
  simp [report]

/-! ## Status and message -/

variable {setting : Setting}

/-- The text is a message about a package, and the line that ends it. -/
def Prints (task : Invocation) (setting : Setting) (examined : Examination) (text : String)
    (message : Report.Message) : Prop :=
  text = message.text setting.painter examined.analysis task.summary ++
    Report.unlines ["", finishLine setting examined.tree.files.length]

theorem prints_output_iff {examined : Examination} (hraw : task.raw = false)
    {message : Report.Message} :
    Prints task setting examined (output task setting examined) message ↔
      Report.Message.ofAnalysis examined.analysis = message := by
  rw [Prints, output, hraw, if_neg Bool.false_ne_true, Report.Message.message_eq]
  constructor
  · exact Report.Message.text_append_injective _ _ _
  · rintro rfl
    rfl

/-- The status is decided as the message is. -/
theorem exitStatus_eq (analysis : Analysis) :
    exitStatus analysis
      = if Report.Message.ofAnalysis analysis = .problems then 1 else 0 := by
  rw [exitStatus]
  simp only [Report.Message.ofAnalysis_eq_problems_iff, Bool.and_eq_true, Bool.not_eq_true',
    List.isEmpty_eq_false_iff]

theorem exitStatus_eq_one_iff {analysis : Analysis} :
    exitStatus analysis = 1 ↔ Report.Message.ofAnalysis analysis = .problems := by
  rw [exitStatus_eq]
  split <;> simp [*]

theorem exitStatus_eq_zero_iff {analysis : Analysis} :
    exitStatus analysis = 0 ↔ Report.Message.ofAnalysis analysis ≠ .problems := by
  rw [exitStatus_eq]
  split <;> simp [*]

/-- The outcome of a run agrees with the analysis of its package. -/
structure Agrees (task : Invocation) (setting : Setting) (examined : Examination)
    (outcome : Outcome) : Prop where
  errors : outcome.errors = ""
  status : outcome.status = 0 ∨ outcome.status = 1
  status_iff : outcome.status = 1 ↔
    (∃ result ∈ examined.analysis.resolutions, result.types.isFound = true) ∧
      ∃ result ∈ examined.analysis.resolutions, result.HasFault examined.tree
  message : task.raw = false → ∃! message, Prints task setting examined outcome.output message
  untyped_iff : task.raw = false → (Prints task setting examined outcome.output .untyped ↔
    ∀ result ∈ examined.analysis.resolutions, result.types.isFound = false)
  problems_iff : task.raw = false →
    (Prints task setting examined outcome.output .problems ↔ outcome.status = 1)
  noProblems_iff : task.raw = false → (Prints task setting examined outcome.output .noProblems ↔
    (∃ result ∈ examined.analysis.resolutions, result.types.isFound = true) ∧ outcome.status = 0)

theorem agrees_conclude (task : Invocation) (setting : Setting) (tree : FileTree)
    (manifest : Manifest) :
    let examined : Examination := ⟨tree, Analysis.ofPackage tree manifest task.options⟩
    Agrees task setting examined (conclude task setting (.ok examined)) := by
  intro examined
  have hprints (hraw : task.raw = false) (message : Report.Message) :
      Prints task setting examined (output task setting examined) message ↔
        Report.Message.ofAnalysis examined.analysis = message := prints_output_iff hraw
  have htyped : examined.analysis.containsTypes = true ↔ _ :=
    Analysis.containsTypes_eq_true_iff tree manifest task.options
  have hproblems : examined.analysis.problems ≠ [] ↔ _ :=
    Analysis.problems_ne_nil_iff tree manifest task.options
  have hstatus : (conclude task setting (.ok examined)).status = exitStatus examined.analysis := rfl
  refine
    { errors := rfl
      status := ?_
      status_iff := ?_
      message := fun hraw => ⟨_, (hprints hraw _).2 rfl, fun _ h => ((hprints hraw _).1 h).symm⟩
      untyped_iff := fun hraw => ?_
      problems_iff := fun hraw => (hprints hraw _).trans exitStatus_eq_one_iff.symm
      noProblems_iff := fun hraw => ?_ }
  · rw [hstatus, exitStatus_eq_zero_iff, exitStatus_eq_one_iff]
    exact (em _).symm
  · rw [← hproblems]
    refine exitStatus_eq_one_iff.trans (Report.Message.ofAnalysis_eq_problems_iff.trans ?_)
    exact and_iff_right_of_imp fun h => htyped.2 (hproblems.1 h).1
  · rw [← Analysis.containsTypes_eq_false_iff]
    exact (hprints hraw _).trans Report.Message.ofAnalysis_eq_untyped_iff
  · rw [← htyped, hstatus, exitStatus_eq_zero_iff, ← Bool.not_eq_false,
      ← Report.Message.ofAnalysis_eq_untyped_iff]
    refine (hprints hraw _).trans ?_
    cases Report.Message.ofAnalysis examined.analysis <;> decide

/-! ## Runs -/

theorem run_of_parse {find : String → Option DiskEntry} {arguments : List String}
    (h : parse arguments = .ok task) :
    run setting find arguments = conclude task setting (examine task (find task.package)) := by
  rw [run, h]

/-- How a result is printed does not matter to the status. -/
theorem status_run_congr {setting' : Setting} {find : String → Option DiskEntry}
    {arguments arguments' : List String} {task' : Invocation} (h : parse arguments = .ok task)
    (h' : parse arguments' = .ok task') (hpackage : task'.package = task.package)
    (hoptions : task'.options = task.options) :
    (run setting' find arguments').status = (run setting find arguments).status := by
  have hexamine : examine task' (find task'.package) = examine task (find task.package) := by
    rw [examine, examine, hpackage, hoptions]
  rw [run_of_parse h, run_of_parse h', hexamine]
  cases examine task (find task.package) <;> rfl

/-- **The status, the message and the analysis agree.** A run fails with the status 1 and an error
    where the package has no analysis. Else it prints no error; its status is 1 where some cell has
    types and some cell has a fault, and it prints the message that says so. The flags that say how
    a result is printed do not change the status. -/
theorem run_agrees_with_analysis (setting : Setting) (find : String → Option DiskEntry)
    {arguments : List String} {task : Invocation} (h : parse arguments = .ok task) :
    let found := find task.package
    let outcome := run setting find arguments
    (outcome.status = 1 ∧ outcome.errors ≠ "" ↔ ∃ failure, Fails task found failure) ∧
    (∀ failure, Fails task found failure → outcome = ⟨1, "", failure.report⟩) ∧
    ((¬ ∃ failure, Fails task found failure) ↔ ∃ tree manifest, Readable task found tree manifest) ∧
    (∀ tree manifest, Readable task found tree manifest →
      Agrees task setting ⟨tree, Analysis.ofPackage tree manifest task.options⟩ outcome) ∧
    (∀ setting' arguments' task', parse arguments' = .ok task' → task'.package = task.package →
      task'.options = task.options → (run setting' find arguments').status = outcome.status) ∧
    (∀ flag : Flag, flag.isSet task = false →
      parse (flag.argument :: arguments) = .ok (flag.set task) ∧
      (run setting find (flag.argument :: arguments)).status = outcome.status) := by
  intro found outcome
  have hfails (failure : Failure) (hfailure : Fails task found failure) :
      outcome = ⟨1, "", failure.report⟩ := by
    rw [show outcome = _ from run_of_parse h, hfailure.examine_eq]
    rfl
  have hagrees (tree : FileTree) (manifest : Manifest)
      (hreadable : Readable task found tree manifest) :
      Agrees task setting ⟨tree, Analysis.ofPackage tree manifest task.options⟩ outcome := by
    rw [show outcome = _ from run_of_parse h, hreadable.examine_eq]
    exact agrees_conclude task setting tree manifest
  have hcases := readable_or_fails task found
  refine ⟨⟨?_, ?_⟩, hfails, ⟨hcases.resolve_right, ?_⟩, hagrees, ?_, ?_⟩
  · rintro ⟨-, herrors⟩
    refine hcases.resolve_left ?_
    rintro ⟨tree, manifest, hreadable⟩
    exact herrors (hagrees tree manifest hreadable).errors
  · rintro ⟨failure, hfailure⟩
    rw [hfails failure hfailure]
    exact ⟨rfl, failure.report_ne_empty⟩
  · rintro ⟨tree, manifest, hreadable⟩ ⟨failure, hfailure⟩
    exact hreadable.not_fails hfailure
  · intro setting' arguments' task' h' hpackage hoptions
    exact status_run_congr h h' hpackage hoptions
  · intro flag hnot
    have hparse := Flag.parse_cons h hnot
    exact ⟨hparse, status_run_congr h hparse (by cases flag <;> rfl) (by cases flag <;> rfl)⟩

/-- Declarations without code, looked at with and without the flags, and a path where nothing is. -/
theorem declarations_without_code_set_status :
    let folder : DiskEntry :=
      .directory [("package.json", .file [123, 125]), ("index.d.ts", .file [])]
    let tree := (FileTree.empty.insert "package.json" [123, 125]).insert "index.d.ts" []
    let manifest : Manifest := ⟨none, none, none, none, none, none, none, none⟩
    let task : Invocation := ⟨"pkg", false, true, ⟨[], []⟩⟩
    let setting : Setting := ⟨.plain, "12", 1⟩
    let examined : Examination := ⟨tree, Analysis.ofPackage tree manifest task.options⟩
    let result : CellResult :=
      ⟨⟨".", .node10⟩, .found ⟨"index.d.ts", .cjs, true, false⟩, .notFound .fileNotFound⟩
    let outcome := run setting (fun _ => some folder)
    result ∈ examined.analysis.resolutions ∧
    (outcome ["pkg"]).status = 1 ∧ (outcome ["pkg"]).errors = "" ∧
    Prints task setting examined (outcome ["pkg"]).output .problems ∧
    (outcome ["--raw", "pkg"]).status = 1 ∧ (outcome ["--no-summary", "pkg"]).status = 1 ∧
    run setting (fun _ => none) ["pkg"]
      = ⟨1, "", "Error: pkg is neither a package directory nor a .tgz tarball\n"⟩ := by
  intro folder tree manifest task setting examined result outcome
  have hparse : parse ["pkg"] = .ok task := rfl
  obtain ⟨-, -, -, hagrees, -, hflags⟩ :=
    run_agrees_with_analysis setting (fun _ => some folder) hparse
  obtain ⟨-, hfails, -⟩ := run_agrees_with_analysis setting (fun _ => none) hparse
  have hreadable : Readable task (some folder) tree manifest :=
    ⟨rfl, ⟨"package.json", [123, 125]⟩, by decide +kernel, rfl⟩
  have hagrees := hagrees tree manifest hreadable
  have hresult : result ∈ examined.analysis.resolutions := by decide +kernel
  have hstatus : (outcome ["pkg"]).status = 1 :=
    hagrees.status_iff.2 ⟨⟨result, hresult, rfl⟩, result, hresult, .unbuilt rfl rfl⟩
  exact ⟨hresult, hstatus, hagrees.errors, (hagrees.problems_iff rfl).2 hstatus,
    (hflags .raw rfl).2.trans hstatus, (hflags .noSummary rfl).2.trans hstatus,
    hfails _ (.unloaded rfl)⟩

end CommandLine

end TypingsAudit
