import TypingsAudit.Proofs.Data
import TypingsAudit.Proofs.Json.RoundTrip
import TypingsAudit.Report.Raw

set_option autoImplicit false

/-! # Reading a report back

The report for programs loses nothing: `Report.Raw.readAnalysis` recovers an analysis from the value
of its report, and the value is recovered from the text, so two analyses never have the same report.

Each kind of record has a reader that looks its members up by their keys. A reader of a record with
a tag looks at the tag first; the keys of the tag and of what it is put together with differ. -/

namespace TypingsAudit.Report.Raw

/-! ## Readers -/

/-- The member of an object with the given key. -/
def field? (key : String) (v : Json) : Option Json :=
  v.members?.bind (·.get? key)

def readBool : Json → Option Bool
  | .bool b => some b
  | _ => none

def readOptional : Json → Option (Option String)
  | .null => some none
  | .string s => some (some s)
  | _ => none

def readList {α : Type} (read : Json → Option α) : Json → Option (List α)
  | .array items => items.mapM read
  | _ => none

/-- One of finitely many values, by its name. -/
def readName {α : Type} (values : List α) (name : α → String) (v : Json) : Option α :=
  v.string?.bind fun s => values.find? fun a => name a == s

def readKind : Json → Option ResolutionKind :=
  readName ResolutionKind.all (·.name)

def readFormat : Json → Option ModuleFormat :=
  readName [.esm, .cjs, .unknown] (·.name)

def readReason : Json → Option NotFoundReason :=
  readName
    [.packageNotFound, .subpathNotExported, .noActiveCondition, .invalidTarget, .fileNotFound,
     .notADeclaration, .directoryImport]
    (·.name)

def readSource : Json → Option MismatchSource :=
  readName [.typesVsRuntime, .declaredVsSyntax] (·.name)

def readProblemKind : Json → Option ProblemKind :=
  readName ProblemKind.all (·.name)

def readEntryPoint (v : Json) : Option EntryPoint := do
  let subpath ← (← field? "subpath" v).string?
  let isPattern ← readBool (← field? "isPattern" v)
  let kinds ← readList readKind (← field? "resolutionKinds" v)
  return { subpath, isPattern, kinds }

def readResolution (v : Json) : Option Resolution := do
  let status ← (← field? "status" v).string?
  if status = "found" then
    let path ← (← field? "path" v).string?
    let format ← readFormat (← field? "moduleFormat" v)
    let isDeclaration ← readBool (← field? "isDeclaration" v)
    let usedFallback ← readBool (← field? "usedFallbackCondition" v)
    return .found { path, format, isDeclaration, usedFallback }
  else if status = "notFound" then
    return .notFound (← readReason (← field? "reason" v))
  else none

def readCell (v : Json) : Option Cell := do
  let entryPoint ← (← field? "entryPoint" v).string?
  let kind ← readKind (← field? "resolutionKind" v)
  return { entryPoint, kind }

def readCellResult (v : Json) : Option CellResult := do
  let cell ← readCell v
  let types ← readResolution (← field? "types" v)
  let runtime ← readResolution (← field? "runtime" v)
  return { cell, types, runtime }

def readDetails (v : Json) : Option ProblemDetails := do
  let type ← (← field? "type" v).string?
  if type = "none" then return .none
  else if type = "resolutionFailure" then
    return .resolutionFailure (← readReason (← field? "reason" v))
  else if type = "formatMismatch" then
    let source ← readSource (← field? "source" v)
    let expected ← readFormat (← field? "expected" v)
    let actual ← readFormat (← field? "actual" v)
    return .formatMismatch source expected actual
  else if type = "missingExports" then
    return .missingExports (← readList Json.string? (← field? "names" v))
  else if type = "untypedCells" then
    return .untypedCells (← readList readCell (← field? "cells" v))
  else none

def readProblem (v : Json) : Option Problem := do
  let kind ← readProblemKind (← field? "kind" v)
  let cell ← readCell v
  let typesPath ← readOptional (← field? "typesPath" v)
  let runtimePath ← readOptional (← field? "runtimePath" v)
  let details ← readDetails (← field? "details" v)
  return { kind, cell, typesPath, runtimePath, details }

def readAnalysis (v : Json) : Option Analysis := do
  let packageName ← readOptional (← field? "packageName" v)
  let packageVersion ← readOptional (← field? "packageVersion" v)
  let containsTypes ← readBool (← field? "containsTypes" v)
  let entryPoints ← readList readEntryPoint (← field? "entryPoints" v)
  let resolutions ← readList readCellResult (← field? "resolutions" v)
  let problems ← readList readProblem (← field? "problems" v)
  return { packageName, packageVersion, containsTypes, entryPoints, resolutions, problems }

def readGroup (m : String × Json) : Option (ProblemKind × List Problem) := do
  let kind ← readProblemKind (.string m.1)
  let group ← readList readProblem m.2
  return (kind, group)

def readGroups (v : Json) : Option (List (ProblemKind × List Problem)) :=
  v.members?.bind (·.mapM readGroup)

/-! ## What is written is read back -/

theorem readList_map {α : Type} {read : Json → Option α} {write : α → Json} (items : List α)
    (h : ∀ a, read (write a) = some a) : readList read (.array (items.map write)) = some items :=
  mapM_map_eq_some items h

@[simp]
theorem readOptional_optional (text : Option String) : readOptional (optional text) = some text := by
  cases text <;> rfl

@[simp]
theorem readKind_name (kind : ResolutionKind) : readKind (.string kind.name) = some kind := by
  cases kind <;> decide

@[simp]
theorem readFormat_name (format : ModuleFormat) :
    readFormat (.string format.name) = some format := by
  cases format <;> decide

@[simp]
theorem readReason_name (reason : NotFoundReason) :
    readReason (.string reason.name) = some reason := by
  cases reason <;> decide

@[simp]
theorem readSource_name (source : MismatchSource) :
    readSource (.string source.name) = some source := by
  cases source <;> decide

@[simp]
theorem readProblemKind_name (kind : ProblemKind) :
    readProblemKind (.string kind.name) = some kind := by
  cases kind <;> decide

@[simp]
theorem readTexts (items : List String) : readList Json.string? (texts items) = some items :=
  readList_map items fun _ => rfl

@[simp]
theorem readEntryPoint_entryPoint (entry : EntryPoint) :
    readEntryPoint (entryPoint entry) = some entry := by
  have hkinds : readList readKind (texts (entry.kinds.map (·.name))) = some entry.kinds := by
    rw [texts, List.map_map]
    exact readList_map entry.kinds readKind_name
  simp [readEntryPoint, entryPoint, field?, Json.members?, Json.Members.get?, Json.string?, readBool,
    hkinds]

@[simp]
theorem readResolution_resolution (r : Resolution) : readResolution (resolution r) = some r := by
  cases r with
  | found file =>
      simp [readResolution, resolution, field?, Json.members?, Json.Members.get?, Json.string?,
        readBool]
  | notFound reason =>
      simp [readResolution, resolution, field?, Json.members?, Json.Members.get?, Json.string?]

/-- The members of a cell are read, whatever stands around them. -/
theorem readCell_members {members : Json.Members} {cell : Cell}
    (hentry : members.get? "entryPoint" = some (.string cell.entryPoint))
    (hkind : members.get? "resolutionKind" = some (.string cell.kind.name)) :
    readCell (.object members) = some cell := by
  simp [readCell, field?, Json.members?, hentry, hkind, Json.string?]

@[simp]
theorem readCellResult_cellResult (result : CellResult) :
    readCellResult (cellResult result) = some result := by
  have hcell : readCell (cellResult result) = some result.cell := readCell_members rfl rfl
  simp only [readCellResult, hcell]
  simp [cellResult, cellMembers, field?, Json.members?, Json.Members.get?]

@[simp]
theorem readDetails_details (details : ProblemDetails) :
    readDetails (.object (("type", .string details.name) :: detailMembers details))
      = some details := by
  cases details with
  | untypedCells cells =>
      have hcells : readList readCell (.array (cells.map fun cell => .object (cellMembers cell)))
          = some cells := readList_map cells fun cell => readCell_members rfl rfl
      simp [readDetails, detailMembers, ProblemDetails.name, field?, Json.members?,
        Json.Members.get?, Json.string?, hcells]
  | _ =>
      simp [readDetails, detailMembers, ProblemDetails.name, field?, Json.members?,
        Json.Members.get?, Json.string?]

@[simp]
theorem readProblem_problem (p : Problem) : readProblem (problem p) = some p := by
  have hcell : readCell (problem p) = some p.cell := readCell_members rfl rfl
  simp only [readProblem, hcell]
  simp [problem, cellMembers, field?, Json.members?, Json.Members.get?]

theorem readAnalysis_analysis (a : Analysis) : readAnalysis (analysis a) = some a := by
  have hentries := readList_map a.entryPoints readEntryPoint_entryPoint
  have hresolutions := readList_map a.resolutions readCellResult_cellResult
  have hproblems := readList_map a.problems readProblem_problem
  simp [readAnalysis, analysis, field?, Json.members?, Json.Members.get?, readBool, hentries,
    hresolutions, hproblems]

theorem readGroups_groups (problems : List Problem) :
    readGroups (groups problems) = some (Problem.groupByKind problems) := by
  refine mapM_map_eq_some (Problem.groupByKind problems) fun (kind, group) => ?_
  simp [readGroup, readList_map group readProblem_problem]

/-! ## A report is a text -/

open Json (Textual)

theorem textual_optional (depth : Nat) (text : Option String) : Textual depth (optional text) := by
  cases text with
  | none => exact .null
  | some text => exact .string text

theorem textual_list {α : Type} {depth : Nat} {write : α → Json} (h : ∀ a, Textual depth (write a))
    (items : List α) : Textual (depth + 1) (.array (items.map write)) := by
  refine .array fun v hv => ?_
  obtain ⟨a, -, rfl⟩ := List.mem_map.1 hv
  exact h a

theorem textual_texts (depth : Nat) (items : List String) : Textual (depth + 1) (texts items) :=
  textual_list (fun s => .string s) items

theorem textual_entryPoint (entry : EntryPoint) : Textual 2 (entryPoint entry) := by
  refine .object (by simp) ?_
  simp only [List.forall_mem_cons]
  exact ⟨.string _, .bool _, textual_texts 0 _, by simp⟩

theorem textual_resolution (r : Resolution) : Textual 1 (resolution r) := by
  cases r with
  | found file =>
      refine .object (by simp) ?_
      simp only [List.forall_mem_cons]
      exact ⟨.string _, .string _, .string _, .bool _, .bool _, by simp⟩
  | notFound reason =>
      refine .object (by simp) ?_
      simp only [List.forall_mem_cons]
      exact ⟨.string _, .string _, by simp⟩

theorem textual_cellResult (result : CellResult) : Textual 2 (cellResult result) := by
  refine .object (by simp [cellMembers]) ?_
  simp only [cellMembers, List.cons_append, List.nil_append, List.forall_mem_cons]
  exact ⟨.string _, .string _, textual_resolution _, textual_resolution _, by simp⟩

theorem textual_cell (cell : Cell) : Textual 1 (.object (cellMembers cell)) := by
  refine .object (by simp [cellMembers]) ?_
  simp only [cellMembers, List.forall_mem_cons]
  exact ⟨.string _, .string _, by simp⟩

theorem textual_details (details : ProblemDetails) :
    Textual 3 (.object (("type", .string details.name) :: detailMembers details)) := by
  have hkeys : ((("type", Json.string details.name) :: detailMembers details).map (·.1)).Nodup := by
    cases details <;> simp [detailMembers]
  refine .object hkeys (List.forall_mem_cons.2 ⟨.string _, ?_⟩)
  cases details <;> simp only [detailMembers, List.forall_mem_cons]
  case none => simp
  case resolutionFailure reason => exact ⟨.string _, by simp⟩
  case formatMismatch source expected actual => exact ⟨.string _, .string _, .string _, by simp⟩
  case missingExports names => exact ⟨textual_texts 1 _, by simp⟩
  case untypedCells cells => exact ⟨textual_list textual_cell cells, by simp⟩

theorem textual_problem (p : Problem) : Textual 4 (problem p) := by
  refine .object (by simp [cellMembers]) ?_
  simp only [cellMembers, List.cons_append, List.nil_append, List.forall_mem_cons]
  exact ⟨.string _, .string _, .string _, textual_optional _ _, textual_optional _ _,
    textual_details _, by simp⟩

theorem textual_analysis (a : Analysis) : Textual 6 (analysis a) := by
  refine .object (by simp) ?_
  simp only [List.forall_mem_cons]
  exact ⟨textual_optional _ _, textual_optional _ _, .bool _,
    (textual_list textual_entryPoint _).mono (by decide),
    (textual_list textual_cellResult _).mono (by decide), textual_list textual_problem _, by simp⟩

/-- The kinds with problems, in the order of all kinds. -/
theorem sublist_groupByKind (problems : List Problem) :
    ((Problem.groupByKind problems).map (·.1)).Sublist ProblemKind.all := by
  have h := (List.filter_sublist (p := fun g : ProblemKind × List Problem => !g.2.isEmpty)
    (l := ProblemKind.all.map fun kind => (kind, problems.filter (·.kind = kind)))).map (·.1)
  rw [List.map_map] at h
  exact h

theorem nodup_keys_groups (problems : List Problem) :
    (((Problem.groupByKind problems).map fun (kind, group) =>
      (kind.name, Json.array (group.map problem))).map (·.1)).Nodup := by
  have hnames : (ProblemKind.all.map (·.name)).Nodup := by decide
  have h := hnames.sublist ((sublist_groupByKind problems).map (·.name))
  rw [List.map_map] at h ⊢
  exact h

theorem mem_groupByKind_iff {problems group : List Problem} {kind : ProblemKind} :
    (kind, group) ∈ Problem.groupByKind problems ↔
      group = problems.filter (·.kind = kind) ∧ group ≠ [] := by
  rw [Problem.groupByKind, List.mem_filter, List.mem_map]
  constructor
  · rintro ⟨⟨kind, -, heq⟩, hne⟩
    obtain ⟨rfl, rfl⟩ := Prod.mk.inj heq
    exact ⟨rfl, by simpa using hne⟩
  · rintro ⟨rfl, hne⟩
    exact ⟨⟨kind, ProblemKind.mem_all kind, rfl⟩, by simpa using hne⟩

theorem textual_groups (problems : List Problem) : Textual 6 (groups problems) := by
  refine .object (nodup_keys_groups problems) fun m hm => ?_
  obtain ⟨⟨kind, group⟩, -, rfl⟩ := List.mem_map.1 hm
  exact textual_list textual_problem group

theorem textual_toJson (a : Analysis) : Textual 7 (toJson a) := by
  unfold toJson
  split
  · refine .object (by simp) ?_
    simp only [List.forall_mem_cons]
    exact ⟨textual_analysis a, textual_groups _, by simp⟩
  · refine .object (by simp) ?_
    simp only [List.forall_mem_cons]
    exact ⟨textual_analysis a, by simp⟩

/-- The bytes of a report are read as its value, with and without its last line break. -/
theorem parse_text (a : Analysis) :
    Json.parse (Bytes.ofString (toJson a).pretty) = .ok (toJson a) ∧
      Json.parse (Bytes.ofString (text a)) = .ok (toJson a) := by
  have hbreak : Bytes.ofString "\n" = [0x0A] := by
    rw [Bytes.ofString_eq_flatMap]
    decide
  have hread {space : Bytes} (h : Json.Reader.IsSpace space) :=
    Json.parse_pretty (textual_toJson a) (by decide) h
  constructor
  · rw [← List.append_nil (Bytes.ofString _)]
    exact hread (by simp [Json.Reader.IsSpace])
  · rw [text, Bytes.ofString_append, hbreak]
    exact hread (by simp [Json.Reader.IsSpace, Json.Reader.isSpace])

theorem field?_toJson_analysis (a : Analysis) : field? "analysis" (toJson a) = some (analysis a) := by
  simp [toJson, field?, Json.members?, Json.Members.get?]

theorem field?_toJson_problems (a : Analysis) :
    field? "problems" (toJson a) = if a.containsTypes then some (groups a.problems) else none := by
  cases h : a.containsTypes <;> simp [toJson, field?, Json.members?, Json.Members.get?, h]

/-- **A report can be read back.** Its text is one JSON document and a line break. Read strictly, the
    document has the whole analysis as a member, and the problems by kind as another one just when
    the package has types. So different analyses have different reports. -/
theorem text_reads_back :
    (∀ a : Analysis, ∃ document report,
      text a = document ++ "\n" ∧
      Json.parse (Bytes.ofString document) = .ok report ∧
      Json.parse (Bytes.ofString (text a)) = .ok report ∧
      (field? "analysis" report).bind readAnalysis = some a ∧
      (field? "problems" report).map readGroups =
        (if a.containsTypes then some (some (Problem.groupByKind a.problems)) else none) ∧
      ((Problem.groupByKind a.problems).map (·.1)).Sublist ProblemKind.all ∧
      ∀ kind group, (kind, group) ∈ Problem.groupByKind a.problems ↔
        group = a.problems.filter (·.kind = kind) ∧ group ≠ []) ∧
    Function.Injective text := by
  have hread : ∀ a, (field? "analysis" (toJson a)).bind readAnalysis = some a := by
    intro a
    rw [field?_toJson_analysis, Option.bind_some, readAnalysis_analysis]
  refine ⟨fun a => ⟨(toJson a).pretty, toJson a, rfl, (parse_text a).1, (parse_text a).2, hread a,
    ?_, sublist_groupByKind _, fun kind group => mem_groupByKind_iff⟩, fun a b heq => ?_⟩
  · rw [field?_toJson_problems]
    split
    · rw [Option.map_some, readGroups_groups]
    · rfl
  · -- Equal texts are read as one value, and one value holds one analysis.
    have hparse := (parse_text a).2
    rw [heq, (parse_text b).2] at hparse
    have hfield := hread a
    rw [← Except.ok.inj hparse, hread b] at hfield
    exact (Option.some.inj hfield).symm

end TypingsAudit.Report.Raw
