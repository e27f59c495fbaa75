import TypingsAudit.Proofs.Analysis.ProblemOrder
import TypingsAudit.Proofs.Analysis.Unparsable
import TypingsAudit.Proofs.Resolution.Scopes

set_option autoImplicit false

/-! # Scripts with the declarations that go with them

A script and the declaration that goes with it by name are loaded in one format, whatever manifests a
package has. So a cell that resolves to such a pair has nothing wrong with the formats of the two
files: what is reported about its formats is that the script is written in the other one. -/

namespace TypingsAudit

/-- Types and code are said to be loaded in different formats only where they are. -/
theorem Finding.Applies.format_ne {tree : FileTree} {kind : ResolutionKind} {types code : Resolved}
    {f : Finding} (h : Applies tree kind types code f) {expected actual : ModuleFormat}
    (hdetails : f.details = .formatMismatch .typesVsRuntime expected actual) :
    types.format ≠ code.format := by
  cases h with
  | fallback => cases hdetails
  | masquerade _ hf =>
      cases hf with
      | codeIsEsm htypes hcode =>
          rw [htypes, hcode]
          decide
      | codeIsCjs htypes hcode =>
          rw [htypes, hcode]
          decide
      | writtenAsEsm => cases hdetails
      | writtenAsCjs => cases hdetails
  | required => cases hdetails
  | exports _ _ _ _ _ hf => cases hf <;> cases hdetails

namespace Analysis

variable {tree : FileTree} {manifest : Manifest} {options : AnalysisOptions}

/-- A problem is about the result of its cell, or about the whole package. -/
theorem mem_problems_of_mem {result : CellResult} {p : Problem}
    (hresult : result ∈ (ofPackage tree manifest options).resolutions)
    (hp : p ∈ (ofPackage tree manifest options).problems) (hcell : p.cell = result.cell) :
    p ∈ result.problems tree ∨ ∃ cells, p.details = .untypedCells cells := by
  rw [ofPackage_problems_eq] at hp
  split at hp
  · obtain ⟨other, hother, hp | rfl⟩ := mem_listing hp
    · have hsame : other = result := by
        rw [eq_resolve_of_mem hother, eq_resolve_of_mem hresult, ← cell_of_mem_problems hp, hcell]
      exact Or.inl (hsame ▸ hp)
    · exact Or.inr ⟨_, rfl⟩
  · exact absurd hp List.not_mem_nil

/-- The format of a found file is that of its path. -/
theorem format_eq {result : CellResult}
    (hresult : result ∈ (ofPackage tree manifest options).resolutions) {types code : Resolved}
    (htypes : result.types = .found types)
    (hcode : result.runtime = .found code) :
    types.format = (ModuleScopes.ofTree tree manifest.type).formatOf types.path ∧
      code.format = (ModuleScopes.ofTree tree manifest.type).formatOf code.path := by
  rw [eq_resolve_of_mem hresult] at htypes hcode
  exact ⟨(Resolver.vouches_enter _ _ types htypes).format_eq,
    (Resolver.vouches_enter _ _ code hcode).format_eq⟩

/-- **A script and its declaration always agree.** The kind of a path and its ending agree on which
    paths are declarations. A declaration goes with scripts and with nothing else, is of the kind that
    goes with the kind of the script, goes with no other script, lies in the same directory and is
    loaded in the same format. So a cell that resolves to a script and its declaration never has a
    problem with the formats that the two are loaded in. -/
theorem counterparts_agree :
    (∀ path, (FileKind.ofPath path).isDeclaration = Path.isDeclaration path) ∧
    (∀ path, (Path.counterpart? path).map FileKind.ofPath = (FileKind.ofPath path).counterpart?) ∧
    (∀ path declaration, Path.counterpart? path = some declaration →
      (∀ other, Path.counterpart? other = some declaration → other = path) ∧
      Path.parent? declaration = Path.parent? path ∧
      ∀ tree rootType, (ModuleScopes.ofTree tree rootType).formatOf declaration
        = (ModuleScopes.ofTree tree rootType).formatOf path) ∧
    ∀ tree manifest options, ∀ result ∈ (ofPackage tree manifest options).resolutions,
      ∀ types code, result.types = .found types → result.runtime = .found code →
        Path.counterpart? code.path = some types.path →
        ∀ p ∈ (ofPackage tree manifest options).problems, p.cell = result.cell →
          ∀ expected actual, p.details ≠ .formatMismatch .typesVsRuntime expected actual := by
  refine ⟨FileKind.isDeclaration_ofPath, Path.ofPath_counterpart?, ?_, ?_⟩
  · intro path declaration h
    refine ⟨fun other hother => Path.eq_of_counterpart?_eq hother h, Path.parent?_counterpart? h, ?_⟩
    intro tree rootType
    exact ModuleScopes.formatOf_counterpart? _ h
  · intro tree manifest options result hresult types code htypes hcode hpair p hp hcell expected
      actual hdetails
    rcases mem_problems_of_mem hresult hp hcell with hp | ⟨cells, hcells⟩
    · obtain ⟨f, hf, rfl⟩ := (CellResult.mem_problems_iff htypes hcode).1 hp
      obtain ⟨htypesFormat, hcodeFormat⟩ := format_eq hresult htypes hcode
      refine hf.format_ne hdetails ?_
      rw [htypesFormat, hcodeFormat, ModuleScopes.formatOf_counterpart? _ hpair]
    · rw [hdetails] at hcells
      cases hcells

/-- A script and its declaration in a directory of ES modules. The script is written as CommonJS, so
    the cell has a problem with formats, but not with the two that the files are loaded in. -/
theorem nested_counterparts_agree :
    let manifest : Manifest := ⟨none, none, none, some "lib/index.js", none, none, none, none⟩
    let tree := ((FileTree.empty.insert "lib/package.json"
      (Bytes.ofString "\x7b\"type\": \"module\"\x7d")).insert "lib/index.js"
      (Bytes.ofString "exports.a = 1;")).insert "lib/index.d.ts" []
    let analysis := ofPackage tree manifest ⟨[.node16Cjs], []⟩
    let result : CellResult := ⟨⟨".", .node16Cjs⟩, .found ⟨"lib/index.d.ts", .esm, true, false⟩,
      .found ⟨"lib/index.js", .esm, false, false⟩⟩
    let written : Problem := ⟨.falseCjs, result.cell, some "lib/index.d.ts", some "lib/index.js",
      .formatMismatch .declaredVsSyntax .esm .cjs⟩
    result ∈ analysis.resolutions ∧ written ∈ analysis.problems ∧
      (Path.counterpart? "lib/index.js" = some "lib/index.d.ts" ∧
        Path.parent? "lib/index.d.ts" = Path.parent? "lib/index.js") ∧
      ∀ p ∈ analysis.problems, p.cell = result.cell →
        ∀ expected actual, p.details ≠ .formatMismatch .typesVsRuntime expected actual := by
  intro manifest tree analysis result written
  obtain ⟨-, -, hfiles, hcells⟩ := counterparts_agree
  have hpair : Path.counterpart? "lib/index.js" = some "lib/index.d.ts" := by decide +kernel
  have hresult : result ∈ analysis.resolutions := by decide +kernel
  have hwritten : written ∈ analysis.problems :=
    (mem_problems_iff_of_comparesFiles rfl).2 ⟨result, hresult, by decide +kernel⟩
  exact ⟨hresult, hwritten, ⟨hpair, (hfiles _ _ hpair).2.1⟩,
    hcells tree manifest ⟨[.node16Cjs], []⟩ result hresult _ _ rfl rfl hpair⟩

end Analysis

end TypingsAudit
