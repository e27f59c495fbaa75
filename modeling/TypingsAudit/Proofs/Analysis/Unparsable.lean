import TypingsAudit.Proofs.Analysis.Classification

set_option autoImplicit false

/-! # Files that cannot be read

A file that cannot be read has no known exports, and it is described like one that is read and has
none. On the side of the types that is harmless: what is not there is not looked for in the code. On
the side of the code it is not, since everything that the types export counts as missing. -/

namespace TypingsAudit

/-! ## The description of such a file -/

/-- Whether the file at a path is a script or a declaration that cannot be read. -/
def FileTree.IsUnparsable (tree : FileTree) (path : String) : Prop :=
  (tree.moduleSyntax? path).map (·.kind) = some .unparsable

theorem ModuleSyntax.kind_ofSigns_ne (signs : List Script.Sign) :
    (ofSigns signs).kind ≠ .unparsable := by
  show kindOf signs ≠ _
  unfold kindOf
  split
  · decide
  · split <;> decide

theorem ModuleSyntax.eq_unparsable_of_kind {path source : String}
    (h : (ofSource path source).kind = .unparsable) : ofSource path source = unparsable := by
  unfold ofSource at h ⊢
  split at h
  · exact absurd h (kind_ofSigns_ne _)
  · rfl

/-- All such files are described alike. -/
theorem FileTree.isUnparsable_iff {tree : FileTree} {path : String} :
    tree.IsUnparsable path ↔ tree.moduleSyntax? path = some ModuleSyntax.unparsable := by
  constructor
  · intro h
    obtain ⟨s, hs, hkind⟩ := Option.map_eq_some_iff.1 h
    obtain ⟨file, -, hfile⟩ := Option.bind_eq_some_iff.1 hs
    split at hfile
    · obtain rfl := Option.some.inj hfile
      rw [hs, ModuleSyntax.eq_unparsable_of_kind hkind]
    · exact absurd hfile (by simp)
  · intro h
    rw [IsUnparsable, h]
    rfl

namespace Analysis

open Finding

variable {tree : FileTree} {manifest : Manifest} {options : AnalysisOptions} {p : Problem}

/-! ## The problems of cells -/

theorem found_of_mem_problems {result : CellResult} (h : p ∈ result.problems tree)
    (hkind : p.kind.comparesFiles = true) :
    ∃ types code, result.types = .found types ∧ result.runtime = .found code := by
  obtain ⟨f, hf, rfl⟩ := List.mem_map.1 h
  have hkind : f.kind.comparesFiles = true := hkind
  unfold CellResult.findings at hf
  split at hf
  · exact absurd hf List.not_mem_nil
  · obtain rfl := List.mem_singleton.1 hf
    exact absurd hkind Bool.false_ne_true
  · obtain rfl := List.mem_singleton.1 hf
    exact absurd hkind Bool.false_ne_true
  · next types code htypes hcode => exact ⟨types, code, htypes, hcode⟩

/-- A problem about two files is one of a cell. -/
theorem mem_problems_iff_of_comparesFiles (hkind : p.kind.comparesFiles = true) :
    p ∈ (ofPackage tree manifest options).problems ↔
      ∃ result ∈ (ofPackage tree manifest options).resolutions, p ∈ result.problems tree := by
  generalize hresults : (ofPackage tree manifest options).resolutions = results
  have huntyped : p ∉ (untypedProblem results).toList := by
    intro hp
    rw [Option.mem_toList] at hp
    unfold untypedProblem at hp
    split at hp
    · exact absurd hp (by simp)
    · rw [← Option.some.inj hp] at hkind
      exact absurd hkind Bool.false_ne_true
  have hproblems : (ofPackage tree manifest options).problems
      = collectProblems tree (ofPackage tree manifest options).entryPoints results := by
    rw [← hresults]
    rfl
  rw [hproblems, collectProblems]
  split
  · rw [List.mem_mergeSort, List.mem_append, or_iff_left huntyped, List.mem_flatMap]
  · next hnone =>
    refine iff_of_false List.not_mem_nil ?_
    rintro ⟨result, hresult, hp⟩
    obtain ⟨types, code, htypes, -⟩ := found_of_mem_problems hp hkind
    exact hnone (List.any_eq_true.2 ⟨result, hresult, by rw [htypes]; rfl⟩)

theorem path_of_found {r : Resolution} {file : Resolved} (h : r = .found file) :
    r.path? = some file.path := by
  rw [h]
  rfl

/-- A cell of an analysis is resolved by the algorithms of the package. -/
theorem eq_resolve_of_mem {result : CellResult}
    (h : result ∈ (ofPackage tree manifest options).resolutions) :
    result = resolve (Resolver.ofPackage tree manifest options.conditions) result.cell := by
  obtain ⟨cell, -, rfl⟩ := List.mem_map.1 h
  rfl

theorem declared_format {result : CellResult} {types : Resolved}
    (h : result ∈ (ofPackage tree manifest options).resolutions)
    (htypes : result.types = .found types) : types.format = .esm ∨ types.format = .cjs := by
  rw [eq_resolve_of_mem h] at htypes
  exact ((Resolver.vouches_enter _ _ types htypes).declared rfl).2

/-- A problem about exports comes from the rows about exports, for the files of a cell. -/
theorem exists_lacks_of_mem (hp : p ∈ (ofPackage tree manifest options).problems)
    (hkind : p.kind = .cjsOnlyExportsDefault ∨ p.kind = .namedExports) :
    ∃ result ∈ (ofPackage tree manifest options).resolutions, ∃ types code declared script f,
      result.types = .found types ∧ result.runtime = .found code ∧
      tree.moduleSyntax? types.path = some declared ∧ tree.moduleSyntax? code.path = some script ∧
      (result.cell.kind = .node16Esm ∧ code.format = .cjs ∧
        ∀ g, ¬ Masquerade types.format code.format (tree.authoredFormat? code.path) g) ∧
      Lacks declared script f ∧ result.problem f = p := by
  have hcompares : p.kind.comparesFiles = true := by
    rcases hkind with hkind | hkind <;> rw [hkind] <;> rfl
  obtain ⟨result, hresult, hp⟩ := (mem_problems_iff_of_comparesFiles hcompares).1 hp
  obtain ⟨types, code, htypes, hcode⟩ := found_of_mem_problems hp hcompares
  obtain ⟨f, hf, rfl⟩ := (CellResult.mem_problems_iff htypes hcode).1 hp
  obtain ⟨himports, declared, script, hdeclared, hscript, hlacks⟩ := hf.lacks_of_kind hkind
  exact ⟨result, hresult, types, code, declared, script, f, htypes, hcode, hdeclared, hscript,
    himports, hlacks, rfl⟩

/-! ## What is said about exports -/

theorem exports_unparsable : ModuleSyntax.unparsable.exports = [] := by
  simp [ModuleSyntax.unparsable, ModuleSyntax.ofSigns, ModuleSyntax.exportedNames,
    ModuleSyntax.sorted]

theorem setNames_unparsable : ModuleSyntax.unparsable.commonJs.names = [] := by
  simp [ModuleSyntax.unparsable, ModuleSyntax.ofSigns, ModuleSyntax.setNames, ModuleSyntax.sorted]

/-- Declarations that cannot be read name nothing that the code could lack. -/
theorem not_lacks_unparsable {script : ModuleSyntax} {f : Finding} :
    ¬ Lacks .unparsable script f := by
  intro h
  cases h with
  | default hdeclared => simp [exports_unparsable] at hdeclared
  | names _ _ hmissing => simp [missingNames, exports_unparsable] at hmissing

/-- Code that cannot be read lacks all that the declarations name. -/
theorem lacks_unparsable_iff {declared : ModuleSyntax} {f : Finding} :
    Lacks declared .unparsable f ↔
      declared.hasExportAssignment = false ∧ declared.exports.filter (· ≠ "default") ≠ [] ∧
        f = ⟨.namedExports, .missingExports (declared.exports.filter (· ≠ "default"))⟩ := by
  have hmissing : missingNames declared .unparsable
      = declared.exports.filter (· ≠ "default") := by
    refine List.filter_congr fun name _ => ?_
    simp [setNames_unparsable]
  constructor
  · intro h
    cases h with
    | default _ hscript => simp [setNames_unparsable] at hscript
    | names _ hvalues hsome =>
        rw [hmissing] at hsome ⊢
        exact ⟨hvalues, hsome, rfl⟩
  · rintro ⟨hvalues, hsome, rfl⟩
    rw [← hmissing] at hsome ⊢
    exact .names (by decide) hvalues hsome

/-- Nothing is known of how such a file is written. -/
theorem authoredFormat?_of_isUnparsable {path : String} (h : tree.IsUnparsable path) :
    tree.authoredFormat? path = none := by
  rw [FileTree.authoredFormat?, FileTree.isUnparsable_iff.1 h]
  rfl

/-- **What unreadable files do to the problems about exports.** A default export is never complained
    about where one of the two files cannot be read, and missing names are not where the declarations
    cannot be. Code that cannot be read is taken for code without exports: exactly when an ES module
    imports it as CommonJS, with CommonJS declarations that export names, all those names are reported
    as missing. -/
theorem export_problems_of_unparsable (tree : FileTree) (manifest : Manifest)
    (options : AnalysisOptions) :
    let analysis := ofPackage tree manifest options
    (∀ p ∈ analysis.problems, p.kind = .cjsOnlyExportsDefault → ∀ path,
      p.typesPath = some path ∨ p.runtimePath = some path → ¬ tree.IsUnparsable path) ∧
    (∀ p ∈ analysis.problems, p.kind = .namedExports → ∀ path,
      p.typesPath = some path → ¬ tree.IsUnparsable path) ∧
    (∀ result ∈ analysis.resolutions, ∀ types code missing,
      result.types = .found types → result.runtime = .found code → tree.IsUnparsable code.path →
      ((⟨.namedExports, result.cell, some types.path, some code.path,
          .missingExports missing⟩ : Problem) ∈ analysis.problems ↔
        result.cell.kind = .node16Esm ∧ types.format = .cjs ∧ code.format = .cjs ∧
        ∃ declared, tree.moduleSyntax? types.path = some declared ∧
          declared.hasExportAssignment = false ∧
          missing = declared.exports.filter (· ≠ "default") ∧ missing ≠ [])) := by
  intro analysis
  refine ⟨fun p hp hkind path hpath hunparsable => ?_,
    fun p hp hkind path hpath hunparsable => ?_,
    fun result hresult types code missing htypes hcode hunparsable => ?_⟩
  · obtain ⟨result, -, types, code, declared, script, f, htypes, hcode, hdeclared, hscript, -, hlacks,
      rfl⟩ := exists_lacks_of_mem hp (.inl hkind)
    rw [FileTree.isUnparsable_iff] at hunparsable
    rcases hpath with hpath | hpath
    · obtain rfl := Option.some.inj ((path_of_found htypes).symm.trans hpath)
      obtain rfl := Option.some.inj (hdeclared.symm.trans hunparsable)
      exact not_lacks_unparsable hlacks
    · obtain rfl := Option.some.inj ((path_of_found hcode).symm.trans hpath)
      obtain rfl := Option.some.inj (hscript.symm.trans hunparsable)
      obtain ⟨-, -, rfl⟩ := lacks_unparsable_iff.1 hlacks
      exact absurd hkind (by simp [CellResult.problem])
  · obtain ⟨result, -, types, code, declared, script, f, htypes, hcode, hdeclared, hscript, -, hlacks,
      rfl⟩ := exists_lacks_of_mem hp (.inr hkind)
    rw [FileTree.isUnparsable_iff] at hunparsable
    obtain rfl := Option.some.inj ((path_of_found htypes).symm.trans hpath)
    obtain rfl := Option.some.inj (hdeclared.symm.trans hunparsable)
    exact not_lacks_unparsable hlacks
  · have hscript := FileTree.isUnparsable_iff.1 hunparsable
    constructor
    · intro hp
      obtain ⟨other, hother, types', code', declared, script, f, htypes', hcode', hdeclared,
        hscript', ⟨hkind, hcjs, hplain⟩, hlacks, hproblem⟩ := exists_lacks_of_mem hp (.inr rfl)
      -- The cell of a problem tells the result that it is about.
      have hcell : other.cell = result.cell := congrArg Problem.cell hproblem
      obtain rfl : other = result := by
        rw [eq_resolve_of_mem hother, eq_resolve_of_mem hresult, hcell]
      obtain rfl := Resolution.found.inj (htypes'.symm.trans htypes)
      obtain rfl := Resolution.found.inj (hcode'.symm.trans hcode)
      obtain rfl := Option.some.inj (hscript'.symm.trans hscript)
      obtain ⟨hvalues, hsome, rfl⟩ := lacks_unparsable_iff.1 hlacks
      have hdetails := congrArg Problem.details hproblem
      obtain rfl := ProblemDetails.missingExports.inj hdetails
      refine ⟨hkind, ?_, hcjs, declared, hdeclared, hvalues, rfl, hsome⟩
      rcases declared_format hresult htypes with hesm | htypesCjs
      · exact absurd (.codeIsCjs hesm hcjs) (hplain _)
      · exact htypesCjs
    · rintro ⟨hkind, htypesCjs, hcjs, declared, hdeclared, hvalues, rfl, hsome⟩
      refine (mem_problems_iff_of_comparesFiles rfl).2 ⟨result, hresult, ?_⟩
      refine (CellResult.mem_problems_iff htypes hcode).2 ⟨_, .exports hkind hcjs (fun g hg => ?_)
        hdeclared hscript (lacks_unparsable_iff.2 ⟨hvalues, hsome, rfl⟩), ?_⟩
      · rw [htypesCjs, hcjs, authoredFormat?_of_isUnparsable hunparsable] at hg
        cases hg <;> contradiction
      · rw [CellResult.problem, path_of_found htypes, path_of_found hcode]

/-- A package of three entry points for ES modules: one whose script cannot be read, one whose script
    sets a default export only, and one whose script lacks a name. -/
theorem export_problems_of_unparsable_script :
    let typed (types code : String) : Exports :=
      .conditions [("types", .target types), ("default", .target code)]
    let manifest : Manifest := ⟨none, none, none, none, none, none,
      some (.subpaths [("./broken", typed "./broken.d.ts" "./broken.js"),
        ("./converted", typed "./converted.d.ts" "./converted.js"),
        ("./partial", typed "./partial.d.ts" "./partial.js")]), none⟩
    let tree := (((((FileTree.empty.insert "broken.js" (Bytes.ofString "const a = ;")).insert
      "broken.d.ts" (Bytes.ofString "export declare const a: number;")).insert
      "converted.js" (Bytes.ofString "exports.default = 1;")).insert
      "converted.d.ts" (Bytes.ofString "export default 1;")).insert
      "partial.js" (Bytes.ofString "exports.b = 1;")).insert
      "partial.d.ts" (Bytes.ofString "export declare const a: number;")
    let problems := (ofPackage tree manifest ⟨[.node16Esm], []⟩).problems
    let converted : Problem := ⟨.cjsOnlyExportsDefault, ⟨"./converted", .node16Esm⟩,
      some "converted.d.ts", some "converted.js", .none⟩
    let partly : Problem := ⟨.namedExports, ⟨"./partial", .node16Esm⟩,
      some "partial.d.ts", some "partial.js", .missingExports ["a"]⟩
    (converted ∈ problems ∧ ¬ tree.IsUnparsable "converted.js") ∧
      (partly ∈ problems ∧ ¬ tree.IsUnparsable "partial.d.ts") ∧
      (tree.IsUnparsable "broken.js" ∧
        (⟨.namedExports, ⟨"./broken", .node16Esm⟩, some "broken.d.ts", some "broken.js",
          .missingExports ["a"]⟩ : Problem) ∈ problems) := by
  intro typed manifest tree problems converted partly
  obtain ⟨hdefault, hnamed, hbroken⟩ :=
    export_problems_of_unparsable tree manifest ⟨[.node16Esm], []⟩
  have hconverted : converted ∈ problems :=
    (mem_problems_iff_of_comparesFiles rfl).2
      ⟨⟨converted.cell, .found ⟨"converted.d.ts", .cjs, true, false⟩,
        .found ⟨"converted.js", .cjs, false, false⟩⟩, by decide +kernel, by decide +kernel⟩
  have hpartly : partly ∈ problems :=
    (mem_problems_iff_of_comparesFiles rfl).2
      ⟨⟨partly.cell, .found ⟨"partial.d.ts", .cjs, true, false⟩,
        .found ⟨"partial.js", .cjs, false, false⟩⟩, by decide +kernel, by decide +kernel⟩
  have hunparsable : tree.IsUnparsable "broken.js" := by
    unfold FileTree.IsUnparsable
    decide +kernel
  refine ⟨⟨hconverted, hdefault _ hconverted rfl _ (.inr rfl)⟩,
    ⟨hpartly, hnamed _ hpartly rfl _ rfl⟩, hunparsable, ?_⟩
  refine (hbroken ⟨⟨"./broken", .node16Esm⟩, .found ⟨"broken.d.ts", .cjs, true, false⟩,
    .found ⟨"broken.js", .cjs, false, false⟩⟩ (by decide +kernel) _ _ ["a"] rfl rfl
    hunparsable).2 ⟨rfl, rfl, rfl, ModuleSyntax.ofSource "broken.d.ts"
      "export declare const a: number;", ?_, ?_, ?_, ?_⟩
  · decide +kernel
  · decide +kernel
  · decide +kernel
  · decide

/-- An ES module that imports a script that cannot be read. The export that its declarations name
    is reported as missing. -/
theorem unparsable_code_reported_as_missing_exports :
    let manifest : Manifest := ⟨none, none, none, some "index.js", none, none, none, none⟩
    let tree := (FileTree.empty.insert "index.js" (Bytes.ofString "const a = ;")).insert
      "index.d.ts" (Bytes.ofString "export declare const a: number;")
    tree.IsUnparsable "index.js" ∧
      (ofPackage tree manifest ⟨[.node16Esm], []⟩).problems =
        [⟨.namedExports, ⟨".", .node16Esm⟩, some "index.d.ts", some "index.js",
          .missingExports ["a"]⟩] := by
  intro manifest tree
  exact ⟨by unfold FileTree.IsUnparsable; decide +kernel, by decide +kernel⟩

end Analysis

end TypingsAudit
