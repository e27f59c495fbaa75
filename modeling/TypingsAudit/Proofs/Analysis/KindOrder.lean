import TypingsAudit.Proofs.Analysis.ProblemOrder
import TypingsAudit.Proofs.Analysis.Unparsable

set_option autoImplicit false

/-! # The order of the problems of one cell

Problems are sorted by their cells only. Those of one cell stay in the order in which they are found:
first that a fallback was used, then the false formats, and then what comes after them, with the
problem about the package as a whole at the end (`ProblemKind.foundOrder`).

This is the order of the kinds but for two places. A fallback is found first, and its kind comes late.
And where the types count as ESM, and the code is loaded as CommonJS and written as ESM, both ways to
have a false format find one, and the kind that comes later is found first (`CellResult.Crossed`). -/

namespace TypingsAudit

/-- The place of the kind in the order of reports. -/
def ProblemKind.rank (kind : ProblemKind) : Nat :=
  all.idxOf kind

/-- The order in which the kinds of a cell are found, given that of the two false formats. -/
def ProblemKind.foundOrder (formats : List ProblemKind) : List ProblemKind :=
  [.noResolution, .untypedResolution] ++
    ([.fallbackCondition] ++ (formats ++ Finding.afterFormats) ++ [.internalResolutionError])

/-! ## Two files -/

namespace Finding

/-- The code is loaded as CommonJS, and both its types and its own text say that it is ESM. -/
def Crossed (types code : ModuleFormat) (authored : Option ModuleFormat) : Prop :=
  types = .esm ∧ code = .cjs ∧ authored = some .esm

instance (types code : ModuleFormat) (authored : Option ModuleFormat) :
    Decidable (Crossed types code authored) :=
  inferInstanceAs (Decidable (_ ∧ _ ∧ _))

/-- False formats are found in the order of their kinds unless they are crossed. -/
theorem kinds_ofFalseFormats (types code : ModuleFormat) (authored : Option ModuleFormat) :
    (Crossed types code authored →
      (ofFalseFormats types code authored).map (·.kind) = [.falseCjs, .falseEsm]) ∧
    (¬ Crossed types code authored →
      ((ofFalseFormats types code authored).map (·.kind)).Sublist [.falseEsm, .falseCjs]) := by
  rcases authored with _ | authored
  · cases types <;> cases code <;> decide
  · cases types <;> cases code <;> cases authored <;> decide

theorem pairwise_kinds_ofFalseFormats_iff (types code : ModuleFormat)
    (authored : Option ModuleFormat) :
    ((ofFalseFormats types code authored).map (·.kind)).Pairwise (·.rank ≤ ·.rank) ↔
      ¬ Crossed types code authored := by
  obtain ⟨hcrossed, hplain⟩ := kinds_ofFalseFormats types code authored
  constructor
  · intro h hcross
    rw [hcrossed hcross] at h
    exact absurd h (by decide)
  · intro hcross
    exact List.Pairwise.sublist (hplain hcross) (by decide)

/-- What is found after the formats are compared comes later in the order of kinds, too. -/
theorem pairwise_append_afterFormats_iff {formats rest : List ProblemKind}
    (hformats : ∀ k ∈ formats, k = .falseEsm ∨ k = .falseCjs) (hrest : rest.Sublist afterFormats) :
    (formats ++ rest).Pairwise (·.rank ≤ ·.rank) ↔ formats.Pairwise (·.rank ≤ ·.rank) := by
  rw [List.pairwise_append]
  refine ⟨And.left, fun h => ⟨h, List.Pairwise.sublist hrest (by decide), ?_⟩⟩
  intro k hk other hother
  have hafter : ∀ format ∈ [ProblemKind.falseEsm, .falseCjs], ∀ later ∈ afterFormats,
      format.rank ≤ later.rank := by
    decide
  exact hafter k (by simpa using hformats k hk) other (hrest.subset hother)

/-- Nothing that is found in two files comes later in the order of kinds than a fallback. -/
theorem rank_lt_of_mem {formats rest : List ProblemKind}
    (hformats : ∀ k ∈ formats, k = .falseEsm ∨ k = .falseCjs) (hrest : rest.Sublist afterFormats) :
    ∀ k ∈ formats ++ rest, k.rank < ProblemKind.fallbackCondition.rank := by
  intro k hk
  rcases List.mem_append.1 hk with hk | hk
  · rcases hformats k hk with rfl | rfl <;> decide
  · have hafter : ∀ later ∈ afterFormats, later.rank < ProblemKind.fallbackCondition.rank := by
      decide
    exact hafter k (hrest.subset hk)

variable (tree : FileTree) (kind : ResolutionKind) (types code : Resolved)

/-- **The kinds found in two files are in order just where a fallback is found alone and the false
    formats are not crossed.** -/
theorem pairwise_kinds_ofFiles_iff :
    let kinds := (ofFiles tree kind types code).map (·.kind)
    kinds.Pairwise (·.rank ≤ ·.rank) ↔
      (.fallbackCondition ∈ kinds → kinds = [.fallbackCondition]) ∧
      ¬ (kind.enforcesFormat = true ∧
        Crossed types.format code.format (tree.authoredFormat? code.path)) := by
  intro kinds
  obtain ⟨rest, hkinds, hrest⟩ := exists_kinds_ofFiles_eq tree kind types code
  generalize hformats :
    (if kind.enforcesFormat then _ else [] : List ProblemKind) = formats at hkinds
  have hmem : ∀ k ∈ formats, k = .falseEsm ∨ k = .falseCjs := by
    rw [← hformats]
    split
    · exact kinds_of_mem_ofFalseFormats _ _ _
    · simp
  have hsorted : formats.Pairwise (·.rank ≤ ·.rank) ↔ ¬ (kind.enforcesFormat = true ∧
      Crossed types.format code.format (tree.authoredFormat? code.path)) := by
    rw [← hformats]
    split
    · next henforces => rw [pairwise_kinds_ofFalseFormats_iff, and_iff_right henforces]
    · next hfree => simp [hfree]
  have hlater := rank_lt_of_mem hmem hrest
  have hnot : .fallbackCondition ∉ formats ++ rest := by
    intro h
    exact absurd (hlater _ h) (Nat.lt_irrefl _)
  rw [show kinds = _ from hkinds]
  split
  · -- Whatever comes behind the fallback is out of order.
    rw [List.singleton_append, List.pairwise_cons]
    constructor
    · rintro ⟨hfirst, h⟩
      have hnil : formats ++ rest = [] := by
        refine List.eq_nil_iff_forall_not_mem.2 fun k hk => ?_
        exact absurd (hfirst k hk) (Nat.not_le.2 (hlater k hk))
      refine ⟨fun _ => by rw [hnil], hsorted.1 ?_⟩
      exact (pairwise_append_afterFormats_iff hmem hrest).1 h
    · rintro ⟨halone, -⟩
      have hnil : formats ++ rest = [] := (List.cons.inj (halone (List.mem_cons_self ..))).2
      rw [hnil]
      exact ⟨by simp, .nil⟩
  · rw [List.nil_append, pairwise_append_afterFormats_iff hmem hrest, hsorted]
    exact ⟨fun h => ⟨fun hfallback => absurd hfallback hnot, h⟩, And.right⟩

/-- The kinds found in two files come in the order in which they are looked for. -/
theorem kinds_ofFiles_sublist {formats : List ProblemKind}
    (h : kind.enforcesFormat = true →
      ((ofFalseFormats types.format code.format (tree.authoredFormat? code.path)).map
        (·.kind)).Sublist formats) :
    ((ofFiles tree kind types code).map (·.kind)).Sublist (ProblemKind.foundOrder formats) := by
  obtain ⟨rest, hkinds, hrest⟩ := exists_kinds_ofFiles_eq tree kind types code
  rw [hkinds]
  refine List.Sublist.trans (.append ?_ (.append ?_ hrest))
    ((List.sublist_append_left ..).trans (List.sublist_append_right ..))
  · split <;> simp
  · split
    · next henforces => exact h henforces
    · exact List.nil_sublist _

end Finding

/-! ## One cell -/

namespace CellResult

/-- Formats matter, both files are found, and the code is loaded as CommonJS where its types and its own
    text say that it is ESM. -/
def Crossed (tree : FileTree) (result : CellResult) : Prop :=
  result.cell.kind.enforcesFormat = true ∧ ∃ types code,
    result.types = .found types ∧ result.runtime = .found code ∧
    Finding.Crossed types.format code.format (tree.authoredFormat? code.path)

/-- How the kinds of the problems of a cell are ordered: as they are found, and as the kinds are where
    nothing stands against it. -/
structure KindsOrdered (tree : FileTree) (result : CellResult) (kinds : List ProblemKind) :
    Prop where
  once : kinds.Nodup
  plain : ¬ result.Crossed tree → kinds.Sublist (ProblemKind.foundOrder [.falseEsm, .falseCjs])
  crossed : result.Crossed tree → kinds.Sublist (ProblemKind.foundOrder [.falseCjs, .falseEsm])
  sorted_iff : kinds.Pairwise (·.rank ≤ ·.rank) ↔
    (.fallbackCondition ∈ kinds → kinds = [.fallbackCondition]) ∧ ¬ result.Crossed tree

variable {tree : FileTree} {result : CellResult}

/-- Where a file is missing, little can be reported, and that is in order. -/
theorem kindsOrdered_of_notFound {kinds : List ProblemKind}
    (h : result.types.isFound = false ∨ result.runtime.isFound = false)
    (hkinds : kinds ∈ [[], [.noResolution], [.noResolution, .untypedResolution],
      [.internalResolutionError]]) :
    KindsOrdered tree result kinds := by
  have hcrossed : ¬ result.Crossed tree := by
    rintro ⟨-, types, code, htypes, hcode, -⟩
    rw [htypes, hcode] at h
    rcases h with h | h <;> cases h
  have hall : ∀ kinds ∈ [[], [.noResolution], [.noResolution, .untypedResolution],
      [.internalResolutionError]], kinds.Nodup ∧
        kinds.Sublist (ProblemKind.foundOrder [.falseEsm, .falseCjs]) ∧
        kinds.Pairwise (·.rank ≤ ·.rank) ∧ .fallbackCondition ∉ kinds := by
    decide
  obtain ⟨hnodup, hsublist, hsorted, hnot⟩ := hall kinds hkinds
  exact ⟨hnodup, fun _ => hsublist, fun h => absurd h hcrossed,
    iff_of_true hsorted ⟨fun h => absurd h hnot, hcrossed⟩⟩

theorem kindsOrdered_of_found {types code : Resolved} (htypes : result.types = .found types)
    (hcode : result.runtime = .found code) :
    KindsOrdered tree result ((Finding.ofFiles tree result.cell.kind types code).map (·.kind)) := by
  have hcrossed : result.Crossed tree ↔ result.cell.kind.enforcesFormat = true ∧
      Finding.Crossed types.format code.format (tree.authoredFormat? code.path) := by
    refine and_congr_right fun _ => ⟨?_, fun h => ⟨types, code, htypes, hcode, h⟩⟩
    rintro ⟨types', code', htypes', hcode', h⟩
    obtain rfl := Resolution.found.inj (htypes.symm.trans htypes')
    obtain rfl := Resolution.found.inj (hcode.symm.trans hcode')
    exact h
  obtain ⟨hexact, hsublist⟩ := Finding.kinds_ofFalseFormats types.format code.format
    (tree.authoredFormat? code.path)
  refine ⟨Finding.nodup_kinds_ofFiles .., ?_, ?_, ?_⟩
  · intro h
    refine Finding.kinds_ofFiles_sublist tree _ types code fun henforces => hsublist ?_
    intro hcross
    exact h (hcrossed.2 ⟨henforces, hcross⟩)
  · intro h
    refine Finding.kinds_ofFiles_sublist tree _ types code fun _ => ?_
    rw [hexact (hcrossed.1 h).2]
  · rw [hcrossed]
    exact Finding.pairwise_kinds_ofFiles_iff tree _ types code

/-- The problems of a cell alone, and with the one about the whole package behind them. -/
theorem kindsOrdered_problems (tree : FileTree) (result : CellResult) :
    KindsOrdered tree result ((result.problems tree).map (·.kind)) ∧
    (result.isUntyped = true →
      KindsOrdered tree result ((result.problems tree).map (·.kind) ++ [.untypedResolution])) := by
  obtain ⟨cell, types, runtime⟩ := result
  have hkinds (result : CellResult) :
      (result.problems tree).map (·.kind) = (result.findings tree).map (·.kind) := by
    rw [problems, List.map_map]
    rfl
  rw [hkinds]
  cases types with
  | notFound reason =>
      cases runtime with
      | notFound _ =>
          exact ⟨kindsOrdered_of_notFound (.inl rfl) (by simp [findings]), fun h => by cases h⟩
      | found code =>
          exact ⟨kindsOrdered_of_notFound (.inl rfl) (by simp [findings]),
            fun _ => kindsOrdered_of_notFound (.inl rfl) (by simp [findings])⟩
  | found file =>
      cases runtime with
      | notFound reason =>
          exact ⟨kindsOrdered_of_notFound (.inr rfl) (by simp [findings]), fun h => by cases h⟩
      | found code => exact ⟨kindsOrdered_of_found rfl rfl, fun h => by cases h⟩

end CellResult

/-! ## The problems of a cell among those of a package -/

namespace Analysis

variable (tree : FileTree) {manifest : Manifest} {options : AnalysisOptions}
  {untyped : CellResult → Problem} {before after : List CellResult} {result : CellResult}

theorem filter_flatMap_problems_of_ne {results : List CellResult} {cell : Cell}
    (h : ∀ r ∈ results, r.cell ≠ cell) :
    (results.flatMap (·.problems tree)).filter (·.cell = cell) = [] := by
  rw [filter_flatMap_problems tree (· = cell), List.filter_eq_nil_iff.2, List.flatMap_nil]
  intro r hr
  rw [decide_eq_true_iff]
  exact h r hr

theorem filter_problems_of_ne {cell : Cell} (h : result.cell ≠ cell) :
    (result.problems tree).filter (·.cell = cell) = [] := by
  have hnone := filter_flatMap_problems_of_ne tree (List.forall_mem_singleton.2 h)
  rwa [List.flatMap_singleton] at hnone

theorem filter_problems_self (result : CellResult) :
    (result.problems tree).filter (·.cell = result.cell) = result.problems tree :=
  List.filter_eq_self.2 fun _ hp => decide_eq_true (cell_of_mem_problems hp)

theorem filter_listing_of_ne (huntyped : ∀ r, (untyped r).cell = r.cell)
    {results : List CellResult} {cell : Cell} (h : ∀ r ∈ results, r.cell ≠ cell) :
    (listing tree untyped results).filter (·.cell = cell) = [] := by
  refine List.filter_eq_nil_iff.2 fun p hp => ?_
  rw [decide_eq_true_iff]
  obtain ⟨r, hr, hp | rfl⟩ := mem_listing hp
  · rw [cell_of_mem_problems hp]
    exact h r hr
  · rw [huntyped]
    exact h r hr

/-- Of all problems those of one cell are the ones that its result has, and the one about the whole
    package behind them if it is reported there. -/
theorem filter_listing_cell (huntyped : ∀ r, (untyped r).cell = r.cell)
    (hbefore : ∀ r ∈ before, r.cell ≠ result.cell) (hafter : ∀ r ∈ after, r.cell ≠ result.cell) :
    (listing tree untyped (before ++ result :: after)).filter (·.cell = result.cell)
        = result.problems tree ∨
      result.isUntyped = true ∧
        (listing tree untyped (before ++ result :: after)).filter (·.cell = result.cell)
          = result.problems tree ++ [untyped result] := by
  have hnone := filter_flatMap_problems_of_ne tree hafter
  induction before with
  | nil =>
      rw [List.nil_append, listing]
      split
      · next h =>
          rw [List.filter_append, filter_problems_self,
            List.filter_cons_of_pos (by simpa using huntyped result), hnone]
          exact .inr ⟨h, rfl⟩
      · rw [List.filter_append, filter_problems_self, filter_listing_of_ne tree huntyped hafter,
          List.append_nil]
        exact .inl rfl
  | cons r rest ih =>
      obtain ⟨hne, hrest⟩ := List.forall_mem_cons.1 hbefore
      rw [List.cons_append, listing]
      split
      · -- The problem about the package is reported at an earlier cell.
        refine .inl ?_
        rw [List.filter_append, filter_problems_of_ne tree hne, List.nil_append,
          List.filter_cons_of_neg (by simpa [huntyped] using hne), List.flatMap_append,
          List.flatMap_cons, List.filter_append, List.filter_append, hnone,
          filter_flatMap_problems_of_ne tree hrest, filter_problems_self, List.append_nil,
          List.nil_append]
      · rw [List.filter_append, filter_problems_of_ne tree hne, List.nil_append]
        exact ih hrest

/-- A result of an analysis is the only one of its cell. -/
theorem exists_split_of_mem (h : result ∈ (ofPackage tree manifest options).resolutions) :
    ∃ before after, (ofPackage tree manifest options).resolutions = before ++ result :: after ∧
      (∀ r ∈ before, r.cell ≠ result.cell) ∧ ∀ r ∈ after, r.cell ≠ result.cell := by
  have hnodup : ((ofPackage tree manifest options).resolutions.map (·.cell)).Nodup := by
    have hcells : ((ofPackage tree manifest options).resolutions.map (·.cell))
        = cells (EntryPoint.ofManifest manifest (ResolutionKind.select options.kinds)) := by
      show ((cells _).map (resolve _)).map (·.cell) = _
      rw [List.map_map]
      exact List.map_id _
    rw [hcells]
    exact nodup_cells (EntryPoint.enumerated_ofManifest ..)
  obtain ⟨before, after, hsplit⟩ := List.append_of_mem h
  rw [hsplit, List.map_append, List.map_cons, List.nodup_middle, List.nodup_cons, List.mem_append,
    not_or] at hnodup
  obtain ⟨⟨hbefore, hafter⟩, -⟩ := hnodup
  exact ⟨before, after, hsplit, fun r hr hcell => hbefore (hcell ▸ List.mem_map_of_mem hr),
    fun r hr hcell => hafter (hcell ▸ List.mem_map_of_mem hr)⟩

/-- The kinds of the problems of a cell, as they are reported. -/
def kindsOf (analysis : Analysis) (cell : Cell) : List ProblemKind :=
  (analysis.problems.filter (·.cell = cell)).map (·.kind)

/-- What is reported can be read off the results, without sorting. -/
theorem kindsOf_ofPackage (tree : FileTree) (manifest : Manifest) (options : AnalysisOptions)
    (cell : Cell) :
    let analysis := ofPackage tree manifest options
    analysis.kindsOf cell = ((if analysis.containsTypes = true
      then listing tree (untypedAt analysis.resolutions) analysis.resolutions
      else []).filter (·.cell = cell)).map (·.kind) := by
  intro analysis
  rw [kindsOf, ← ofPackage_problems_eq tree manifest options]

/-- **The kinds of the problems of a cell.** None is reported twice, and they are reported in the order
    in which they are found. That is the order of the kinds just where a fallback is reported alone,
    if it is, and the false formats are not crossed. -/
theorem cell_kinds_ordered_iff (tree : FileTree) (manifest : Manifest) (options : AnalysisOptions) :
    let analysis := ofPackage tree manifest options
    ∀ result ∈ analysis.resolutions, result.KindsOrdered tree (analysis.kindsOf result.cell) := by
  intro analysis result hresult
  obtain ⟨hproblems, huntyped⟩ := CellResult.kindsOrdered_problems tree result
  obtain ⟨before, after, hsplit, hbefore, hafter⟩ := exists_split_of_mem tree hresult
  rw [show analysis.kindsOf result.cell = _ from kindsOf_ofPackage ..]
  split
  · have huntypedAt : ∀ r, (untypedAt analysis.resolutions r).cell = r.cell := fun _ => rfl
    have hcell := filter_listing_cell tree huntypedAt hbefore hafter
    rw [← hsplit] at hcell
    rcases hcell with hcell | ⟨h, hcell⟩
    · rw [hcell]
      exact hproblems
    · rw [hcell, List.map_append]
      exact huntyped h
  · next htyped =>
      have hmissing : result.types.isFound = false := by
        have hnone := List.any_eq_false.1 (Bool.eq_false_iff.2 htyped) result hresult
        exact Bool.eq_false_iff.2 hnone
      exact CellResult.kindsOrdered_of_notFound (.inl hmissing) (List.mem_cons_self ..)

/-- A script that is loaded as ESM where its types and its own text say that it is CommonJS, and one
    without types. -/
theorem cell_kinds_ordered_for_commonJs :
    let manifest : Manifest := ⟨none, none, none, none, none, none,
      some (.subpaths [("./bare", .target "./bare.mjs"), ("./plain", .conditions
        [("types", .target "./plain.d.cts"), ("default", .target "./plain.mjs")])]), none⟩
    let tree := ((FileTree.empty.insert "bare.mjs" []).insert "plain.d.cts" []).insert "plain.mjs"
      (Bytes.ofString "exports.a = 1;")
    let analysis := ofPackage tree manifest ⟨[.node16Esm], []⟩
    let plain : CellResult := ⟨⟨"./plain", .node16Esm⟩, .found ⟨"plain.d.cts", .cjs, true, false⟩,
      .found ⟨"plain.mjs", .esm, false, false⟩⟩
    let bare : CellResult := ⟨⟨"./bare", .node16Esm⟩, .notFound .notADeclaration,
      .found ⟨"bare.mjs", .esm, false, false⟩⟩
    (plain ∈ analysis.resolutions ∧ analysis.kindsOf plain.cell = [.falseEsm, .falseCjs] ∧
      (analysis.kindsOf plain.cell).Pairwise (·.rank ≤ ·.rank)) ∧
    (bare ∈ analysis.resolutions ∧
      analysis.kindsOf bare.cell = [.noResolution, .untypedResolution] ∧
      (analysis.kindsOf bare.cell).Nodup) := by
  intro manifest tree analysis plain bare
  have hordered := cell_kinds_ordered_iff tree manifest ⟨[.node16Esm], []⟩
  have hplain : plain ∈ analysis.resolutions := by decide +kernel
  have hbare : bare ∈ analysis.resolutions := by decide +kernel
  have hkinds : analysis.kindsOf plain.cell = [.falseEsm, .falseCjs] := by
    rw [kindsOf_ofPackage]
    decide +kernel
  have hcrossed : ¬ plain.Crossed tree := by
    rintro ⟨-, types, code, htypes, -, hesm, -⟩
    obtain rfl := Resolution.found.inj htypes
    cases hesm
  have hfallback : .fallbackCondition ∉ analysis.kindsOf plain.cell := by
    rw [hkinds]
    decide
  exact ⟨⟨hplain, hkinds, (hordered plain hplain).sorted_iff.2
      ⟨fun h => absurd h hfallback, hcrossed⟩⟩,
    hbare, by rw [kindsOf_ofPackage]; decide +kernel, (hordered bare hbare).once⟩

/-- A fallback in front of a false format, and a script with a false format in both ways. -/
theorem fallback_and_crossed_formats_out_of_order :
    let manifest (types : Exports) : Manifest := ⟨none, none, none, none, none, none,
      some (.conditions [("types", types), ("default", .target "./index.cjs")]), none⟩
    let tree (code : String) :=
      (FileTree.empty.insert "index.d.mts" []).insert "index.cjs" (Bytes.ofString code)
    let kinds (types : Exports) (code : String) :=
      (ofPackage (tree code) (manifest types) ⟨[.node16Esm], []⟩).kindsOf ⟨".", .node16Esm⟩
    let fallback := kinds (.fallback [.target "./missing.d.mts", .target "./index.d.mts"]) ""
    let crossed := kinds (.target "./index.d.mts") "export const a = 1;"
    (fallback = [.fallbackCondition, .falseCjs] ∧ ¬ fallback.Pairwise (·.rank ≤ ·.rank)) ∧
      crossed = [.falseCjs, .falseEsm] ∧ ¬ crossed.Pairwise (·.rank ≤ ·.rank) := by
  intro manifest tree kinds fallback crossed
  have hfallback : fallback = [.fallbackCondition, .falseCjs] :=
    (kindsOf_ofPackage ..).trans (by decide +kernel)
  have hcrossed : crossed = [.falseCjs, .falseEsm] :=
    (kindsOf_ofPackage ..).trans (by decide +kernel)
  rw [hfallback, hcrossed]
  exact ⟨⟨rfl, by decide⟩, rfl, by decide⟩

end Analysis

end TypingsAudit
