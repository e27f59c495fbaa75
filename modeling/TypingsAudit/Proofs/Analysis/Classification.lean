import TypingsAudit.Analysis.Comparison
import TypingsAudit.Proofs.Resolution.Soundness
import TypingsAudit.Proofs.Script.Sums

set_option autoImplicit false

/-! # The classification of a cell

What a cell is reported for is a table over the two answers, the formats of the two files and the
way they are written. `Finding.Applies` has one constructor for each row of the table, and
`Finding.mem_ofFiles_iff` says that the comparison reports the rows that apply and nothing else. No
kind is reported twice (`Finding.nodup_kinds_ofFiles`), so a kind is reported or it is not, and
`Classified` says for each kind when.

The two ways to have a false format never report the same kind: the first needs code in one format
where the second needs it in the other. -/

namespace TypingsAudit

/-! ## How the files are written -/

theorem FileTree.pairwise_exports {tree : FileTree} {path : String} {s : ModuleSyntax}
    (h : tree.moduleSyntax? path = some s) : s.exports.Pairwise (· < ·) := by
  obtain ⟨file, -, h⟩ := Option.bind_eq_some_iff.1 h
  split at h
  · rw [← Option.some.inj h]
    exact ModuleSyntax.pairwise_exports_ofSource ..
  · exact absurd h (by simp)

/-- The format that the file at a path is written in, where there is one and that shows. -/
def FileTree.authoredFormat? (tree : FileTree) (path : String) : Option ModuleFormat :=
  (tree.moduleSyntax? path).bind ModuleSyntax.format?

/-- A format shows exactly in a file that is written in the style of that format. -/
theorem FileTree.authoredFormat?_eq_some_iff {tree : FileTree} {path : String}
    {format : ModuleFormat} :
    tree.authoredFormat? path = some format ↔
      format = .esm ∧ (tree.moduleSyntax? path).map (·.kind) = some .esm ∨
        format = .cjs ∧ (tree.moduleSyntax? path).map (·.kind) = some .cjs := by
  unfold authoredFormat?
  cases tree.moduleSyntax? path with
  | none => simp
  | some s =>
      show s.format? = some format ↔ _
      unfold ModuleSyntax.format?
      cases hkind : s.kind <;> simp [hkind, eq_comm]

/-- Whether a problem of the kind is about two files that are both found. -/
def ProblemKind.comparesFiles : ProblemKind → Bool
  | .noResolution | .untypedResolution | .internalResolutionError => false
  | .falseEsm | .falseCjs | .cjsResolvesToEsm | .cjsOnlyExportsDefault | .namedExports
  | .fallbackCondition => true

/-! ## The table -/

namespace Finding

/-- The rows about files that pass for what they are not. -/
inductive Masquerade (types code : ModuleFormat) (authored : Option ModuleFormat) : Finding → Prop
  | codeIsEsm (htypes : types = .cjs) (hcode : code = .esm) :
      Masquerade types code authored (mismatch .typesVsRuntime .falseEsm .cjs .esm)
  | codeIsCjs (htypes : types = .esm) (hcode : code = .cjs) :
      Masquerade types code authored (mismatch .typesVsRuntime .falseCjs .esm .cjs)
  | writtenAsEsm (hcode : code = .cjs) (hauthored : authored = some .esm) :
      Masquerade types code authored (mismatch .declaredVsSyntax .falseEsm .cjs .esm)
  | writtenAsCjs (hcode : code = .esm) (hauthored : authored = some .cjs) :
      Masquerade types code authored (mismatch .declaredVsSyntax .falseCjs .esm .cjs)

/-- The name of the kind says what the file is that should be the other. -/
theorem Masquerade.details_eq {types code : ModuleFormat} {authored : Option ModuleFormat}
    {f : Finding} (h : Masquerade types code authored f) :
    ∃ source,
      f.kind = .falseEsm ∧ f.details = .formatMismatch source .cjs .esm ∨
      f.kind = .falseCjs ∧ f.details = .formatMismatch source .esm .cjs := by
  cases h with
  | codeIsEsm => exact ⟨_, .inl ⟨rfl, rfl⟩⟩
  | codeIsCjs => exact ⟨_, .inr ⟨rfl, rfl⟩⟩
  | writtenAsEsm => exact ⟨_, .inl ⟨rfl, rfl⟩⟩
  | writtenAsCjs => exact ⟨_, .inr ⟨rfl, rfl⟩⟩

/-- The rows about exports, for declarations and a script that are written like this. -/
inductive Lacks (declared script : ModuleSyntax) : Finding → Prop
  | default (hdeclared : "default" ∈ declared.exports) (hscript : "default" ∈ script.commonJs.names)
      (hwhole : script.commonJs.setsExports = false) :
      Lacks declared script ⟨.cjsOnlyExportsDefault, .none⟩
  | names (hknown : script.commonJs.hasUnknown = false)
      (hvalues : declared.hasExportAssignment = false)
      (hmissing : missingNames declared script ≠ []) :
      Lacks declared script ⟨.namedExports, .missingExports (missingNames declared script)⟩

/-- The rows of the table for declarations and code that are both found. -/
inductive Applies (tree : FileTree) (kind : ResolutionKind) (types code : Resolved) : Finding → Prop
  | fallback (hused : types.usedFallback = true) :
      Applies tree kind types code ⟨.fallbackCondition, .none⟩
  | masquerade {f : Finding} (hkind : kind.enforcesFormat = true)
      (hf : Masquerade types.format code.format (tree.authoredFormat? code.path) f) :
      Applies tree kind types code f
  | required (hkind : kind = .node16Cjs) (htypes : types.format = .esm) :
      Applies tree kind types code ⟨.cjsResolvesToEsm, .none⟩
  | exports {f : Finding} {declared script : ModuleSyntax} (hkind : kind = .node16Esm)
      (hcode : code.format = .cjs)
      (hplain : ∀ g, ¬ Masquerade types.format code.format (tree.authoredFormat? code.path) g)
      (hdeclared : tree.moduleSyntax? types.path = some declared)
      (hscript : tree.moduleSyntax? code.path = some script) (hf : Lacks declared script f) :
      Applies tree kind types code f

variable {tree : FileTree} {kind : ResolutionKind} {types code : Resolved} {f : Finding}

theorem ofFormats_eq_some_iff {types code : ModuleFormat} :
    ofFormats types code = some f ↔
      types = .cjs ∧ code = .esm ∧ f = mismatch .typesVsRuntime .falseEsm .cjs .esm ∨
      types = .esm ∧ code = .cjs ∧ f = mismatch .typesVsRuntime .falseCjs .esm .cjs := by
  unfold ofFormats
  split <;> simp_all [eq_comm]

theorem ofAuthored_eq_some_iff {code : ModuleFormat} {authored : Option ModuleFormat} :
    ofAuthored code authored = some f ↔
      code = .cjs ∧ authored = some .esm ∧ f = mismatch .declaredVsSyntax .falseEsm .cjs .esm ∨
      code = .esm ∧ authored = some .cjs ∧ f = mismatch .declaredVsSyntax .falseCjs .esm .cjs := by
  unfold ofAuthored
  split <;> simp_all [eq_comm]

/-- The second way to have a false format is never left out for the sake of the first: they report
    one kind only for code in different formats. -/
theorem mem_ofFalseFormats_iff {types code : ModuleFormat} {authored : Option ModuleFormat} :
    f ∈ ofFalseFormats types code authored ↔ Masquerade types code authored f := by
  simp only [ofFalseFormats, List.mem_append, Option.mem_toList,
    Option.filter_eq_some_iff]
  constructor
  · rintro (h | ⟨h, -⟩)
    · rcases ofFormats_eq_some_iff.1 h with ⟨htypes, hcode, rfl⟩ | ⟨htypes, hcode, rfl⟩
      · exact .codeIsEsm htypes hcode
      · exact .codeIsCjs htypes hcode
    · rcases ofAuthored_eq_some_iff.1 h with ⟨hcode, hauthored, rfl⟩ | ⟨hcode, hauthored, rfl⟩
      · exact .writtenAsEsm hcode hauthored
      · exact .writtenAsCjs hcode hauthored
  · intro h
    cases h with
    | codeIsEsm htypes hcode => exact .inl (ofFormats_eq_some_iff.2 (.inl ⟨htypes, hcode, rfl⟩))
    | codeIsCjs htypes hcode => exact .inl (ofFormats_eq_some_iff.2 (.inr ⟨htypes, hcode, rfl⟩))
    | writtenAsEsm hcode hauthored =>
        refine .inr ⟨ofAuthored_eq_some_iff.2 (.inl ⟨hcode, hauthored, rfl⟩), ?_⟩
        -- For code loaded as CommonJS the first way does not report this kind.
        subst hcode
        cases types <;> decide
    | writtenAsCjs hcode hauthored =>
        refine .inr ⟨ofAuthored_eq_some_iff.2 (.inr ⟨hcode, hauthored, rfl⟩), ?_⟩
        subst hcode
        cases types <;> decide

theorem mem_ofDefault_iff {declared script : ModuleSyntax} :
    f ∈ ofDefault declared script ↔
      ("default" ∈ declared.exports ∧ "default" ∈ script.commonJs.names ∧
        script.commonJs.setsExports = false) ∧ f = ⟨.cjsOnlyExportsDefault, .none⟩ := by
  rw [ofDefault, List.mem_ite_nil_right, List.mem_singleton, Bool.not_eq_true']

theorem mem_ofNames_iff {declared script : ModuleSyntax} :
    f ∈ ofNames declared script ↔
      (script.commonJs.hasUnknown = false ∧ declared.hasExportAssignment = false ∧
        missingNames declared script ≠ []) ∧
        f = ⟨.namedExports, .missingExports (missingNames declared script)⟩ := by
  rw [ofNames, List.mem_ite_nil_left, not_or, Bool.not_eq_true, Bool.not_eq_true]
  split
  · next hnone => simp [hnone]
  · next names hsome =>
      have hmissing : missingNames declared script ≠ [] := hsome
      rw [List.mem_singleton, and_iff_left hmissing]

theorem lacks_iff {declared script : ModuleSyntax} :
    Lacks declared script f ↔ f ∈ ofDefault declared script ++ ofNames declared script := by
  rw [List.mem_append, mem_ofDefault_iff, mem_ofNames_iff]
  constructor
  · intro h
    cases h with
    | default hdeclared hscript hwhole => exact .inl ⟨⟨hdeclared, hscript, hwhole⟩, rfl⟩
    | names hknown hvalues hmissing => exact .inr ⟨⟨hknown, hvalues, hmissing⟩, rfl⟩
  · rintro (⟨⟨hdeclared, hscript, hwhole⟩, rfl⟩ | ⟨⟨hknown, hvalues, hmissing⟩, rfl⟩)
    · exact .default hdeclared hscript hwhole
    · exact .names hknown hvalues hmissing

theorem mem_ofExports_iff {types code : Option ModuleSyntax} :
    f ∈ ofExports types code ↔
      ∃ declared script, types = some declared ∧ code = some script ∧ Lacks declared script f := by
  simp only [lacks_iff]
  cases types with
  | none => simp [ofExports]
  | some declared =>
      cases code with
      | none => simp [ofExports]
      | some script => simp [ofExports]

/-- **The comparison reports the rows that apply and nothing else.** -/
theorem mem_ofFiles_iff : f ∈ ofFiles tree kind types code ↔ Applies tree kind types code f := by
  have hfallback : f ∈ (if types.usedFallback then [⟨.fallbackCondition, .none⟩] else []) ↔
      types.usedFallback = true ∧ f = ⟨.fallbackCondition, .none⟩ := by
    rw [List.mem_ite_nil_right, List.mem_singleton]
  simp only [ofFiles]
  split
  · next henforces =>
      simp only [List.mem_append, hfallback, mem_ofFalseFormats_iff, List.mem_ite_nil_right,
        List.mem_singleton, mem_ofExports_iff, List.isEmpty_iff, List.eq_nil_iff_forall_not_mem]
      constructor
      · rintro (((⟨hused, rfl⟩ | hf) | ⟨⟨hkind, htypes⟩, rfl⟩) |
          ⟨⟨hkind, hcode, hplain⟩, declared, script, hdeclared, hscript, hf⟩)
        · exact .fallback hused
        · exact .masquerade henforces hf
        · exact .required hkind htypes
        · exact .exports hkind hcode hplain hdeclared hscript hf
      · intro h
        cases h with
        | fallback hused => exact .inl (.inl (.inl ⟨hused, rfl⟩))
        | masquerade _ hf => exact .inl (.inl (.inr hf))
        | required hkind htypes => exact .inl (.inr ⟨⟨hkind, htypes⟩, rfl⟩)
        | exports hkind hcode hplain hdeclared hscript hf =>
            exact .inr ⟨⟨hkind, hcode, hplain⟩, _, _, hdeclared, hscript, hf⟩
  · next hfree =>
      rw [hfallback]
      constructor
      · rintro ⟨hused, rfl⟩
        exact .fallback hused
      · intro h
        cases h with
        | fallback hused => exact ⟨hused, rfl⟩
        | masquerade hkind => exact absurd hkind hfree
        | required hkind => exact absurd (hkind ▸ rfl) hfree
        | exports hkind => exact absurd (hkind ▸ rfl) hfree

/-! ## Each kind at most once -/

/-- A kind that is found in both ways is left out the second time. -/
theorem nodup_kinds_ofFalseFormats (types code : ModuleFormat) (authored : Option ModuleFormat) :
    ((ofFalseFormats types code authored).map (·.kind)).Nodup := by
  unfold ofFalseFormats
  cases ofFormats types code with
  | none => cases ofAuthored code authored <;> simp [Option.filter_some]
  | some first =>
      cases ofAuthored code authored with
      | none => simp
      | some second =>
          simp only [Option.filter_some]
          split
          · next hne => simpa using hne
          · simp

theorem kinds_of_mem_ofFalseFormats (types code : ModuleFormat) (authored : Option ModuleFormat) :
    ∀ k ∈ (ofFalseFormats types code authored).map (·.kind), k = .falseEsm ∨ k = .falseCjs := by
  intro k hk
  obtain ⟨f, hf, rfl⟩ := List.mem_map.1 hk
  obtain ⟨_, h | h⟩ := (mem_ofFalseFormats_iff.1 hf).details_eq
  · exact .inl h.1
  · exact .inr h.1

/-- One test reports at most its own kind. -/
theorem kinds_ite_sublist (c : Prop) [Decidable c] (f : Finding) :
    ((if c then [f] else []).map (·.kind)).Sublist [f.kind] := by
  split <;> simp

theorem kinds_ofExports_sublist (types code : Option ModuleSyntax) :
    ((ofExports types code).map (·.kind)).Sublist [.cjsOnlyExportsDefault, .namedExports] := by
  have hnames : ∀ declared script : ModuleSyntax,
      ((ofNames declared script).map (·.kind)).Sublist [.namedExports] := by
    intro declared script
    unfold ofNames
    split
    · simp
    · split <;> simp
  unfold ofExports
  split
  · rw [List.map_append]
    exact (kinds_ite_sublist ..).append (hnames ..)
  · exact List.nil_sublist _

/-- The kinds that are found after the formats are compared. -/
def afterFormats : List ProblemKind :=
  [.cjsResolvesToEsm, .cjsOnlyExportsDefault, .namedExports]

/-- The kinds that are found in two files, part by part: that a fallback was used, the false formats,
    and what comes after them. -/
theorem exists_kinds_ofFiles_eq (tree : FileTree) (kind : ResolutionKind) (types code : Resolved) :
    ∃ rest : List ProblemKind,
      (ofFiles tree kind types code).map (·.kind) =
        (if types.usedFallback then [.fallbackCondition] else []) ++
        ((if kind.enforcesFormat then
            (ofFalseFormats types.format code.format (tree.authoredFormat? code.path)).map (·.kind)
          else []) ++ rest) ∧
      rest.Sublist afterFormats := by
  have hfallback : (if types.usedFallback then [(⟨.fallbackCondition, .none⟩ : Finding)] else []).map
      (·.kind) = if types.usedFallback then [.fallbackCondition] else [] := by
    split <;> rfl
  simp only [ofFiles]
  split
  · refine ⟨_, by rw [List.map_append, List.map_append, List.map_append, hfallback,
      List.append_assoc, List.append_assoc]; rfl, ?_⟩
    refine (kinds_ite_sublist ..).append ?_
    split
    · exact kinds_ofExports_sublist ..
    · exact List.nil_sublist _
  · exact ⟨[], by rw [hfallback, List.append_nil, List.append_nil], List.nil_sublist _⟩

/-- The parts report different kinds. -/
theorem nodup_kinds_append {formats : List ProblemKind} (hnodup : formats.Nodup)
    (hkinds : ∀ k ∈ formats, k = .falseEsm ∨ k = .falseCjs) :
    ([ProblemKind.fallbackCondition] ++ (formats ++ afterFormats)).Nodup := by
  have hformats : (formats ++ afterFormats).Nodup := by
    refine hnodup.append (by decide) fun k hk hrest => ?_
    rcases hkinds k hk with rfl | rfl <;> exact absurd hrest (by decide)
  refine (List.nodup_singleton _).append hformats fun k hk hrest => ?_
  obtain rfl := List.mem_singleton.1 hk
  rcases List.mem_append.1 hrest with hrest | hrest
  · exact absurd (hkinds _ hrest) (by decide)
  · exact absurd hrest (by decide)

/-- **The comparison reports each kind at most once.** -/
theorem nodup_kinds_ofFiles (tree : FileTree) (kind : ResolutionKind) (types code : Resolved) :
    ((ofFiles tree kind types code).map (·.kind)).Nodup := by
  obtain ⟨rest, hkinds, hrest⟩ := exists_kinds_ofFiles_eq tree kind types code
  have hformats := nodup_kinds_ofFalseFormats types.format code.format
    (tree.authoredFormat? code.path)
  have hmem := kinds_of_mem_ofFalseFormats types.format code.format (tree.authoredFormat? code.path)
  rw [hkinds]
  refine (nodup_kinds_append hformats hmem).sublist (.append ?_ (.append ?_ hrest))
  · split <;> simp
  · split <;> simp

/-! ## The table by kinds -/

theorem exists_masquerade_iff {types code : ModuleFormat} {authored : Option ModuleFormat}
    {kind : ProblemKind} :
    (∃ f, Masquerade types code authored f ∧ f.kind = kind) ↔
      kind = .falseEsm ∧
          (types = .cjs ∧ code = .esm ∨ code = .cjs ∧ authored = some .esm) ∨
        kind = .falseCjs ∧
          (types = .esm ∧ code = .cjs ∨ code = .esm ∧ authored = some .cjs) := by
  constructor
  · rintro ⟨f, hf, rfl⟩
    cases hf with
    | codeIsEsm htypes hcode => exact .inl ⟨rfl, .inl ⟨htypes, hcode⟩⟩
    | codeIsCjs htypes hcode => exact .inr ⟨rfl, .inl ⟨htypes, hcode⟩⟩
    | writtenAsEsm hcode hauthored => exact .inl ⟨rfl, .inr ⟨hcode, hauthored⟩⟩
    | writtenAsCjs hcode hauthored => exact .inr ⟨rfl, .inr ⟨hcode, hauthored⟩⟩
  · rintro (⟨rfl, ⟨htypes, hcode⟩ | ⟨hcode, hauthored⟩⟩ |
      ⟨rfl, ⟨htypes, hcode⟩ | ⟨hcode, hauthored⟩⟩)
    · exact ⟨_, .codeIsEsm htypes hcode, rfl⟩
    · exact ⟨_, .writtenAsEsm hcode hauthored, rfl⟩
    · exact ⟨_, .codeIsCjs htypes hcode, rfl⟩
    · exact ⟨_, .writtenAsCjs hcode hauthored, rfl⟩

/-- False formats come from the rows about them alone, -/
theorem Applies.masquerade_of_kind (h : Applies tree kind types code f)
    (hf : f.kind = .falseEsm ∨ f.kind = .falseCjs) :
    kind.enforcesFormat = true ∧
      Masquerade types.format code.format (tree.authoredFormat? code.path) f := by
  cases h with
  | fallback => exact absurd hf (by decide)
  | masquerade hkind hf => exact ⟨hkind, hf⟩
  | required => exact absurd hf (by decide)
  | exports _ _ _ _ _ hlacks => cases hlacks <;> simp at hf

/-- and what is said about exports from the rows about exports. -/
theorem Applies.lacks_of_kind (h : Applies tree kind types code f)
    (hf : f.kind = .cjsOnlyExportsDefault ∨ f.kind = .namedExports) :
    (kind = .node16Esm ∧ code.format = .cjs ∧
      ∀ g, ¬ Masquerade types.format code.format (tree.authoredFormat? code.path) g) ∧
    ∃ declared script, tree.moduleSyntax? types.path = some declared ∧
      tree.moduleSyntax? code.path = some script ∧ Lacks declared script f := by
  cases h with
  | fallback => exact absurd hf (by decide)
  | masquerade _ hmasquerade => cases hmasquerade <;> simp [mismatch] at hf
  | required => exact absurd hf (by decide)
  | exports hkind hcode hplain hdeclared hscript hlacks =>
      exact ⟨⟨hkind, hcode, hplain⟩, _, _, hdeclared, hscript, hlacks⟩

theorem Applies.usedFallback_of_kind (h : Applies tree kind types code f)
    (hf : f.kind = .fallbackCondition) : types.usedFallback = true := by
  cases h with
  | fallback hused => exact hused
  | masquerade _ hmasquerade => cases hmasquerade <;> simp [mismatch] at hf
  | required => exact absurd hf (by decide)
  | exports _ _ _ _ _ hlacks => cases hlacks <;> simp at hf

theorem Applies.required_of_kind (h : Applies tree kind types code f)
    (hf : f.kind = .cjsResolvesToEsm) : kind = .node16Cjs ∧ types.format = .esm := by
  cases h with
  | fallback => exact absurd hf (by decide)
  | masquerade _ hmasquerade => cases hmasquerade <;> simp [mismatch] at hf
  | required hkind htypes => exact ⟨hkind, htypes⟩
  | exports _ _ _ _ _ hlacks => cases hlacks <;> simp at hf

/-- All rows but one are for the algorithms that enforce formats. -/
theorem Applies.fallback_of_formatless (h : Applies tree kind types code f)
    (hkind : kind.enforcesFormat = false) : f.kind = .fallbackCondition := by
  cases h with
  | fallback => rfl
  | masquerade henforces => exact absurd henforces (by simp [hkind])
  | required hcjs => exact absurd (hcjs ▸ hkind) (by decide)
  | exports hesm => exact absurd (hesm ▸ hkind) (by decide)

theorem mem_missingNames_iff {declared script : ModuleSyntax} {name : String} :
    name ∈ missingNames declared script ↔
      name ∈ declared.exports ∧ name ≠ "default" ∧ name ∉ script.commonJs.names := by
  simp [missingNames, List.mem_filter]

theorem exists_lacks_default_iff {declared script : ModuleSyntax} :
    (∃ f, Lacks declared script f ∧ f.kind = .cjsOnlyExportsDefault) ↔
      "default" ∈ declared.exports ∧ "default" ∈ script.commonJs.names ∧
        script.commonJs.setsExports = false := by
  constructor
  · rintro ⟨f, hf, hkind⟩
    cases hf with
    | default hdeclared hscript hwhole => exact ⟨hdeclared, hscript, hwhole⟩
    | names => exact absurd hkind (by simp)
  · rintro ⟨hdeclared, hscript, hwhole⟩
    exact ⟨_, .default hdeclared hscript hwhole, rfl⟩

theorem exists_lacks_names_iff {declared script : ModuleSyntax} :
    (∃ f, Lacks declared script f ∧ f.kind = .namedExports) ↔
      script.commonJs.hasUnknown = false ∧ declared.hasExportAssignment = false ∧
        ∃ name ∈ declared.exports, name ≠ "default" ∧ name ∉ script.commonJs.names := by
  have hmissing : missingNames declared script ≠ [] ↔
      ∃ name ∈ declared.exports, name ≠ "default" ∧ name ∉ script.commonJs.names := by
    rw [ne_eq, List.eq_nil_iff_forall_not_mem, not_forall_not]
    simp only [mem_missingNames_iff]
  rw [← hmissing]
  constructor
  · rintro ⟨f, hf, hkind⟩
    cases hf with
    | default => exact absurd hkind (by decide)
    | names hknown hvalues hsome => exact ⟨hknown, hvalues, hsome⟩
  · rintro ⟨hknown, hvalues, hsome⟩
    exact ⟨_, .names hknown hvalues hsome, rfl⟩

end Finding

/-- Whether a problem of the kind is among the problems. -/
def Reported (problems : List Problem) (kind : ProblemKind) : Prop :=
  kind ∈ problems.map (·.kind)

/-- An ES module imports CommonJS code, with declarations of the same format, and nothing passes for
    what it is not. -/
structure ImportsCommonJs (cell : Cell) (types code : Resolved) (problems : List Problem) :
    Prop where
  kind : cell.kind = .node16Esm
  types : types.format = .cjs
  code : code.format = .cjs
  notEsm : ¬ Reported problems .falseEsm
  notCjs : ¬ Reported problems .falseCjs

/-- What the problems of a cell are when it has both declarations and code. -/
structure Classified (tree : FileTree) (cell : Cell) (types code : Resolved)
    (problems : List Problem) : Prop where
  named : ∀ p ∈ problems,
    p.cell = cell ∧ p.typesPath = some types.path ∧ p.runtimePath = some code.path
  once : (problems.map (·.kind)).Nodup
  compares : ∀ p ∈ problems, p.kind.comparesFiles = true
  fallback : Reported problems .fallbackCondition ↔ types.usedFallback = true
  /-- Where formats do not matter, nothing else is reported. -/
  formatless : cell.kind.enforcesFormat = false → ∀ p ∈ problems, p.kind = .fallbackCondition
  falseEsm : Reported problems .falseEsm ↔ cell.kind.enforcesFormat = true ∧
    (types.format = .cjs ∧ code.format = .esm ∨
      code.format = .cjs ∧ (tree.moduleSyntax? code.path).map (·.kind) = some .esm)
  falseCjs : Reported problems .falseCjs ↔ cell.kind.enforcesFormat = true ∧
    (types.format = .esm ∧ code.format = .cjs ∨
      code.format = .esm ∧ (tree.moduleSyntax? code.path).map (·.kind) = some .cjs)
  required : Reported problems .cjsResolvesToEsm ↔ cell.kind = .node16Cjs ∧ types.format = .esm
  default : Reported problems .cjsOnlyExportsDefault ↔
    ImportsCommonJs cell types code problems ∧ ∃ declared script,
      tree.moduleSyntax? types.path = some declared ∧ tree.moduleSyntax? code.path = some script ∧
      "default" ∈ declared.exports ∧ "default" ∈ script.commonJs.names ∧
      script.commonJs.setsExports = false
  names : Reported problems .namedExports ↔
    ImportsCommonJs cell types code problems ∧ ∃ declared script,
      tree.moduleSyntax? types.path = some declared ∧ tree.moduleSyntax? code.path = some script ∧
      script.commonJs.hasUnknown = false ∧ declared.hasExportAssignment = false ∧
      ∃ name ∈ declared.exports, name ≠ "default" ∧ name ∉ script.commonJs.names
  falseEsm_details : ∀ p ∈ problems, p.kind = .falseEsm →
    ∃ source, p.details = .formatMismatch source .cjs .esm
  falseCjs_details : ∀ p ∈ problems, p.kind = .falseCjs →
    ∃ source, p.details = .formatMismatch source .esm .cjs
  /-- The names that are missing, in ascending order and each once. -/
  names_details : ∀ p ∈ problems, p.kind = .namedExports → ∃ declared script missing,
    tree.moduleSyntax? types.path = some declared ∧ tree.moduleSyntax? code.path = some script ∧
    p.details = .missingExports missing ∧ missing ≠ [] ∧ missing.Pairwise (· < ·) ∧
    ∀ name, name ∈ missing ↔
      name ∈ declared.exports ∧ name ≠ "default" ∧ name ∉ script.commonJs.names

theorem Finding.Applies.comparesFiles {tree : FileTree} {kind : ResolutionKind}
    {types code : Resolved} {f : Finding} (h : Applies tree kind types code f) :
    f.kind.comparesFiles = true := by
  cases h with
  | fallback => rfl
  | masquerade _ hf => cases hf <;> rfl
  | required => rfl
  | exports _ _ _ _ _ hf => cases hf <;> rfl

theorem Finding.comparesFiles_of_mem_ofFiles {tree : FileTree} {kind : ResolutionKind}
    {types code : Resolved} {f : Finding} (h : f ∈ ofFiles tree kind types code) :
    f.kind.comparesFiles = true :=
  (mem_ofFiles_iff.1 h).comparesFiles

namespace CellResult

open Finding

variable {tree : FileTree} {result : CellResult} {types code : Resolved}

section Found

variable (htypes : result.types = .found types) (hcode : result.runtime = .found code)
include htypes hcode

theorem findings_of_found :
    result.findings tree = ofFiles tree result.cell.kind types code := by
  rw [findings, htypes, hcode]

/-- The problems of a cell are the rows that apply to it. -/
theorem mem_problems_iff {p : Problem} :
    p ∈ result.problems tree ↔
      ∃ f, Applies tree result.cell.kind types code f ∧ result.problem f = p := by
  rw [problems, findings_of_found htypes hcode, List.mem_map]
  simp only [mem_ofFiles_iff]

theorem reported_iff {kind : ProblemKind} :
    Reported (result.problems tree) kind ↔
      ∃ f, Applies tree result.cell.kind types code f ∧ f.kind = kind := by
  have hkinds : (result.problems tree).map (·.kind)
      = (ofFiles tree result.cell.kind types code).map (·.kind) := by
    rw [problems, findings_of_found htypes hcode, List.map_map]
    rfl
  rw [Reported, hkinds, List.mem_map]
  simp only [mem_ofFiles_iff]

/-- A false format is reported where one of the rows about them applies. -/
theorem reported_masquerade_iff {kind : ProblemKind} (hkind : kind = .falseEsm ∨ kind = .falseCjs) :
    Reported (result.problems tree) kind ↔ result.cell.kind.enforcesFormat = true ∧
      ∃ f, Masquerade types.format code.format (tree.authoredFormat? code.path) f ∧
        f.kind = kind := by
  rw [reported_iff htypes hcode]
  constructor
  · rintro ⟨f, hf, rfl⟩
    obtain ⟨henforces, hmasquerade⟩ := hf.masquerade_of_kind hkind
    exact ⟨henforces, f, hmasquerade, rfl⟩
  · rintro ⟨henforces, f, hmasquerade, rfl⟩
    exact ⟨f, .masquerade henforces hmasquerade, rfl⟩

/-- Declarations are loaded in one of two formats. So for an ES module's import of CommonJS code
    without a false format, they are CommonJS too. -/
theorem importsCommonJs_iff (hformat : types.format = .esm ∨ types.format = .cjs) :
    ImportsCommonJs result.cell types code (result.problems tree) ↔
      result.cell.kind = .node16Esm ∧ code.format = .cjs ∧
        ∀ g, ¬ Masquerade types.format code.format (tree.authoredFormat? code.path) g := by
  constructor
  · intro h
    have henforces : result.cell.kind.enforcesFormat = true := by rw [h.kind]; rfl
    refine ⟨h.kind, h.code, fun g hg => ?_⟩
    obtain ⟨source, hkind | hkind⟩ := hg.details_eq
    · exact h.notEsm ((reported_masquerade_iff htypes hcode (.inl rfl)).2
        ⟨henforces, g, hg, hkind.1⟩)
    · exact h.notCjs ((reported_masquerade_iff htypes hcode (.inr rfl)).2
        ⟨henforces, g, hg, hkind.1⟩)
  · rintro ⟨hkind, hcjs, hplain⟩
    refine ⟨hkind, ?_, hcjs, fun h => ?_, fun h => ?_⟩
    · -- Declarations loaded as ESM would have a false format here.
      rcases hformat with hesm | hcjs'
      · exact absurd (.codeIsCjs hesm hcjs) (hplain _)
      · exact hcjs'
    · obtain ⟨-, g, hg, -⟩ := (reported_masquerade_iff htypes hcode (.inl rfl)).1 h
      exact hplain g hg
    · obtain ⟨-, g, hg, -⟩ := (reported_masquerade_iff htypes hcode (.inr rfl)).1 h
      exact hplain g hg

/-- Something about exports is reported where one of the rows about them applies. -/
theorem reported_exports_iff (hformat : types.format = .esm ∨ types.format = .cjs)
    {kind : ProblemKind} (hkind : kind = .cjsOnlyExportsDefault ∨ kind = .namedExports) :
    Reported (result.problems tree) kind ↔
      ImportsCommonJs result.cell types code (result.problems tree) ∧ ∃ declared script,
        tree.moduleSyntax? types.path = some declared ∧ tree.moduleSyntax? code.path = some script ∧
        ∃ f, Lacks declared script f ∧ f.kind = kind := by
  rw [importsCommonJs_iff htypes hcode hformat, reported_iff htypes hcode]
  constructor
  · rintro ⟨f, hf, rfl⟩
    obtain ⟨himports, declared, script, hdeclared, hscript, hlacks⟩ := hf.lacks_of_kind hkind
    exact ⟨himports, declared, script, hdeclared, hscript, f, hlacks, rfl⟩
  · rintro ⟨⟨hesm, hcjs, hplain⟩, declared, script, hdeclared, hscript, f, hlacks, rfl⟩
    exact ⟨f, .exports hesm hcjs hplain hdeclared hscript hlacks, rfl⟩

/-- A cell with declarations and code is classified by the table. -/
theorem classified (hformat : types.format = .esm ∨ types.format = .cjs) :
    Classified tree result.cell types code (result.problems tree) where
  named p hp := by
    obtain ⟨f, -, rfl⟩ := (mem_problems_iff htypes hcode).1 hp
    refine ⟨rfl, ?_, ?_⟩
    · show result.types.path? = _
      rw [htypes]
      rfl
    · show result.runtime.path? = _
      rw [hcode]
      rfl
  once := by
    rw [problems, findings_of_found htypes hcode, List.map_map]
    exact nodup_kinds_ofFiles ..
  compares p hp := by
    obtain ⟨f, hf, rfl⟩ := (mem_problems_iff htypes hcode).1 hp
    exact hf.comparesFiles
  fallback := by
    rw [reported_iff htypes hcode]
    constructor
    · rintro ⟨f, hf, hkind⟩
      exact hf.usedFallback_of_kind hkind
    · intro hused
      exact ⟨_, .fallback hused, rfl⟩
  formatless hfree p hp := by
    obtain ⟨f, hf, rfl⟩ := (mem_problems_iff htypes hcode).1 hp
    exact hf.fallback_of_formatless hfree
  falseEsm := by
    rw [reported_masquerade_iff htypes hcode (.inl rfl), exists_masquerade_iff]
    simp [FileTree.authoredFormat?_eq_some_iff]
  falseCjs := by
    rw [reported_masquerade_iff htypes hcode (.inr rfl), exists_masquerade_iff]
    simp [FileTree.authoredFormat?_eq_some_iff]
  required := by
    rw [reported_iff htypes hcode]
    constructor
    · rintro ⟨f, hf, hkind⟩
      exact hf.required_of_kind hkind
    · rintro ⟨hkind, hesm⟩
      exact ⟨_, .required hkind hesm, rfl⟩
  default := by
    rw [reported_exports_iff htypes hcode hformat (.inl rfl)]
    simp only [exists_lacks_default_iff]
  names := by
    rw [reported_exports_iff htypes hcode hformat (.inr rfl)]
    simp only [exists_lacks_names_iff]
  falseEsm_details p hp hkind := by
    obtain ⟨f, hf, rfl⟩ := (mem_problems_iff htypes hcode).1 hp
    have hkind : f.kind = .falseEsm := hkind
    obtain ⟨source, h | h⟩ := (hf.masquerade_of_kind (.inl hkind)).2.details_eq
    · exact ⟨source, h.2⟩
    · exact absurd (hkind.symm.trans h.1) (by decide)
  falseCjs_details p hp hkind := by
    obtain ⟨f, hf, rfl⟩ := (mem_problems_iff htypes hcode).1 hp
    have hkind : f.kind = .falseCjs := hkind
    obtain ⟨source, h | h⟩ := (hf.masquerade_of_kind (.inr hkind)).2.details_eq
    · exact absurd (hkind.symm.trans h.1) (by decide)
    · exact ⟨source, h.2⟩
  names_details p hp hkind := by
    obtain ⟨f, hf, rfl⟩ := (mem_problems_iff htypes hcode).1 hp
    obtain ⟨-, declared, script, hdeclared, hscript, hlacks⟩ := hf.lacks_of_kind (.inr hkind)
    refine ⟨declared, script, missingNames declared script, hdeclared, hscript, ?_⟩
    cases hlacks with
    | default => exact absurd hkind (by simp [problem])
    | names hknown hvalues hmissing =>
        exact ⟨rfl, hmissing, (FileTree.pairwise_exports hdeclared).filter _,
          fun name => mem_missingNames_iff⟩

end Found

/-- **A cell is classified by an exact table**, whichever questions its two answers are to. Without
    declarations or without code one problem says so, with the reason of the answer that found
    nothing. With both, `Classified` is the table. -/
theorem problems_classified (r : Resolver) (cell : Cell) (kind kind' : ResolutionKind)
    (forTypes forCode : Question) :
    let result : CellResult :=
      ⟨cell, r.answer kind .types forTypes, r.answer kind' .runtime forCode⟩
    let problems := result.problems r.tree
    (∀ reason reason', result.types = .notFound reason → result.runtime = .notFound reason' →
      problems = []) ∧
    (∀ reason code, result.types = .notFound reason → result.runtime = .found code →
      problems = [⟨.noResolution, cell, none, some code.path, .resolutionFailure reason⟩]) ∧
    (∀ types reason, result.types = .found types → result.runtime = .notFound reason →
      problems = [⟨.internalResolutionError, cell, some types.path, none,
        .resolutionFailure reason⟩]) ∧
    (∀ types code, result.types = .found types → result.runtime = .found code →
      Classified r.tree cell types code problems) := by
  intro result problems
  have hproblems : problems = (result.findings r.tree).map result.problem := rfl
  refine ⟨fun reason reason' htypes hcode => ?_, fun reason code htypes hcode => ?_,
    fun types reason htypes hcode => ?_, fun types code htypes hcode => ?_⟩
  · rw [hproblems, findings, htypes, hcode, List.map_nil]
  · rw [hproblems, findings, htypes, hcode, List.map_singleton, problem, htypes, hcode]
    rfl
  · rw [hproblems, findings, htypes, hcode, List.map_singleton, problem, htypes, hcode]
    rfl
  · have hdeclared := (Resolver.vouches_answer kind forTypes types htypes).declared rfl
    exact classified htypes hcode hdeclared.2

/-- A package with code that passes for CommonJS, code without declarations and declarations without
    code. -/
theorem masked_problems_classified :
    let manifest : Manifest := ⟨none, none, none, none, none, none,
      some (.subpaths
        [("./masked", .conditions
            [("types", .target "./masked.d.cts"), ("default", .target "./masked.mjs")]),
         ("./untyped", .target "./untyped.js"),
         ("./unbuilt", .conditions [("types", .target "./unbuilt.d.ts")])]), none⟩
    let tree := (((FileTree.empty.insert "masked.d.cts" []).insert "masked.mjs" []).insert
      "untyped.js" []).insert "unbuilt.d.ts" []
    let r := Resolver.ofPackage tree manifest []
    let cell (subpath : String) : Cell := ⟨subpath, .node16Esm⟩
    let problems (subpath : String) : List Problem := CellResult.problems tree
      ⟨cell subpath, r.answer .node16Esm .types (.entry subpath),
        r.answer .node16Esm .runtime (.entry subpath)⟩
    problems "./hidden" = [] ∧
    problems "./untyped" = [⟨.noResolution, cell "./untyped", none, some "untyped.js",
      .resolutionFailure .notADeclaration⟩] ∧
    problems "./unbuilt" = [⟨.internalResolutionError, cell "./unbuilt", some "unbuilt.d.ts", none,
      .resolutionFailure .noActiveCondition⟩] ∧
    (Reported (problems "./masked") .falseEsm ∧
      ¬ Reported (problems "./masked") .cjsResolvesToEsm ∧
      ¬ Reported (problems "./masked") .namedExports) := by
  intro manifest tree r cell problems
  obtain ⟨hneither, -, -, -⟩ := problems_classified r (cell "./hidden") .node16Esm .node16Esm
    (.entry "./hidden") (.entry "./hidden")
  obtain ⟨-, huntyped, -, -⟩ := problems_classified r (cell "./untyped") .node16Esm .node16Esm
    (.entry "./untyped") (.entry "./untyped")
  obtain ⟨-, -, hunbuilt, -⟩ := problems_classified r (cell "./unbuilt") .node16Esm .node16Esm
    (.entry "./unbuilt") (.entry "./unbuilt")
  obtain ⟨-, -, -, hboth⟩ := problems_classified r (cell "./masked") .node16Esm .node16Esm
    (.entry "./masked") (.entry "./masked")
  have hmasked : Classified tree (cell "./masked") ⟨"masked.d.cts", .cjs, true, false⟩
      ⟨"masked.mjs", .esm, false, false⟩ (problems "./masked") :=
    hboth _ _ (by decide +kernel) (by decide +kernel)
  refine ⟨hneither .subpathNotExported .subpathNotExported (by decide +kernel) (by decide +kernel),
    huntyped .notADeclaration ⟨"untyped.js", .cjs, false, false⟩ (by decide +kernel)
      (by decide +kernel),
    hunbuilt ⟨"unbuilt.d.ts", .cjs, true, false⟩ .noActiveCondition (by decide +kernel)
      (by decide +kernel), ?_, fun h => ?_, fun h => ?_⟩
  · exact hmasked.falseEsm.2 ⟨rfl, .inl ⟨rfl, rfl⟩⟩
  · exact absurd (hmasked.required.1 h).1 (by decide)
  · exact absurd (hmasked.names.1 h).1.code (by decide)

end CellResult

end TypingsAudit
