import TypingsAudit.Proofs.Resolution.Specifiers
import TypingsAudit.Proofs.Resolution.Targets

set_option autoImplicit false

/-! # Answers that are marked as fallbacks

An answer with `usedFallback` says that `exports` named other targets first, and none of them has
declarations. `Resolver.Unmarked` answers do not say so. All that looks at a path or at the older
fields gives unmarked answers, and so does everything that is asked for code
(`unmarked_atPath`, `unmarked_legacy`, `unmarked_atSubpath`).

What is left are declarations by the targets of `exports` (`atSubpath_types_of_candidates`): there
the first target with declarations counts, and the mark tells whether it is the first of all. -/

namespace TypingsAudit

namespace Resolver

variable {r : Resolver} {kind : ResolutionKind} {mode : ResolutionMode} {subpath : String}
  {active : ConditionSet}

/-- The answer is not marked as a fallback. -/
def Unmarked (answer : Resolution) : Prop :=
  ∀ file, answer = .found file → file.usedFallback = false

/-! ## What is never marked -/

theorem unmarked_notFound (reason : NotFoundReason) : Unmarked (.notFound reason) := by
  intro file h
  cases h

theorem unmarked_found (path : String) : Unmarked (r.found path false) := by
  intro file h
  rw [← Resolution.found.inj h]

theorem unmarked_foundOr (reason : NotFoundReason) (outcome : Option String) :
    Unmarked (r.foundOr reason outcome) := by
  cases outcome with
  | none => exact unmarked_notFound reason
  | some path => exact unmarked_found path

theorem unmarked_exactly (path : String) : Unmarked (r.exactly path mode) := by
  cases htarget : (exactTarget? mode path).filter r.tree.isFile with
  | some target =>
      rw [exactly_of_target htarget]
      exact unmarked_found target
  | none =>
      intro file h
      have hfound : (r.exactly path mode).isFound = true := by
        rw [h]
        rfl
      exact absurd hfound (by rw [exactly_of_none htarget]; simp)

theorem unmarked_atPath (path : String) : Unmarked (r.atPath kind path mode) := by
  unfold atPath
  split
  · exact unmarked_exactly path
  · exact unmarked_foundOr _ _

theorem unmarked_firstFound {answers : List Resolution} (h : ∀ answer ∈ answers, Unmarked answer) :
    Unmarked (firstFound answers) := by
  induction answers with
  | nil => exact unmarked_notFound _
  | cons answer rest ih =>
      have hanswer := h answer (List.mem_cons_self ..)
      have hrest := ih fun other hother => h other (List.mem_cons_of_mem _ hother)
      cases rest with
      | nil => exact hanswer
      | cons next rest =>
          rw [firstFound]
          · split
            · exact hanswer
            · exact hrest
          · simp

theorem unmarked_legacy : Unmarked (r.legacy kind subpath mode) := by
  by_cases hroot : subpath = Exports.rootSubpath
  · rw [legacy, if_pos hroot]
    exact unmarked_foundOr _ _
  · cases hpath : Path.normalize? subpath with
    | none =>
        rw [legacy_of_escape hroot hpath]
        exact unmarked_notFound _
    | some path =>
        rw [legacy_eq_firstFound hroot hpath]
        exact unmarked_firstFound (List.forall_mem_map.2 fun place _ => unmarked_atPath place)

/-- For code only the first target counts. -/
theorem unmarked_nodeTargets_runtime (targets : List String) :
    Unmarked (r.nodeTargets targets subpath .runtime) := by
  simp only [nodeTargets]
  split
  · exact unmarked_notFound _
  · split
    · exact unmarked_found _
    · exact unmarked_notFound _

theorem unmarked_bundlerTargets_runtime (targets : List String) :
    Unmarked (r.bundlerTargets targets .runtime) := by
  simp only [bundlerTargets]
  split
  · exact unmarked_notFound _
  · exact unmarked_foundOr _ _

/-- Only declarations by the targets of `exports` are ever marked. -/
theorem unmarked_atSubpath (h : kind ≠ .node10 → mode = .types → ∀ exports targets,
      r.manifest.exports = some exports → exports.lookup subpath active ≠ .candidates targets) :
    Unmarked (r.atSubpath kind subpath mode active) := by
  by_cases hlegacy : r.manifest.exports = none ∨ kind = .node10
  · rw [atSubpath_eq_legacy hlegacy]
    exact unmarked_legacy
  · rw [not_or] at hlegacy
    obtain ⟨hsome, hkind⟩ := hlegacy
    obtain ⟨exports, hexports⟩ := Option.ne_none_iff_exists'.1 hsome
    have hruntime : ∀ targets, exports.lookup subpath active = .candidates targets →
        mode = .runtime := by
      intro targets hlookup
      cases mode with
      | runtime => rfl
      | types => exact absurd hlookup (h hkind rfl exports targets hexports)
    cases kind with
    | node10 => exact absurd rfl hkind
    | node16Cjs | node16Esm =>
        simp only [atSubpath, hexports, nodeExports]
        cases hlookup : exports.lookup subpath active with
        | candidates targets =>
            rw [hruntime targets hlookup]
            exact unmarked_nodeTargets_runtime targets
        | notExported | noActiveCondition | invalidTarget => exact unmarked_notFound _
    | bundler =>
        simp only [atSubpath, hexports, bundlerExports]
        cases hlookup : exports.lookup subpath active with
        | candidates targets =>
            rw [hruntime targets hlookup]
            exact unmarked_bundlerTargets_runtime targets
        | notExported | noActiveCondition | invalidTarget => exact unmarked_legacy

/-! ## Declarations by the targets of `exports` -/

/-- A target is acceptable to Node.js when it is a declaration file, and to a bundler when there are
    declarations for it. -/
theorem declarationFor_eq_some_iff {target path : String} :
    r.declarationFor kind target = some path ↔
      ∃ normal, Path.normalize? target = some normal ∧
        if kind = .bundler then r.declarationFile normal = some path
        else path = normal ∧ Path.isDeclaration normal = true ∧ r.tree.isFile normal = true := by
  unfold declarationFor targetDeclaration namedDeclaration
  by_cases hbundler : kind = .bundler
  · simp only [if_pos hbundler, Option.bind_eq_some_iff]
  · simp only [if_neg hbundler, Option.filter_eq_some_iff, Bool.and_eq_true]
    constructor
    · rintro ⟨hnormal, hfile⟩
      exact ⟨path, hnormal, rfl, hfile⟩
    · rintro ⟨normal, hnormal, rfl, hfile⟩
      exact ⟨hnormal, hfile⟩

/-- What the field `types` names for the package root. -/
theorem rootTypes_eq_some_iff {path : String} :
    r.rootTypes subpath = some path ↔
      subpath = Exports.rootSubpath ∧ ∃ types normal, r.manifest.types = some types ∧
        Path.normalize? types = some normal ∧ r.declarationsAt normal = some path := by
  unfold rootTypes fieldPath
  by_cases hroot : subpath = Exports.rootSubpath
  · rw [if_pos hroot]
    simp only [hroot, true_and, Option.bind_eq_some_iff]
    constructor
    · rintro ⟨normal, ⟨types, htypes, hnormal⟩, hpath⟩
      exact ⟨types, normal, htypes, hnormal, hpath⟩
    · rintro ⟨types, normal, htypes, hnormal, hpath⟩
      exact ⟨normal, ⟨types, htypes, hnormal⟩, hpath⟩
  · simp [hroot]

/-- The answer for declarations where a lookup in `exports` has targets. -/
theorem atSubpath_types_of_candidates {exports : Exports}
    (hexports : r.manifest.exports = some exports) (hkind : kind ≠ .node10)
    {targets : List String} (hlookup : exports.lookup subpath active = .candidates targets) :
    r.atSubpath kind subpath .types active =
      (r.firstDeclared (r.declarationFor kind) targets).getD
        (if kind = .bundler then .notFound .notADeclaration
          else r.foundOr .notADeclaration (r.rootTypes subpath)) := by
  have hnode : kind ≠ .bundler → r.declarationFor kind = r.namedDeclaration := fun hne =>
    funext fun _ => if_neg hne
  have hbundler : r.declarationFor .bundler = r.targetDeclaration := funext fun _ => if_pos rfl
  cases kind with
  | node10 => exact absurd rfl hkind
  | node16Cjs | node16Esm =>
      rw [hnode (by decide), if_neg (by decide)]
      simp only [atSubpath, hexports, nodeExports, hlookup, nodeTargets]
      cases r.firstDeclared r.namedDeclaration targets <;> rfl
  | bundler =>
      rw [hbundler, if_pos rfl]
      simp only [atSubpath, hexports, bundlerExports, hlookup, bundlerTargets]
      cases r.firstDeclared r.targetDeclaration targets <;> rfl

/-- The first target with declarations answers. -/
theorem atSubpath_types_of_firstAt {exports : Exports}
    (hexports : r.manifest.exports = some exports) (hkind : kind ≠ .node10)
    {targets : List String} (hlookup : exports.lookup subpath active = .candidates targets)
    {index : Nat} {path : String} (hfirst : FirstAt (r.declarationFor kind) targets index path) :
    r.atSubpath kind subpath .types active = r.found path (decide (0 < index)) := by
  rw [atSubpath_types_of_candidates hexports hkind hlookup,
    firstDeclared_eq_some_iff.2 ⟨index, path, hfirst, rfl⟩]
  rfl

/-- Where no target has declarations, a bundler gives up and Node.js turns to the field `types`. -/
theorem atSubpath_types_of_none {exports : Exports} (hexports : r.manifest.exports = some exports)
    (hkind : kind ≠ .node10) {targets : List String}
    (hlookup : exports.lookup subpath active = .candidates targets)
    (hnone : ∀ target ∈ targets, r.declarationFor kind target = none) :
    r.atSubpath kind subpath .types active =
      if kind = .bundler then .notFound .notADeclaration
      else r.foundOr .notADeclaration (r.rootTypes subpath) := by
  rw [atSubpath_types_of_candidates hexports hkind hlookup, firstDeclared_eq_none_iff.2 hnone]
  rfl

/-- The file is the one that the first target with declarations leads to, and that target is not the
    first one of all. -/
def IsLaterTarget (r : Resolver) (kind : ResolutionKind) (subpath : String)
    (active : ConditionSet) (file : Resolved) : Prop :=
  ∃ exports targets index, r.manifest.exports = some exports ∧
    exports.lookup subpath active = .candidates targets ∧ 0 < index ∧
      FirstAt (r.declarationFor kind) targets index file.path

/-- **A marked answer for a subpath gives declarations by a later target.** -/
theorem isLaterTarget_of_usedFallback {file : Resolved}
    (h : r.atSubpath kind subpath mode active = .found file) (hmark : file.usedFallback = true) :
    mode = .types ∧ kind ≠ .node10 ∧ r.IsLaterTarget kind subpath active file := by
  have hnot : ∀ {answer}, Unmarked answer → answer ≠ .found file := by
    rintro answer hunmarked rfl
    exact absurd (hunmarked file rfl) (by simp [hmark])
  by_cases htargets : kind ≠ .node10 ∧ mode = .types ∧ ∃ exports targets,
      r.manifest.exports = some exports ∧ exports.lookup subpath active = .candidates targets
  · obtain ⟨hkind, rfl, exports, targets, hexports, hlookup⟩ := htargets
    rw [atSubpath_types_of_candidates hexports hkind hlookup] at h
    cases hdeclared : r.firstDeclared (r.declarationFor kind) targets with
    | none =>
        rw [hdeclared, Option.getD_none] at h
        split at h
        · exact absurd h (by simp)
        · exact absurd h (hnot (unmarked_foundOr _ _))
    | some answer =>
        rw [hdeclared, Option.getD_some] at h
        obtain ⟨index, path, hfirst, rfl⟩ := firstDeclared_eq_some_iff.1 hdeclared
        obtain rfl := Resolution.found.inj h
        exact ⟨rfl, hkind, exports, targets, index, hexports, hlookup, of_decide_eq_true hmark,
          hfirst⟩
  · refine absurd h (hnot (unmarked_atSubpath ?_))
    intro hkind hmode exports targets hexports hlookup
    exact htargets ⟨hkind, hmode, exports, targets, hexports, hlookup⟩

/-- What is not about a subpath of the package is about a path, or about nothing. -/
theorem unmarked_of_subpath?_eq_none {question : Question} (h : question.subpath? r = none) :
    Unmarked (r.answer kind mode question) := by
  cases question with
  | entry subpath => exact absurd h (by simp [Question.subpath?])
  | specifier text importer active =>
      by_cases hrelative : isRelative text = true
      · simp only [answer, resolve, if_pos hrelative]
        split
        · exact unmarked_atPath _
        · exact unmarked_notFound _
      · have hsubpath : r.subpathOf? text = none := by
          rwa [Question.subpath?, if_neg hrelative] at h
        simp only [answer, resolve, if_neg hrelative, hsubpath]
        exact unmarked_notFound _

/-- **Declarations by `exports` are those of the first acceptable target, and marked unless that is
    the first target of all.** Where no target is acceptable, a bundler finds no declarations, and
    Node.js finds unmarked ones by the field `types`, for the package root alone. No other answer is
    ever marked: not one for code, not one of `node10`, and not one that a path or the older fields
    lead to. -/
theorem first_acceptable_target_answers (tree : FileTree) (manifest : Manifest)
    (conditions : List String) (kind : ResolutionKind) (question : Question) :
    let r := ofPackage tree manifest conditions
    (∀ subpath exports targets, kind ≠ .node10 → question.subpath? r = some subpath →
      manifest.exports = some exports →
      exports.lookup subpath (question.active r kind .types) = .candidates targets →
      let answer := r.answer kind .types question
      let acceptable := fun target path => ∃ normal, Path.normalize? target = some normal ∧
        if kind = .bundler then r.declarationFile normal = some path
        else path = normal ∧ Path.isDeclaration normal = true ∧ tree.isFile normal = true
      ((∃ target ∈ targets, ∃ path, acceptable target path) →
        ∃ index target path, targets[index]? = some target ∧ acceptable target path ∧
          (∀ k < index, ∀ other, targets[k]? = some other → ∀ path, ¬ acceptable other path) ∧
          answer = r.found path (decide (0 < index))) ∧
      ((∀ target ∈ targets, ∀ path, ¬ acceptable target path) →
        (kind = .bundler → answer = .notFound .notADeclaration) ∧
        (kind ≠ .bundler →
          let named := fun path => subpath = Exports.rootSubpath ∧ ∃ types normal,
            manifest.types = some types ∧ Path.normalize? types = some normal ∧
            r.declarationsAt normal = some path
          (∀ path, named path → answer = r.found path false) ∧
          ((∀ path, ¬ named path) → answer = .notFound .notADeclaration)))) ∧
    (∀ mode file, r.answer kind mode question = .found file → file.usedFallback = true →
      mode = .types ∧ kind ≠ .node10 ∧ ∃ subpath, question.subpath? r = some subpath ∧
        r.IsLaterTarget kind subpath (question.active r kind .types) file) := by
  intro r
  refine ⟨fun subpath exports targets hkind hsubpath hexports hlookup => ?targets,
    fun mode file hfile hmark => ?marked⟩
  case targets =>
    intro answer acceptable
    have hacceptable : ∀ {target path}, acceptable target path ↔
        r.declarationFor kind target = some path := declarationFor_eq_some_iff.symm
    have hanswer : answer = r.atSubpath kind subpath .types (question.active r kind .types) :=
      answer_of_subpath? hsubpath
    constructor
    · rintro ⟨target, htarget, path, haccept⟩
      obtain ⟨i, hi⟩ := List.mem_iff_getElem?.1 htarget
      obtain ⟨index, -, path', hfirst⟩ := exists_firstAt_le
        (Option.bind_eq_some_iff.2 ⟨target, hi, hacceptable.1 haccept⟩)
      obtain ⟨first, hat, hdeclared⟩ := Option.bind_eq_some_iff.1 hfirst.here
      refine ⟨index, first, path', hat, hacceptable.2 hdeclared, ?_, ?_⟩
      · intro k hk other hother path hpath
        have hnone := hfirst.before k hk
        rw [hother, Option.bind_some, hacceptable.1 hpath] at hnone
        exact absurd hnone (by simp)
      · rw [hanswer, atSubpath_types_of_firstAt hexports hkind hlookup hfirst]
    · intro hnone
      have hdeclared : ∀ target ∈ targets, r.declarationFor kind target = none :=
        fun target htarget => Option.eq_none_iff_forall_ne_some.2 fun path hpath =>
          hnone target htarget path (hacceptable.2 hpath)
      rw [hanswer, atSubpath_types_of_none hexports hkind hlookup hdeclared]
      refine ⟨fun hbundler => if_pos hbundler, fun hbundler => ?_⟩
      rw [if_neg hbundler]
      refine ⟨fun path hpath => ?_, fun hunnamed => ?_⟩
      · rw [rootTypes_eq_some_iff.2 hpath]
        rfl
      · have hroot : r.rootTypes subpath = none :=
          Option.eq_none_iff_forall_ne_some.2 fun path hpath =>
            hunnamed path (rootTypes_eq_some_iff.1 hpath)
        rw [hroot]
        rfl
  case marked =>
    cases hsubpath : question.subpath? r with
    | none =>
        exact absurd (unmarked_of_subpath?_eq_none hsubpath file hfile) (by simp [hmark])
    | some subpath =>
        rw [answer_of_subpath? hsubpath] at hfile
        obtain ⟨rfl, hkind, hlater⟩ := isLaterTarget_of_usedFallback hfile hmark
        exact ⟨rfl, hkind, subpath, rfl, hlater⟩

/-- Two targets are passed over, one for leaving the package and one for being missing, and the third
    is marked. At the package root the one target is no declaration, and the field `types`
    answers. -/
theorem third_acceptable_target_answers :
    let exports := Exports.subpaths
      [(".", .target "./index.js"),
       ("./a", .fallback [.target "./..\\a.d.ts", .target "./b.d.ts", .target "./c.d.ts"])]
    let manifest : Manifest := ⟨none, none, none, none, none, some "types.d.ts", some exports, none⟩
    let tree := (FileTree.empty.insert "c.d.ts" []).insert "types.d.ts" []
    let r := ofPackage tree manifest []
    let active := r.conditions .node16Esm .types
    let targets := ["./..\\a.d.ts", "./b.d.ts", "./c.d.ts"]
    let file : Resolved := ⟨"c.d.ts", .cjs, true, true⟩
    exports.lookup "./a" active = .candidates targets ∧
    (∃ index target path, targets[index]? = some target ∧
      r.enter .node16Esm "./a" .types = r.found path (decide (0 < index))) ∧
    r.enter .node16Esm "./a" .types = .found file ∧ file.usedFallback = true ∧
    r.IsLaterTarget .node16Esm "./a" active file ∧
    exports.lookup "." active = .candidates ["./index.js"] ∧
    r.enter .node16Esm "." .types = r.found "types.d.ts" false := by
  intro exports manifest tree r active targets file
  have hlookup : exports.lookup "./a" active = .candidates targets := by decide +kernel
  have hroot : exports.lookup "." active = .candidates ["./index.js"] := by decide +kernel
  have hfile : r.enter .node16Esm "./a" .types = .found file := by decide +kernel
  have hanswers := first_acceptable_target_answers tree manifest [] .node16Esm
  have haccepted : ∃ target ∈ targets, ∃ path normal, Path.normalize? target = some normal ∧
      path = normal ∧ Path.isDeclaration normal = true ∧ tree.isFile normal = true :=
    ⟨"./c.d.ts", by simp [targets], "c.d.ts", "c.d.ts", by decide +kernel⟩
  have hundeclared : ∀ target ∈ ["./index.js"], ∀ path, ¬ ∃ normal,
      Path.normalize? target = some normal ∧ path = normal ∧ Path.isDeclaration normal = true ∧
        tree.isFile normal = true := by
    intro target htarget
    obtain rfl := List.mem_singleton.1 htarget
    rintro path ⟨normal, hnormal, -, hdeclaration, -⟩
    obtain rfl : "index.js" = normal :=
      Option.some.inj ((show Path.normalize? "./index.js" = some "index.js" by decide).symm.trans
        hnormal)
    exact absurd hdeclaration (by decide)
  obtain ⟨index, target, path, hat, -, -, hanswer⟩ :=
    ((hanswers (.entry "./a")).1 "./a" exports targets (by decide) rfl rfl hlookup).1 haccepted
  have hnamed := ((hanswers (.entry ".")).1 "." exports ["./index.js"] (by decide) rfl rfl
    hroot).2 hundeclared
  obtain ⟨-, -, subpath, hsubpath, hlater⟩ :=
    (hanswers (.entry "./a")).2 .types file hfile rfl
  obtain rfl := Option.some.inj hsubpath
  refine ⟨hlookup, ⟨index, target, path, hat, hanswer⟩, hfile, rfl, hlater, hroot, ?_⟩
  exact (hnamed.2 (by decide)).1 "types.d.ts"
    ⟨rfl, "types.d.ts", "types.d.ts", rfl, by decide, by decide +kernel⟩

end Resolver

end TypingsAudit
