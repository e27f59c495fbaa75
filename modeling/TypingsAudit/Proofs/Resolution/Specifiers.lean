import TypingsAudit.Proofs.Resolution.Failures
import TypingsAudit.Proofs.Resolution.FieldReads

set_option autoImplicit false

/-! # Names of a subpath

A file of the package can be asked for by its subpath (`Resolver.enter`), by the name of the package
with or without something after a slash, and by a path next to the importer. The main result
`Resolver.specifiers_agree` says where these lead to the same answer.

Specifiers are told apart by their text alone: `isRelative` looks at the front, and `subpathOf?`
takes the name of the package and a slash off it. The two do not get in each other's way: what
follows a name cannot make a path of it (`isRelative_append_slash`). -/

namespace TypingsAudit

namespace Resolver

variable {r : Resolver} {kind : ResolutionKind} {mode : ResolutionMode} {active : ConditionSet}
  {name specifier subpath : String}

/-! ## Names of the package -/

theorem append_slash_ne (name rest : String) : name ++ "/" ++ rest ≠ name := by
  intro h
  have hlength := congrArg String.length h
  rw [String.length_append, String.length_append] at hlength
  have hslash : "/".length = 1 := rfl
  omega

/-- What stands for the package root: the name of the package. -/
theorem subpathOf?_name (h : r.manifest.name = some name) :
    r.subpathOf? name = some Exports.rootSubpath := by
  simp [subpathOf?, h]

/-- What stands for another subpath: the name and, after a slash, the rest. -/
theorem subpathOf?_append_slash (h : r.manifest.name = some name) (rest : String) :
    r.subpathOf? (name ++ "/" ++ rest) = some ("./" ++ rest) := by
  have hslash : Text.dropFront? name (name ++ "/" ++ rest) = some ("/" ++ rest) :=
    Text.dropFront?_eq_some_iff.2 String.append_assoc
  have hrest : Text.dropFront? "/" ("/" ++ rest) = some rest :=
    Text.dropFront?_eq_some_iff.2 rfl
  simp [subpathOf?, h, append_slash_ne, hslash, hrest]

/-- Nothing else names the package. -/
theorem subpathOf?_eq_none_iff :
    r.subpathOf? specifier = none ↔
      r.manifest.name = none ∨
        ∃ name, r.manifest.name = some name ∧ specifier ≠ name ∧
          ∀ rest, specifier ≠ name ++ "/" ++ rest := by
  cases hname : r.manifest.name with
  | none => simp [subpathOf?, hname]
  | some name =>
      simp only [reduceCtorEq, Option.some.injEq, exists_eq_left', false_or]
      constructor
      · intro hnone
        constructor
        · rintro rfl
          rw [subpathOf?_name hname] at hnone
          exact absurd hnone (by simp)
        · rintro rest rfl
          rw [subpathOf?_append_slash hname] at hnone
          exact absurd hnone (by simp)
      · rintro ⟨hne, hslash⟩
        cases hsubpath : r.subpathOf? specifier with
        | none => rfl
        | some subpath =>
            simp only [subpathOf?, hname, Option.bind_eq_bind, Option.bind_some, if_neg hne,
              Option.bind_eq_some_iff] at hsubpath
            obtain ⟨rest, ⟨front, hfront, hrest⟩, -⟩ := hsubpath
            rw [Text.dropFront?_eq_some_iff] at hfront hrest
            refine absurd ?_ (hslash rest)
            rw [hfront, hrest, String.append_assoc]

/-! ## Paths next to the importer -/

theorem isRelative_iff :
    isRelative specifier = true ↔
      specifier.toList = ['.'] ∨ specifier.toList = ['.', '.'] ∨
        ['.', '/'] <+: specifier.toList ∨ ['.', '.', '/'] <+: specifier.toList ∨
          ['/'] <+: specifier.toList := by
  have heq : ∀ s : String, (specifier == s) = true ↔ specifier.toList = s.toList := fun s => by
    rw [beq_iff_eq, String.toList_inj]
  simp only [isRelative, Bool.or_eq_true, heq, Text.startsWith, List.isPrefixOf_iff_prefix,
    or_assoc]
  rfl

/-- What follows a name cannot make a path of it. -/
theorem isRelative_append_slash (hne : name ≠ "") (hname : isRelative name = false)
    (rest : String) : isRelative (name ++ "/" ++ rest) = false := by
  have htext : (name ++ "/" ++ rest).toList = name.toList ++ '/' :: rest.toList := by simp
  have hchars : name.toList ≠ [] := fun h => hne (String.toList_inj.1 h)
  rw [← Bool.not_eq_true, isRelative_iff] at hname ⊢
  rw [htext]
  -- A path shows in its first three characters, and the slash is one of these in a short name only.
  match hlist : name.toList with
  | [] => exact absurd hlist hchars
  | [c] => grind
  | [c, d] => grind
  | c :: d :: e :: more => grind

theorem isRelative_slash (s : String) : isRelative ("./" ++ s) = true := by
  rw [isRelative_iff]
  simp

theorem slash_ne_rootSubpath (s : String) : "./" ++ s ≠ Exports.rootSubpath := by
  intro h
  have hlength := congrArg String.length h
  rw [String.length_append] at hlength
  have hslash : "./".length = 2 := rfl
  have hroot : Exports.rootSubpath.length = 1 := rfl
  omega

/-- Where nothing maps a path, its only place is the path itself. -/
theorem places_of_unmapped {path : String}
    (h : mode = .runtime ∨ r.manifest.typesVersions.bind (·.map? path) = none) :
    r.places mode path = [path] := by
  cases mode with
  | runtime => rfl
  | types =>
      have hnone := h.resolve_left (by decide)
      simp [places, mappedPaths, hnone]

/-- Where `exports` is passed over and nothing maps the path, a subpath is that path. -/
theorem legacy_of_unmapped (hroot : subpath ≠ Exports.rootSubpath)
    (h : mode = .runtime ∨ ∀ path, Path.normalize? subpath = some path →
      r.manifest.typesVersions.bind (·.map? path) = none) :
    r.legacy kind subpath mode
      = match Path.normalize? subpath with
        | some path => r.atPath kind path mode
        | none => .notFound .fileNotFound := by
  cases hpath : Path.normalize? subpath with
  | none => exact legacy_of_escape hroot hpath
  | some path =>
      have hplaces : r.places mode path = [path] :=
        places_of_unmapped (h.imp_right fun hnone => hnone path hpath)
      rw [legacy_eq_firstFound hroot hpath, hplaces]
      rfl

/-- Where `exports` is passed over, a subpath is left to the older fields. -/
theorem atSubpath_eq_legacy (h : r.manifest.exports = none ∨ kind = .node10) :
    r.atSubpath kind subpath mode active = r.legacy kind subpath mode := by
  rcases h with hexports | rfl
  · exact atSubpath_of_exports_eq_none hexports kind subpath mode active
  · exact atSubpath_node10 subpath active

/-! ## Ways to name a subpath -/

theorem resolve_of_subpathOf? {importer : Option String} (hrelative : isRelative specifier = false)
    (h : r.subpathOf? specifier = some subpath) :
    r.resolve kind specifier importer mode active = r.atSubpath kind subpath mode active := by
  simp only [resolve, hrelative, Bool.false_eq_true, if_false, h]

/-- A subpath of the package is never in another package, so the reason tells what was named. -/
theorem resolve_eq_packageNotFound_iff {importer : Option String}
    (hrelative : isRelative specifier = false) :
    r.resolve kind specifier importer mode active = .notFound .packageNotFound ↔
      r.subpathOf? specifier = none := by
  cases hsubpath : r.subpathOf? specifier with
  | none => simp only [resolve, hrelative, Bool.false_eq_true, if_false, hsubpath]
  | some subpath =>
      rw [resolve_of_subpathOf? hrelative hsubpath]
      simp [atSubpath_ne_packageNotFound]

/-- **The ways to name a subpath agree.** By its name the package is found at its root, and what
    follows the name and a slash is found as the subpath of that text, whatever file imports it. A
    specifier that is no path names another package unless it is the name or starts with the name
    and a slash. A path from the root of the package is found as the subpath of the same text where
    `exports` is passed over and nothing maps the path. -/
theorem specifiers_agree (tree : FileTree) (manifest : Manifest) (conditions : List String)
    (kind : ResolutionKind) (mode : ResolutionMode) :
    let r := ofPackage tree manifest conditions
    (∀ name, manifest.name = some name → name ≠ "" → isRelative name = false → ∀ importer,
      r.resolve kind name importer mode (r.conditions kind mode)
        = r.enter kind Exports.rootSubpath mode ∧
      ∀ rest, r.resolve kind (name ++ "/" ++ rest) importer mode (r.conditions kind mode)
        = r.enter kind ("./" ++ rest) mode) ∧
    (∀ specifier importer active, isRelative specifier = false →
      (r.resolve kind specifier importer mode active = .notFound .packageNotFound ↔
        manifest.name = none ∨
          ∃ name, manifest.name = some name ∧ specifier ≠ name ∧
            ∀ rest, specifier ≠ name ++ "/" ++ rest)) ∧
    (∀ rest active, manifest.exports = none ∨ kind = .node10 →
      (mode = .runtime ∨ ∀ path, Path.normalize? ("./" ++ rest) = some path →
        manifest.typesVersions.bind (·.map? path) = none) →
      r.resolve kind ("./" ++ rest) none mode active = r.enter kind ("./" ++ rest) mode) := by
  intro r
  refine ⟨fun name hname hne hrelative importer => ⟨?root, fun rest => ?below⟩,
    fun specifier importer active hrelative => ?other, fun rest active hpass hmap => ?path⟩
  case root =>
    have hroot : r.subpathOf? name = some Exports.rootSubpath := subpathOf?_name hname
    exact resolve_of_subpathOf? hrelative hroot
  case below =>
    have hbelow : r.subpathOf? (name ++ "/" ++ rest) = some ("./" ++ rest) :=
      subpathOf?_append_slash hname rest
    exact resolve_of_subpathOf? (isRelative_append_slash hne hrelative rest) hbelow
  case other =>
    rw [resolve_eq_packageNotFound_iff hrelative]
    exact subpathOf?_eq_none_iff
  case path =>
    have hentry : r.enter kind ("./" ++ rest) mode = r.legacy kind ("./" ++ rest) mode :=
      atSubpath_eq_legacy hpass
    rw [hentry, legacy_of_unmapped (slash_ne_rootSubpath rest) hmap]
    simp only [resolve, isRelative_slash, if_true]
    rfl

/-- A package with a scope in its name: one file by three names, and a name that only starts like
    that of the package. -/
theorem scoped_specifiers_agree :
    let manifest : Manifest := ⟨some "@scope/pkg", none, none, none, none, none, none, none⟩
    let tree := (FileTree.empty.insert "index.js" []).insert "lib/feature.js" []
    let r := ofPackage tree manifest []
    let active := r.conditions .node16Cjs .runtime
    let importer := some "lib/feature.js"
    let root : Resolution := .found ⟨"index.js", .cjs, false, false⟩
    let feature : Resolution := .found ⟨"lib/feature.js", .cjs, false, false⟩
    (isRelative "@scope/pkg" = false ∧
      r.resolve .node16Cjs "@scope/pkg" importer .runtime active = root ∧
      r.resolve .node16Cjs ("@scope/pkg" ++ "/" ++ "lib/feature") importer .runtime active
        = feature) ∧
    (isRelative "@scope/pkg-more" = false ∧
      r.resolve .node16Cjs "@scope/pkg-more" importer .runtime active
        = .notFound .packageNotFound) ∧
    (manifest.exports = none ∧
      r.resolve .node16Cjs ("./" ++ "lib/feature") none .runtime active = feature) := by
  intro manifest tree r active importer root feature
  obtain ⟨hname, hother, hpath⟩ :=
    specifiers_agree tree manifest [] .node16Cjs .runtime
  have hbare : isRelative "@scope/pkg" = false := by decide +kernel
  have hmore : isRelative "@scope/pkg-more" = false := by decide +kernel
  have hroot : r.enter .node16Cjs Exports.rootSubpath .runtime = root := by decide +kernel
  have hfeature : r.enter .node16Cjs ("./" ++ "lib/feature") .runtime = feature := by
    decide +kernel
  obtain ⟨hrootName, hfeatureName⟩ := hname "@scope/pkg" rfl (by decide) hbare importer
  have hnone : r.resolve .node16Cjs "@scope/pkg-more" importer .runtime active
      = .notFound .packageNotFound := by
    refine (hother "@scope/pkg-more" importer active hmore).2
      (Or.inr ⟨"@scope/pkg", rfl, by decide, fun rest => ?_⟩)
    intro h
    have hfront : Text.startsWith ("@scope/pkg" ++ "/") "@scope/pkg-more" = true :=
      Text.startsWith_iff.2 ⟨rest, h⟩
    exact absurd hfront (by decide +kernel)
  exact ⟨⟨hbare, hrootName.trans hroot, (hfeatureName "lib/feature").trans hfeature⟩,
    ⟨hmore, hnone⟩, rfl, (hpath "lib/feature" active (Or.inl rfl) (Or.inl rfl)).trans hfeature⟩

end Resolver

end TypingsAudit
