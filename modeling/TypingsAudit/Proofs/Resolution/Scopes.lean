import TypingsAudit.Proofs.FileTree
import TypingsAudit.Proofs.Path.Endings
import TypingsAudit.Resolution.ModuleScopes

set_option autoImplicit false

/-! # The manifest that decides the format of a file

The files of a package are searched once for manifests, by the ends of their paths, and the format of
a file is looked up from directory to directory. The first section shows that the search finds what
stands in the tree: a directory is in the list exactly when it is the root or has a manifest of its
own (`ModuleScopes.at?_ofTree`).

The lookup goes upwards and stops at the first directory of the list, which is the innermost one
(`Nearest`). There is always one, because the root is in the list. So the format is a matter of a
single manifest, and of all the manifests in the tree only those above the file, below the root, can
be that one. -/

namespace TypingsAudit

/-- The bytes of the manifest of a directory below the root. -/
def FileTree.manifestAt? (tree : FileTree) (dir : String) : Option Bytes :=
  tree.contents[dir ++ "/" ++ Manifest.fileName]?

theorem FileTree.mem_files_iff {tree : FileTree} {file : File} :
    file ∈ tree.files ↔ tree.contents[file.path]? = some file.contents := by
  rw [files, List.mem_map, ← Std.TreeMap.mem_toList_iff_getElem?_eq_some]
  constructor
  · rintro ⟨⟨path, bytes⟩, hmem, rfl⟩
    exact hmem
  · intro hmem
    exact ⟨_, hmem, rfl⟩

namespace ModuleScopes

/-! ## The directories that begin a scope -/

/-- The `type` for the files of a directory, if a scope begins there: that of the package for the
    root, and that of its own manifest for any other directory. -/
def ofDirectory? (tree : FileTree) (rootType : Option PackageType) (dir : String) :
    Option (Option PackageType) :=
  if dir = "" then some rootType else (tree.manifestAt? dir).map declaredType?

theorem manifestDir?_eq_some_iff {path dir : String} :
    manifestDir? path = some dir ↔ path = dir ++ "/" ++ Manifest.fileName := by
  rw [manifestDir?, Text.dropTail?_eq_some_iff, String.append_assoc]

/-- The search for manifests finds those that are there. -/
theorem mem_types_ofTree {tree : FileTree} {rootType type : Option PackageType} {dir : String} :
    (dir, type) ∈ (ofTree tree rootType).types ↔ ofDirectory? tree rootType dir = some type := by
  rw [ofTree, List.mem_cons, List.mem_filterMap, ofDirectory?]
  by_cases hroot : dir = ""
  · subst hroot
    rw [if_pos rfl, Option.some.injEq, Prod.mk.injEq, eq_self, true_and, @eq_comm _ rootType,
      or_iff_left]
    -- A manifest that makes the root a scope once more is left out.
    rintro ⟨file, -, hfile⟩
    split at hfile
    · split at hfile <;> simp_all
    · cases hfile
  · rw [if_neg hroot, Prod.mk.injEq, or_iff_right (fun h => hroot h.1), Option.map_eq_some_iff]
    constructor
    · rintro ⟨file, hmem, hfile⟩
      split at hfile
      · next found hfound =>
          split at hfile
          · cases hfile
          · obtain ⟨rfl, rfl⟩ := Prod.mk.inj (Option.some.inj hfile)
            refine ⟨file.contents, ?_, rfl⟩
            rw [FileTree.manifestAt?, ← manifestDir?_eq_some_iff.1 hfound]
            exact FileTree.mem_files_iff.1 hmem
      · cases hfile
    · rintro ⟨bytes, hbytes, rfl⟩
      refine ⟨⟨dir ++ "/" ++ Manifest.fileName, bytes⟩, FileTree.mem_files_iff.2 hbytes, ?_⟩
      simp only [manifestDir?_eq_some_iff.2 rfl, if_neg hroot]

/-- **A scope begins at the root and at every directory with a manifest of its own.** -/
theorem at?_ofTree (tree : FileTree) (rootType : Option PackageType) (dir : String) :
    (ofTree tree rootType).at? dir = ofDirectory? tree rootType dir := by
  rw [at?]
  cases hfind : (ofTree tree rootType).types.find? (·.1 == dir) with
  | none =>
      cases htype : ofDirectory? tree rootType dir with
      | none => rfl
      | some type =>
          have hmem := List.find?_eq_none.1 hfind _ (mem_types_ofTree.2 htype)
          exact absurd (beq_self_eq_true dir) hmem
  | some scope =>
      obtain ⟨found, type⟩ := scope
      obtain rfl : found = dir := by simpa using List.find?_some hfind
      exact (mem_types_ofTree.1 (List.mem_of_find?_eq_some hfind)).symm

theorem isSome_ofDirectory?_iff (tree : FileTree) (rootType : Option PackageType) (dir : String) :
    (ofDirectory? tree rootType dir).isSome ↔ dir = "" ∨ (tree.manifestAt? dir).isSome := by
  rw [ofDirectory?]
  split <;> simp [*]

/-! ## The nearest one -/

/-- The innermost of the directories above a path that are the root or have a manifest. -/
structure Nearest (tree : FileTree) (path dir : String) : Prop where
  above : dir ∈ Path.ancestors path
  begins : dir = "" ∨ (tree.manifestAt? dir).isSome
  innermost : ∀ other ∈ Path.ancestors path, other = "" ∨ (tree.manifestAt? other).isSome →
    other = dir ∨ other ∈ Path.ancestors dir

/-- The way up from a path ends at the nearest directory where a scope begins. -/
theorem exists_nearest (tree : FileTree) (rootType : Option PackageType) {path : String}
    (h : path ≠ "") :
    ∃ dir type, Nearest tree path dir ∧ ofDirectory? tree rootType dir = some type ∧
      (Path.ancestors path).findSome? (ofTree tree rootType).at? = some type := by
  induction path using Path.ancestors.induct with
  | case1 path hnone => exact absurd (Path.parent?_eq_none_iff.1 hnone) h
  | case2 path parent hparent _ ih =>
      rw [Path.ancestors_of_parent? hparent, List.findSome?_cons, at?_ofTree]
      cases htype : ofDirectory? tree rootType parent with
      | some type =>
          refine ⟨parent, type, ⟨?_, ?_, ?_⟩, htype, rfl⟩
          · rw [Path.ancestors_of_parent? hparent]
            exact List.mem_cons_self ..
          · exact (isSome_ofDirectory?_iff tree rootType parent).1 (by rw [htype]; rfl)
          · intro other hother _
            rw [Path.ancestors_of_parent? hparent] at hother
            exact List.mem_cons.1 hother
      | none =>
          have hnone : ¬ (parent = "" ∨ (tree.manifestAt? parent).isSome) := by
            rw [← isSome_ofDirectory?_iff tree rootType, htype]
            exact Bool.false_ne_true
          obtain ⟨dir, type, hnearest, hdir, hfind⟩ := ih (fun hroot => hnone (Or.inl hroot))
          refine ⟨dir, type, ⟨?_, hnearest.begins, ?_⟩, hdir, hfind⟩
          · rw [Path.ancestors_of_parent? hparent]
            exact List.mem_cons_of_mem _ hnearest.above
          · intro other hother hbegins
            rw [Path.ancestors_of_parent? hparent] at hother
            rcases List.mem_cons.1 hother with rfl | hother
            · exact absurd hbegins hnone
            · exact hnearest.innermost other hother hbegins

theorem Nearest.unique {tree : FileTree} {path dir other : String} (h : Nearest tree path dir)
    (hother : Nearest tree path other) : other = dir := by
  rcases h.innermost other hother.above hother.begins with heq | habove
  · exact heq
  · rcases hother.innermost dir h.above h.begins with heq | hbelow
    · exact heq.symm
    · exact absurd (Path.mem_ancestors_trans habove hbelow) (Path.notMem_ancestors_self dir)

/-- The manifest for the files of a directory has the `type` of an ES module package. For the root
    that is the `type` given for the package. -/
inductive DeclaresModule (tree : FileTree) (rootType : Option PackageType) : String → Prop
  | root (h : rootType = some .module) : DeclaresModule tree rootType ""
  | manifest {dir : String} {bytes : Bytes} {members : Json.Members} (hdir : dir ≠ "")
      (hbytes : tree.manifestAt? dir = some bytes)
      (hjson : Json.parse bytes = .ok (.object members))
      (htype : Json.Members.get? members "type" = some (.string "module")) :
      DeclaresModule tree rootType dir

theorem ofJson?_eq_module_iff {value : Json} :
    PackageType.ofJson? value = some .module ↔ value = .string "module" := by
  cases value with
  | string s =>
      show PackageType.ofName? s = some .module ↔ _
      unfold PackageType.ofName?
      split <;> simp_all
  | _ => simp [PackageType.ofJson?, Json.string?]

theorem declaredType?_eq_module_iff {bytes : Bytes} :
    declaredType? bytes = some .module ↔ ∃ members, Json.parse bytes = .ok (.object members) ∧
      Json.Members.get? members "type" = some (.string "module") := by
  unfold declaredType?
  split
  · next members hjson => simp [hjson, Option.bind_eq_some_iff, ofJson?_eq_module_iff]
  · next hother =>
      refine iff_of_false (by simp) ?_
      rintro ⟨members, hjson, -⟩
      exact hother members hjson

theorem declaresModule_iff {tree : FileTree} {rootType : Option PackageType} {dir : String} :
    DeclaresModule tree rootType dir ↔ ofDirectory? tree rootType dir = some (some .module) := by
  rw [ofDirectory?]
  split
  · next hroot =>
      subst hroot
      rw [Option.some.injEq]
      constructor
      · rintro (h | ⟨hdir, -, -, -⟩)
        · exact h
        · exact absurd rfl hdir
      · exact .root
  · next hdir =>
      rw [Option.map_eq_some_iff]
      constructor
      · rintro (h | ⟨-, hbytes, hjson, htype⟩)
        · exact absurd rfl hdir
        · exact ⟨_, hbytes, declaredType?_eq_module_iff.2 ⟨_, hjson, htype⟩⟩
      · rintro ⟨bytes, hbytes, hmodule⟩
        obtain ⟨members, hjson, htype⟩ := declaredType?_eq_module_iff.1 hmodule
        exact .manifest hdir hbytes hjson htype

/-! ## The format of a file -/

theorem formatOf_of_ending {path : String}
    (h : Text.endsWith ".js" path ∨ Text.endsWith ".d.ts" path) (scopes : ModuleScopes) :
    scopes.formatOf path = if scopes.typeOf path = some .module then .esm else .cjs := by
  have hkind : FileKind.ofPath path = .js ∨ FileKind.ofPath path = .dts :=
    h.imp (fun hjs => (FileKind.ofPath_eq_iff (by decide)).2 (Text.endsWith_iff.1 hjs))
      (fun hts => (FileKind.ofPath_eq_iff (by decide)).2 (Text.endsWith_iff.1 hts))
  unfold formatOf
  rcases hkind with hkind | hkind <;> rw [hkind]

/-- Of the manifests only those above a path, below the root, tell its format. -/
theorem formatOf_congr {tree other : FileTree} {path : String} (rootType : Option PackageType)
    (h : ∀ dir ∈ Path.ancestors path, dir ≠ "" → other.manifestAt? dir = tree.manifestAt? dir) :
    (ofTree other rootType).formatOf path = (ofTree tree rootType).formatOf path := by
  have htype : (ofTree other rootType).typeOf path = (ofTree tree rootType).typeOf path := by
    rw [typeOf, typeOf, ← List.head?_filterMap, ← List.head?_filterMap]
    refine congrArg (fun types : List (Option PackageType) => types.head?.getD none)
      (List.filterMap_congr fun dir hdir => ?_)
    rw [at?_ofTree, at?_ofTree, ofDirectory?, ofDirectory?]
    split
    · rfl
    · next hne => rw [h dir hdir hne]
  unfold formatOf
  rw [htype]

/-- A script and the declaration that goes with it are loaded in one format: their endings decide alike,
    and where neither does, it is the manifest of their directory. -/
theorem formatOf_counterpart? (scopes : ModuleScopes) {path declaration : String}
    (h : Path.counterpart? path = some declaration) :
    scopes.formatOf declaration = scopes.formatOf path := by
  have htype : scopes.typeOf declaration = scopes.typeOf path := by
    rw [typeOf, typeOf, Path.ancestors_congr (Path.parent?_counterpart? h)]
  have hkind := Path.ofPath_counterpart? path
  rw [h, Option.map_some] at hkind
  unfold formatOf
  rw [htype]
  cases hscript : FileKind.ofPath path with
  | js | mjs | cjs =>
      rw [hscript] at hkind
      rw [Option.some.inj hkind]
  | dts | dmts | dcts | json | other =>
      rw [hscript] at hkind
      cases hkind

/-- **The nearest manifest decides the format.** Above a path there is always a nearest directory
    that is the root or has a manifest, and the lookup ends there. A `.js` or `.d.ts` file is an ES
    module exactly when the `type` for that directory says so, and CommonJS otherwise. The format
    stays what it is whatever happens to other files than the manifests of directories above the path;
    the file of the root manifest is none of these. -/
theorem nearest_manifest_decides (tree : FileTree) (rootType : Option PackageType) (path : String)
    (hending : Text.endsWith ".js" path ∨ Text.endsWith ".d.ts" path) :
    let scopes := ofTree tree rootType
    (∃ dir type, Nearest tree path dir ∧ (∀ other, Nearest tree path other → other = dir) ∧
      scopes.at? dir = some type ∧ (Path.ancestors path).findSome? scopes.at? = some type) ∧
    (∀ dir, Nearest tree path dir →
      (scopes.formatOf path = .esm ↔ DeclaresModule tree rootType dir) ∧
      (scopes.formatOf path = .cjs ↔ ¬ DeclaresModule tree rootType dir)) ∧
    ∀ other : FileTree,
      (∀ dir ∈ Path.ancestors path, dir ≠ "" → other.manifestAt? dir = tree.manifestAt? dir) →
      (ofTree other rootType).formatOf path = scopes.formatOf path := by
  intro scopes
  have hpath : path ≠ "" := by
    rintro rfl
    exact absurd hending (by decide)
  obtain ⟨dir, type, hnearest, htype, hfind⟩ := exists_nearest tree rootType hpath
  refine ⟨⟨dir, type, hnearest, fun other hother => hnearest.unique hother, ?_, hfind⟩, ?_, ?_⟩
  · rw [at?_ofTree, htype]
  · intro other hother
    obtain rfl := hnearest.unique hother
    have hformat : scopes.formatOf path = if type = some .module then .esm else .cjs := by
      rw [formatOf_of_ending hending, typeOf, hfind, Option.getD_some]
    rw [hformat, declaresModule_iff, htype, Option.some.injEq]
    split <;> simp [*]
  · intro other hsame
    exact formatOf_congr rootType hsame

/-- An ES module directory with a directory inside whose manifest cannot be read, in a package that
    has a `type` in the file of its manifest only. A sibling is made an ES module directory, and the
    file of the root manifest is changed. -/
theorem nested_manifests_decide :
    let module := Bytes.ofString "\x7b\"type\":\"module\"\x7d"
    let tree := ((FileTree.empty.insert "package.json" module).insert "esm/package.json"
      module).insert "esm/old/package.json" (Bytes.ofString "\x7b")
    let other := (tree.insert "esm/old.js/package.json" module).insert "package.json" []
    let scopes := ofTree tree none
    (Nearest tree "esm/lib/index.d.ts" "esm" ∧ scopes.formatOf "esm/lib/index.d.ts" = .esm) ∧
    (Nearest tree "esm/old/index.js" "esm/old" ∧ scopes.formatOf "esm/old/index.js" = .cjs ∧
      (ofTree other none).formatOf "esm/old/index.js" = .cjs) ∧
    (Nearest tree "index.js" "" ∧ scopes.formatOf "index.js" = .cjs) := by
  intro module tree other scopes
  have hlib : Nearest tree "esm/lib/index.d.ts" "esm" :=
    ⟨by decide +kernel, by decide +kernel, by decide +kernel⟩
  have hold : Nearest tree "esm/old/index.js" "esm/old" :=
    ⟨by decide +kernel, by decide +kernel, by decide +kernel⟩
  have hroot : Nearest tree "index.js" "" :=
    ⟨by decide +kernel, by decide +kernel, by decide +kernel⟩
  obtain ⟨-, hlibFormat, -⟩ :=
    nearest_manifest_decides tree none "esm/lib/index.d.ts" (by decide +kernel)
  obtain ⟨-, holdFormat, hsame⟩ :=
    nearest_manifest_decides tree none "esm/old/index.js" (by decide +kernel)
  obtain ⟨-, hrootFormat, -⟩ := nearest_manifest_decides tree none "index.js" (by decide +kernel)
  have holdCjs : scopes.formatOf "esm/old/index.js" = .cjs :=
    (holdFormat _ hold).2.2 (by rw [declaresModule_iff]; decide +kernel)
  exact ⟨⟨hlib, (hlibFormat _ hlib).1.2 (declaresModule_iff.2 (by decide +kernel))⟩,
    ⟨hold, holdCjs, (hsame other (by decide +kernel)).trans holdCjs⟩,
    hroot, (hrootFormat _ hroot).2.2 (by rw [declaresModule_iff]; decide +kernel)⟩

end ModuleScopes

end TypingsAudit
