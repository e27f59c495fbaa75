import TypingsAudit.Proofs.FileTree.Listing
import TypingsAudit.Proofs.Resolution.ContentReads

set_option autoImplicit false

/-! # The places that probing tries

Probing goes through nested alternatives: a path as a file and then as a directory, a directory by
what its manifest names and then by its index, and what the `main` of a manifest names as a file and
then as a directory again. All of it comes to one list of places (`Resolver.scriptProbes`,
`Resolver.declarationProbes`), and the outcome is the first of them at which there is a file.

Every place is a normal path, so whether it is a file is a look into the tree as it is. -/

namespace TypingsAudit

/-- The path is the first of the places at which the tree has a file. -/
def FileTree.FirstOf (tree : FileTree) (places : List String) (path : String) : Prop :=
  ∃ front back, places = front ++ path :: back ∧ path ∈ tree.contents ∧
    ∀ other ∈ front, other ∉ tree.contents

namespace Resolver

variable {r : Resolver} {dir path : String} {endings places front back : List String}
  {field : Manifest → Option String}

/-! ## First files -/

theorem firstFile_append :
    r.firstFile (front ++ back) = (r.firstFile front <|> r.firstFile back) := by
  rw [firstFile, List.find?_append, Option.orElse_eq_orElse, Option.orElse_eq_or]
  rfl

theorem firstFile_flatMap_toList (named : Option String) (step : String → List String) :
    r.firstFile (named.toList.flatMap step) = named.bind fun path => r.firstFile (step path) := by
  cases named with
  | none => rfl
  | some path => rw [Option.toList_some, List.flatMap_singleton, Option.bind_some]

theorem isFile_iff_mem (h : Path.IsNormal path) :
    r.tree.isFile path = true ↔ path ∈ r.tree.contents := by
  rw [FileTree.isFile_of_isNormal _ h, Std.TreeMap.contains_iff_mem]

/-- Of normal places the first one in the tree is taken. -/
theorem firstFile_eq_some_iff (h : ∀ place ∈ places, Path.IsNormal place) :
    r.firstFile places = some path ↔ r.tree.FirstOf places path := by
  have hsplit : ∀ front back, places = front ++ path :: back →
      Path.IsNormal path ∧ ∀ place ∈ front, Path.IsNormal place := by
    intro front back hplaces
    rw [hplaces] at h
    exact ⟨h path (by simp), fun place hplace => h place (List.mem_append_left _ hplace)⟩
  rw [firstFile, List.find?_eq_some_iff_append]
  constructor
  · intro h
    obtain ⟨hfile, front, back, hplaces, hfront⟩ := h
    obtain ⟨hnormal, hbefore⟩ := hsplit front back hplaces
    refine ⟨front, back, hplaces, (isFile_iff_mem hnormal).1 hfile, ?_⟩
    intro other hother hmem
    have hno := hfront other hother
    rw [(isFile_iff_mem (hbefore other hother)).2 hmem] at hno
    exact absurd hno (by decide)
  · intro h
    obtain ⟨front, back, hplaces, hmem, hfront⟩ := h
    obtain ⟨hnormal, hbefore⟩ := hsplit front back hplaces
    refine ⟨(isFile_iff_mem hnormal).2 hmem, front, back, hplaces, ?_⟩
    intro other hother
    rw [Bool.not_eq_true', ← Bool.not_eq_true, isFile_iff_mem (hbefore other hother)]
    exact hfront other hother

theorem firstFile_eq_none_iff (h : ∀ place ∈ places, Path.IsNormal place) :
    r.firstFile places = none ↔ ∀ place ∈ places, place ∉ r.tree.contents := by
  rw [firstFile, List.find?_eq_none]
  exact forall₂_congr fun place hplace => not_congr (isFile_iff_mem (h place hplace))

/-! ## Directories -/

/-- The index of a normal directory is the name in it. -/
theorem join?_indexName (h : Path.IsNormal dir) :
    Path.join? dir indexName = some (Path.child dir indexName) := by
  by_cases hroot : dir = ""
  · rw [Path.join?, if_pos hroot, Path.child, if_pos hroot]
    exact Path.normalize?_of_isNormal isNormal_indexName
  · rw [Path.child, if_neg hroot]
    exact Path.join?_of_isNormal h hroot (by decide) (by decide)

/-- The manifest of a directory below the root is read from the file in it. -/
theorem manifestOf_eq_some_iff (h : Path.IsNormal dir) (hroot : dir ≠ "") {nested : Manifest} :
    r.manifestOf dir = some nested ↔
      ∃ bytes, r.tree.contents[dir ++ "/package.json"]? = some bytes ∧
        Manifest.parse bytes = .ok nested := by
  have hname : Path.IsName Manifest.fileName.toList := by decide
  have hsep : Path.NoSeparator Manifest.fileName.toList := by decide
  have hpath : dir ++ "/" ++ Manifest.fileName = dir ++ "/package.json" := by
    rw [String.append_assoc]
    rfl
  have hfile := FileTree.file?_of_isNormal r.tree (h.child hroot hname hsep)
  rw [hpath] at hfile
  rw [manifestOf, if_neg hroot, Path.join?_of_isNormal h hroot hname hsep, hpath]
  simp only [Option.bind_eq_bind, Option.bind_some, hfile]
  cases r.tree.contents[dir ++ "/package.json"]? with
  | none => simp
  | some bytes => cases hparse : Manifest.parse bytes <;> simp [Except.toOption, hparse]

/-- The normal path that a field in the manifest of a directory names, read from the directory. -/
def namedPath (r : Resolver) (dir : String) (field : Manifest → Option String) : Option String :=
  (r.manifestOf dir).bind fun manifest => (field manifest).bind (Path.join? dir)

theorem isNormal_of_namedPath (h : r.namedPath dir field = some path) : Path.IsNormal path := by
  obtain ⟨manifest, -, hpath⟩ := Option.bind_eq_some_iff.1 h
  exact Path.isNormal_of_bind_join? hpath

theorem namedPath_bind (step : String → Option String) :
    (r.namedPath dir field).bind step =
      (do
        let manifest ← r.manifestOf dir
        let path ← (field manifest).bind (Path.join? dir)
        step path) :=
  Option.bind_assoc ..

/-! ## Scripts -/

/-- The places at which the script of a path may be, in order. -/
def scriptProbes (r : Resolver) (endings : List String) (path : String) : List String :=
  scriptPaths endings path ++
    if r.tree.isDirectory path then
      (r.namedPath path (·.main)).toList.flatMap (fun main =>
        scriptPaths endings main ++ scriptPaths endings (Path.child main indexName)) ++
      scriptPaths endings (Path.child path indexName)
    else []

theorem scriptAt_eq_firstFile (h : Path.IsNormal path) :
    r.scriptAt endings path = r.firstFile (r.scriptProbes endings path) := by
  rw [scriptAt, scriptProbes, firstFile_append, ← scriptFile, scriptOfDirectory]
  by_cases hdir : r.tree.isDirectory path = true
  · have hmain : (r.namedPath path (·.main)).bind (fun main =>
          r.firstFile (scriptPaths endings main ++ scriptPaths endings (Path.child main indexName))) =
        (r.namedPath path (·.main)).bind fun main => r.scriptFile endings main <|>
          (Path.join? main indexName).bind (r.scriptFile endings) := by
      refine Option.bind_congr fun main hmain => ?_
      rw [firstFile_append, join?_indexName (isNormal_of_namedPath hmain), Option.bind_some]
      rfl
    rw [if_pos hdir, if_pos hdir, firstFile_append, firstFile_flatMap_toList, hmain, namedPath_bind,
      join?_indexName h]
    rfl
  · rw [if_neg hdir, if_neg hdir]
    rfl

theorem isNormal_of_mem_scriptProbes (kind : ResolutionKind) (h : Path.IsNormal path) :
    ∀ place ∈ r.scriptProbes (scriptEndings kind) path, Path.IsNormal place := by
  intro place hplace
  rcases List.mem_append.1 hplace with hplace | hplace
  · exact normal_of_mem_scriptPaths h hplace
  · split at hplace
    · rcases List.mem_append.1 hplace with hplace | hplace
      · obtain ⟨main, hmain, hplace⟩ := List.mem_flatMap.1 hplace
        have hnormal := isNormal_of_namedPath (Option.mem_toList.1 hmain)
        rcases List.mem_append.1 hplace with hplace | hplace
        · exact normal_of_mem_scriptPaths hnormal hplace
        · exact normal_of_mem_scriptPaths (Path.isNormal_of_join? (join?_indexName hnormal)) hplace
      · exact normal_of_mem_scriptPaths (Path.isNormal_of_join? (join?_indexName h)) hplace
    · exact absurd hplace List.not_mem_nil

/-! ## Declarations -/

/-- The places at which the declarations of a path may be, in order. -/
def declarationProbes (r : Resolver) (path : String) : List String :=
  declarationPaths path ++
    if r.tree.isDirectory path then
      (r.namedPath path (·.types)).toList.flatMap declarationPaths ++
      ((r.namedPath path (·.main)).toList.flatMap declarationPaths ++
        declarationPaths (Path.child path indexName))
    else []

theorem declarationsAt_eq_firstFile (h : Path.IsNormal path) :
    r.declarationsAt path = r.firstFile (r.declarationProbes path) := by
  rw [declarationsAt, declarationProbes, firstFile_append, ← declarationFile, declarationOfDirectory]
  by_cases hdir : r.tree.isDirectory path = true
  · rw [if_pos hdir, if_pos hdir, firstFile_append, firstFile_append, firstFile_flatMap_toList,
      firstFile_flatMap_toList, namedPath_bind, namedPath_bind, join?_indexName h]
    rfl
  · rw [if_neg hdir, if_neg hdir]
    rfl

theorem isNormal_of_mem_declarationProbes (h : Path.IsNormal path) :
    ∀ place ∈ r.declarationProbes path, Path.IsNormal place := by
  have hnamed : ∀ {field} {place : String},
      place ∈ (r.namedPath path field).toList.flatMap declarationPaths → Path.IsNormal place := by
    intro field place hplace
    obtain ⟨named, hnamed, hplace⟩ := List.mem_flatMap.1 hplace
    exact (normal_of_mem_declarationPaths
      (isNormal_of_namedPath (Option.mem_toList.1 hnamed)) hplace).1
  intro place hplace
  rcases List.mem_append.1 hplace with hplace | hplace
  · exact (normal_of_mem_declarationPaths h hplace).1
  · split at hplace
    · rcases List.mem_append.1 hplace with hplace | hplace
      · exact hnamed hplace
      · rcases List.mem_append.1 hplace with hplace | hplace
        · exact hnamed hplace
        · have hindex := Path.isNormal_of_join? (join?_indexName h)
          exact (normal_of_mem_declarationPaths hindex hplace).1
    · exact absurd hplace List.not_mem_nil

/-- **Probing takes the first file of a list of places.** The script of a path is looked for at the
    path and with each ending behind it. Where the path is a directory, the same is done for what the
    `main` of its manifest names and for the index in there, and then for the index of the
    directory. Declarations are looked for at the path, then at what `types` and `main` name, and
    then at the index. There is no outcome just where no place has a file. The manifest of the root
    is that of the package, and that of another directory the file in it, if it can be read. -/
theorem probing_takes_first_file (tree : FileTree) (manifest : Manifest) (conditions : List String)
    {path : String} (h : Path.IsNormal path) :
    let r := ofPackage tree manifest conditions
    (∀ endings ∈ [[".js", ".json"], [".js", ".mjs", ".cjs", ".json"]],
      (∀ file, r.scriptAt endings path = some file ↔
        tree.FirstOf (r.scriptProbes endings path) file) ∧
      (r.scriptAt endings path = none ↔
        ∀ place ∈ r.scriptProbes endings path, place ∉ tree.contents)) ∧
    (∀ file, r.declarationsAt path = some file ↔ tree.FirstOf (r.declarationProbes path) file) ∧
    (r.declarationsAt path = none ↔ ∀ place ∈ r.declarationProbes path, place ∉ tree.contents) ∧
    r.manifestOf "" = some manifest ∧
    (path ≠ "" → ∀ nested, r.manifestOf path = some nested ↔
      ∃ bytes, tree.contents[path ++ "/package.json"]? = some bytes ∧
        Manifest.parse bytes = .ok nested) := by
  intro r
  have hdeclarations := isNormal_of_mem_declarationProbes (r := r) h
  rw [declarationsAt_eq_firstFile h]
  refine ⟨fun endings hendings => ?_, fun file => firstFile_eq_some_iff hdeclarations,
    firstFile_eq_none_iff hdeclarations, rfl, fun hroot nested => manifestOf_eq_some_iff h hroot⟩
  have hscripts : ∀ place ∈ r.scriptProbes endings path, Path.IsNormal place := by
    rcases List.mem_cons.1 hendings with rfl | hendings
    · exact isNormal_of_mem_scriptProbes .node10 h
    · obtain rfl := List.mem_singleton.1 hendings
      exact isNormal_of_mem_scriptProbes .bundler h
  rw [scriptAt_eq_firstFile h]
  exact ⟨fun file => firstFile_eq_some_iff hscripts, firstFile_eq_none_iff hscripts⟩

/-- A directory with an index, and with a manifest whose `types` lead out of the package. Behind what
    its `main` names there are declarations and, in a directory of that name, an index. -/
theorem probing_takes_main_before_index :
    let text := Bytes.ofString "\x7b\"main\":\"dist\",\"types\":\"../../out\"\x7d"
    let manifest : Manifest := ⟨none, none, none, none, none, none, none, none⟩
    let tree := ((((FileTree.empty.insert "lib/package.json" text).insert
      "lib/dist/index.json" []).insert "lib/index.js" []).insert "lib/dist.d.ts" []).insert
      "lib/index.d.ts" []
    let r := ofPackage tree manifest []
    let places := ["lib", "lib.js", "lib.json", "lib/dist", "lib/dist.js", "lib/dist.json",
      "lib/dist/index", "lib/dist/index.js", "lib/dist/index.json", "lib/index", "lib/index.js",
      "lib/index.json"]
    Path.IsNormal "lib" ∧
    (∃ nested, r.manifestOf "lib" = some nested ∧ nested.main = some "dist") ∧
    (r.scriptProbes [".js", ".json"] "lib" = places ∧
      r.scriptAt [".js", ".json"] "lib" = some "lib/dist/index.json") ∧
    (r.declarationProbes "lib" = ["lib.d.ts", "lib/dist.d.ts", "lib/index.d.ts"] ∧
      r.declarationsAt "lib" = some "lib/dist.d.ts") ∧
    (r.declarationProbes "lib/none.js" = ["lib/none.d.ts", "lib/none.js.d.ts"] ∧
      r.declarationsAt "lib/none.js" = none) := by
  intro text manifest tree r places
  have hlib : Path.IsNormal "lib" := by decide
  have hnone : Path.IsNormal "lib/none.js" := by decide
  obtain ⟨hscripts, hdeclarations, -, -, hmanifest⟩ :=
    probing_takes_first_file tree manifest [] hlib
  obtain ⟨-, -, hmissing, -⟩ := probing_takes_first_file tree manifest [] hnone
  have hnested : ∃ nested, Manifest.parse text = .ok nested ∧ nested.main = some "dist" := by
    have hmain : (Manifest.parse text).toOption.map (·.main) = some (some "dist") := by decide +kernel
    cases hparse : Manifest.parse text with
    | error e =>
        rw [hparse] at hmain
        cases hmain
    | ok nested =>
        rw [hparse] at hmain
        exact ⟨nested, rfl, Option.some.inj hmain⟩
  obtain ⟨nested, hparse, hmain⟩ := hnested
  have hplaces : r.scriptProbes [".js", ".json"] "lib" = places := by decide +kernel
  have hdeclared : r.declarationProbes "lib" = ["lib.d.ts", "lib/dist.d.ts", "lib/index.d.ts"] := by
    decide +kernel
  have halone : r.declarationProbes "lib/none.js" = ["lib/none.d.ts", "lib/none.js.d.ts"] := by
    decide +kernel
  refine ⟨hlib, ⟨nested, (hmanifest (by decide) nested).2 ⟨text, by decide +kernel, hparse⟩, hmain⟩,
    ⟨hplaces, ((hscripts _ (by decide)).1 _).2 ?_⟩, ⟨hdeclared, (hdeclarations _).2 ?_⟩,
    ⟨halone, hmissing.2 ?_⟩⟩
  · exact ⟨places.take 8, places.drop 9, hplaces, by decide +kernel, by decide +kernel⟩
  · exact ⟨["lib.d.ts"], ["lib/index.d.ts"], hdeclared, by decide +kernel, by decide +kernel⟩
  · rw [halone]
    decide +kernel

end Resolver

end TypingsAudit
