import TypingsAudit.Proofs.Resolution.Failures
import TypingsAudit.Proofs.TypesVersions

set_option autoImplicit false

/-! # Declarations in mapped places

Where `typesVersions` maps a path, its declarations are looked for in the places it names and
nowhere else. The places are tried in order, those outside the package are passed over, and the first
one at which the algorithm finds something answers (`Resolver.legacy_eq_found_iff_of_mapped`). The
path itself is not one of them, so a map to places without declarations hides the ones at the
path. -/

namespace TypingsAudit

namespace Resolver

variable {r : Resolver} {kind : ResolutionKind} {subpath path : String} {places : List String}

/-- Of several answers the first one with a file is given. -/
theorem firstFound_eq_found_iff {answers : List Resolution} {file : Resolved} :
    firstFound answers = .found file ↔
      ∃ front back, answers = front ++ .found file :: back ∧
        ∀ answer ∈ front, answer.isFound = false := by
  induction answers with
  | nil => simp [firstFound]
  | cons answer rest ih =>
      cases answer with
      | found other =>
          have hfirst : firstFound (.found other :: rest) = .found other := by
            cases rest with
            | nil => rfl
            | cons next rest => exact if_pos rfl
          rw [hfirst]
          constructor
          · rintro hother
            exact ⟨[], rest, by rw [hother, List.nil_append], by simp⟩
          · rintro ⟨front, back, hsplit, hfront⟩
            cases front with
            | nil => exact (List.cons.inj hsplit).1
            | cons first front =>
                obtain ⟨rfl, -⟩ := List.cons.inj hsplit
                exact absurd (hfront _ (List.mem_cons_self ..)) (by simp [Resolution.isFound,
                  Resolution.file?])
      | notFound reason =>
          have hrest : firstFound (.notFound reason :: rest) = .found file ↔
              firstFound rest = .found file := by
            cases rest with
            | nil => simp [firstFound]
            | cons next rest => rw [firstFound, if_neg (by simp)]; simp
          rw [hrest, ih]
          constructor
          · rintro ⟨front, back, rfl, hfront⟩
            exact ⟨.notFound reason :: front, back, rfl,
              List.forall_mem_cons.2 ⟨rfl, hfront⟩⟩
          · rintro ⟨front, back, hsplit, hfront⟩
            cases front with
            | nil => exact absurd (List.cons.inj hsplit).1 (by simp)
            | cons first front =>
                obtain ⟨-, rfl⟩ := List.cons.inj hsplit
                exact ⟨front, back, rfl, (List.forall_mem_cons.1 hfront).2⟩

/-- The answers in the places that are tried for a mapped path. -/
theorem legacy_eq_firstFound_of_mapped (hsubpath : subpath ≠ Exports.rootSubpath)
    (hpath : Path.normalize? subpath = some path)
    (hplaces : r.manifest.typesVersions.bind (·.map? path) = some places) :
    r.legacy kind subpath .types =
      firstFound (places.filterMap fun place =>
        (Path.normalize? place).map (r.atPath kind · .types)) := by
  rw [legacy_eq_firstFound hsubpath hpath]
  simp only [Resolver.places, mappedPaths, hplaces, List.map_filterMap]

/-- **A mapped path has the declarations of the first place that has any.** -/
theorem legacy_eq_found_iff_of_mapped (hsubpath : subpath ≠ Exports.rootSubpath)
    (hpath : Path.normalize? subpath = some path)
    (hplaces : r.manifest.typesVersions.bind (·.map? path) = some places) {file : Resolved} :
    r.legacy kind subpath .types = .found file ↔
      ∃ front place back target, places = front ++ place :: back ∧
        Path.normalize? place = some target ∧ r.atPath kind target .types = .found file ∧
        ∀ other ∈ front, ∀ target, Path.normalize? other = some target →
          (r.atPath kind target .types).isFound = false := by
  rw [legacy_eq_firstFound_of_mapped hsubpath hpath hplaces, firstFound_eq_found_iff]
  simp only [filterMap_eq_append_cons_iff]
  constructor
  · rintro ⟨_, _, ⟨front, place, back, hsplit, rfl, hplace, -⟩, hfront⟩
    obtain ⟨target, htarget, hfile⟩ := Option.map_eq_some_iff.1 hplace
    refine ⟨front, place, back, target, hsplit, htarget, hfile, ?_⟩
    intro other hother target htarget
    exact hfront _ (List.mem_filterMap.2 ⟨other, hother, by rw [htarget]; rfl⟩)
  · rintro ⟨front, place, back, target, hsplit, htarget, hfile, hfront⟩
    have hplace : (Path.normalize? place).map (r.atPath kind · .types) = some (.found file) := by
      rw [htarget, Option.map_some, hfile]
    refine ⟨_, _, ⟨front, place, back, hsplit, rfl, hplace, rfl⟩, ?_⟩
    intro answer hanswer
    obtain ⟨other, hother, hat⟩ := List.mem_filterMap.1 hanswer
    obtain ⟨target, htarget, rfl⟩ := Option.map_eq_some_iff.1 hat
    exact hfront other hother target htarget

/-- **A map of paths picks one entry, and what it says is final.** The entry is the first one whose key
    is the path. Without one, it is the pattern for the path with the longest lead, and of equally long
    ones the first; the text that its first `*` stands for then takes the place of every `*` of its
    targets. Without a pattern the path is not mapped. In a package without `exports`, under every
    algorithm, the declarations for a mapped subpath are those of the first place that stays in the
    package and has any. Where no place has, there are none. -/
theorem mapping_is_authoritative (versions : TypesVersions) (path : String) :
    (∀ front targets back, versions.paths = front ++ (path, targets) :: back →
      (∀ entry ∈ front, entry.1 ≠ path) → versions.map? path = some targets) ∧
    ((∀ entry ∈ versions.paths, entry.1 ≠ path) → ∀ places,
      versions.map? path = some places ↔ ∃ key star targets,
        TypesVersions.MapsBy versions.paths path key star targets ∧
        places = targets.map (Star.substitute · star)) ∧
    (versions.map? path = none ↔ ∀ entry ∈ versions.paths, entry.1 ≠ path ∧
      ∀ before star after, ¬ Star.Matches entry.1 path before star after) ∧
    ∀ tree manifest conditions kind question subpath places,
      manifest.exports = none → manifest.typesVersions = some versions →
      question.subpath? (ofPackage tree manifest conditions) = some subpath →
      subpath ≠ Exports.rootSubpath → Path.normalize? subpath = some path →
      versions.map? path = some places →
      let r := ofPackage tree manifest conditions
      let answer := r.answer kind .types question
      (∀ file, answer = .found file ↔ ∃ front place back target, places = front ++ place :: back ∧
        Path.normalize? place = some target ∧ r.atPath kind target .types = .found file ∧
        ∀ other ∈ front, ∀ target, Path.normalize? other = some target →
          (r.atPath kind target .types).isFound = false) ∧
      ((∀ place ∈ places, ∀ target, Path.normalize? place = some target →
        (r.atPath kind target .types).isFound = false) → answer.isFound = false) := by
  refine ⟨fun front targets back => TypesVersions.map?_of_key,
    fun hkeys places => TypesVersions.map?_eq_some_iff hkeys, TypesVersions.map?_eq_none_iff, ?_⟩
  intro tree manifest conditions kind question subpath places hexports hversions hquestion hsubpath
    hpath hmap r answer
  have hplaces : r.manifest.typesVersions.bind (·.map? path) = some places := by
    rw [show r.manifest.typesVersions = some versions from hversions, Option.bind_some, hmap]
  have hanswer : answer = r.legacy kind subpath .types :=
    (answer_of_subpath? hquestion).trans (atSubpath_of_exports_eq_none hexports ..)
  rw [hanswer]
  refine ⟨fun file => legacy_eq_found_iff_of_mapped hsubpath hpath hplaces, fun hnone => ?_⟩
  rw [legacy_eq_firstFound_of_mapped hsubpath hpath hplaces, isFound_firstFound, List.any_eq_false]
  intro found hfound
  obtain ⟨place, hplace, hat⟩ := List.mem_filterMap.1 hfound
  obtain ⟨target, htarget, rfl⟩ := Option.map_eq_some_iff.1 hat
  rw [hnone place hplace target htarget]
  exact Bool.false_ne_true

/-- Three patterns for one path, two of them equally long. The first place of the chosen one is outside
    the package, and the second one has declarations, as have the third one and the path itself. Another
    path with declarations is mapped to a place that has none. -/
theorem mapped_declarations_hide_others :
    let targets := ["../out/*", "dts/*", "more/*"]
    let versions : TypesVersions :=
      ⟨"*", [("*", ["types/*"]), ("lib/*", targets), ("lib/*.js", ["none/*"]), ("b.js", ["c.js"])]⟩
    let manifest : Manifest := ⟨none, none, none, none, none, none, none, some versions⟩
    let tree := (((FileTree.empty.insert "lib/a.d.ts" []).insert "dts/a.d.ts" []).insert
      "more/a.d.ts" []).insert "b.d.ts" []
    let r := ofPackage tree manifest []
    let places := ["../out/a.js", "dts/a.js", "more/a.js"]
    (∀ entry ∈ versions.paths, entry.1 ≠ "lib/a.js") ∧
    TypesVersions.MapsBy versions.paths "lib/a.js" "lib/*" "a.js" targets ∧
    versions.map? "lib/a.js" = some places ∧
    r.declarationsAt "lib/a.js" = some "lib/a.d.ts" ∧
    r.enter .node10 "./lib/a.js" .types = .found ⟨"dts/a.d.ts", .cjs, true, false⟩ ∧
    versions.map? "b.js" = some ["c.js"] ∧
    r.declarationsAt "b.js" = some "b.d.ts" ∧
    (r.enter .bundler "./b.js" .types).isFound = false := by
  intro targets versions manifest tree r places
  obtain ⟨-, hpattern, -, hmapped⟩ := mapping_is_authoritative versions "lib/a.js"
  obtain ⟨hkey, -, -, hother⟩ := mapping_is_authoritative versions "b.js"
  have hkeys : ∀ entry ∈ versions.paths, entry.1 ≠ "lib/a.js" := by decide
  have hmaps : TypesVersions.MapsBy versions.paths "lib/a.js" "lib/*" "a.js" targets := by
    refine ⟨[("*", ["types/*"])], [("lib/*.js", ["none/*"]), ("b.js", ["c.js"])], "lib/", "", rfl,
      ⟨by decide, by decide, by decide⟩, ?_, ?_⟩
    · intro other hother before star after hmatches
      obtain rfl := List.mem_singleton.1 hother
      rw [← hmatches.leadLength]
      decide +kernel
    · intro other hother before star after hmatches
      rw [← hmatches.leadLength]
      clear hmatches
      revert other
      decide +kernel
  have hplaces : versions.map? "lib/a.js" = some places :=
    (hpattern hkeys places).2 ⟨"lib/*", "a.js", targets, hmaps, by decide +kernel⟩
  have hgone : versions.map? "b.js" = some ["c.js"] :=
    hkey [("*", ["types/*"]), ("lib/*", targets), ("lib/*.js", ["none/*"])] ["c.js"] [] rfl
      (by decide)
  obtain ⟨hfound, -⟩ := hmapped tree manifest [] .node10 (.entry "./lib/a.js") "./lib/a.js" places
    rfl rfl rfl (by decide) (by decide +kernel) hplaces
  obtain ⟨-, hnone⟩ := hother tree manifest [] .bundler (.entry "./b.js") "./b.js" ["c.js"]
    rfl rfl rfl (by decide) (by decide +kernel) hgone
  refine ⟨hkeys, hmaps, hplaces, by decide +kernel, (hfound _).2 ?_, hgone, by decide +kernel,
    hnone ?_⟩
  · refine ⟨["../out/a.js"], "dts/a.js", ["more/a.js"], "dts/a.js", rfl, by decide +kernel,
      by decide +kernel, ?_⟩
    intro other hother target htarget
    obtain rfl := List.mem_singleton.1 hother
    have houtside : Path.normalize? "../out/a.js" = none := by decide +kernel
    rw [houtside] at htarget
    cases htarget
  · intro place hplace target htarget
    obtain rfl := List.mem_singleton.1 hplace
    obtain rfl : "c.js" = target := Option.some.inj
      ((show Path.normalize? "c.js" = some "c.js" by decide +kernel).symm.trans htarget)
    decide +kernel

end Resolver

end TypingsAudit
