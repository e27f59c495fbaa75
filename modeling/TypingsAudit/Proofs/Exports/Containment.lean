import TypingsAudit.Proofs.Exports.Walk
import TypingsAudit.Proofs.Path

set_option autoImplicit false

/-! # Targets inside the package

A target that `exports` leads to must not leave the package or enter `node_modules`.
`Exports.isValidTarget` looks for the segments that would do so between slashes, and a path is read
with backslashes as separators too. `Path.contained_iff` says what it takes for a path to stay
inside, and `contained_of_isValidTarget` what the check is worth: a valid target without a backslash
stays inside, and one with a backslash may not. -/

namespace TypingsAudit

namespace Path

/-- The segments that a walk of `segments` from `here` leaves again, in order. Nothing is left by
    a walk out of the root, which has no normal form. -/
def abandoned : List (List Char) → List (List Char) → List (List Char)
  | _, [] => []
  | here, segment :: rest =>
    if segment = [] ∨ segment = ['.'] then abandoned here rest
    else if segment = ['.', '.'] then
      match here with
      | [] => []
      | last :: up => last :: abandoned up rest
    else abandoned (segment :: here) rest

/-- The name of the directory that holds the dependencies of a package. -/
def dependencies : List Char := "node_modules".toList

/-- A path that has a normal form, gets there without going up and is not inside the dependencies of
    the package. -/
def Contained (path : String) : Prop :=
  ∃ normal, normalize? path = some normal ∧ abandoned [] (segments path.toList) = [] ∧
    dependencies ∉ segments normal.toList

theorem abandoned_stay {s : List Char} (h : s = [] ∨ s = ['.']) (here rest : List (List Char)) :
    abandoned here (s :: rest) = abandoned here rest := by
  rw [abandoned.eq_def]
  exact if_pos h

theorem abandoned_up (last : List Char) (up rest : List (List Char)) :
    abandoned (last :: up) (['.', '.'] :: rest) = last :: abandoned up rest := by
  simp [abandoned]

theorem abandoned_name {s : List Char} (h : IsName s) (here rest : List (List Char)) :
    abandoned here (s :: rest) = abandoned (s :: here) rest := by
  rw [abandoned.eq_def]
  simp only [if_neg (not_or.2 ⟨h.1, h.2.1⟩), if_neg h.2.2]

/-- A walk that reaches its end and leaves nothing on the way never goes up. -/
theorem up_notMem_of_abandoned_eq_nil {parts here out : List (List Char)}
    (hwalk : walk here parts = some out) (h : abandoned here parts = []) :
    ['.', '.'] ∉ parts := by
  induction parts generalizing here with
  | nil => simp
  | cons s rest ih =>
      rw [List.mem_cons, not_or]
      rcases segment_cases s with hstay | rfl | hname
      · rw [walk_stay hstay] at hwalk
        rw [abandoned_stay hstay] at h
        exact ⟨by rcases hstay with rfl | rfl <;> simp, ih hwalk h⟩
      · cases here with
        | nil => exact absurd hwalk (by simp [walk_escape])
        | cons last up => exact absurd h (by simp [abandoned_up])
      · rw [walk_name hname] at hwalk
        rw [abandoned_name hname] at h
        exact ⟨Ne.symm hname.2.2, ih hwalk h⟩

/-- A walk that never goes up enters every name and leaves none. -/
theorem walk_of_up_notMem {parts : List (List Char)} (h : ['.', '.'] ∉ parts)
    (here : List (List Char)) :
    walk here parts = some ((parts.filter (IsName ·)).reverse ++ here) ∧
      abandoned here parts = [] := by
  induction parts generalizing here with
  | nil => simp [walk, abandoned]
  | cons s rest ih =>
      rw [List.mem_cons, not_or] at h
      rcases segment_cases s with hstay | rfl | hname
      · have hfilter : (s :: rest).filter (IsName ·) = rest.filter (IsName ·) := by
          rcases hstay with rfl | rfl <;> exact List.filter_cons_of_neg (by decide)
        rw [walk_stay hstay, abandoned_stay hstay, hfilter]
        exact ih h.2 here
      · exact absurd rfl h.1
      · have hfilter : (s :: rest).filter (IsName ·) = s :: rest.filter (IsName ·) :=
          List.filter_cons_of_pos (by simpa using hname)
        rw [walk_name hname, abandoned_name hname, hfilter, List.reverse_cons, List.append_assoc]
        exact ih h.2 (s :: here)

/-- The names of a path that never goes up are those of its normal form. -/
theorem normalize?_of_up_notMem {path : String} (h : ['.', '.'] ∉ segments path.toList) :
    ∃ normal, normalize? path = some normal ∧
      ∀ s, IsName s → (s ∈ segments normal.toList ↔ s ∈ segments path.toList) := by
  let names := (segments path.toList).filter (IsName ·)
  have hnormal : normalize? path = some (render names) := by
    rw [normalize?, (walk_of_up_notMem h []).1, Option.map_some, List.append_nil,
      List.reverse_reverse]
  refine ⟨render names, hnormal, fun s hs => ?_⟩
  have hmem : s ∈ names ↔ s ∈ segments path.toList := by
    simp [names, List.mem_filter, hs]
  rw [← hmem, render, String.toList_ofList]
  by_cases hne : names = []
  · rw [hne]
    simpa [segments] using hs.1
  · rw [segments_intercalate hne (fun t ht =>
      noSeparator_of_mem_segments (List.mem_of_mem_filter ht))]

/-- **A path stays inside just when no segment of it goes up or enters the dependencies.** -/
theorem contained_iff {path : String} :
    Contained path ↔ ∀ s ∈ segments path.toList, s ≠ ['.', '.'] ∧ s ≠ dependencies := by
  have hname : IsName dependencies := by decide
  constructor
  · rintro ⟨normal, hnormal, hleft, hdeps⟩
    obtain ⟨out, hwalk, -⟩ := Option.map_eq_some_iff.1 hnormal
    have hup := up_notMem_of_abandoned_eq_nil hwalk hleft
    obtain ⟨normal', hnormal', hmem⟩ := normalize?_of_up_notMem hup
    obtain rfl : normal = normal' := by rw [hnormal] at hnormal'; exact Option.some.inj hnormal'
    intro s hs
    exact ⟨fun heq => hup (heq ▸ hs), fun heq => hdeps ((hmem _ hname).2 (heq ▸ hs))⟩
  · intro h
    have hup : ['.', '.'] ∉ segments path.toList := fun hs => (h _ hs).1 rfl
    obtain ⟨normal, hnormal, hmem⟩ := normalize?_of_up_notMem hup
    exact ⟨normal, hnormal, (walk_of_up_notMem hup []).2,
      fun hdeps => (h _ ((hmem _ hname).1 hdeps)).2 rfl⟩

end Path

namespace Exports

/-- The form of a valid target. -/
theorem exists_of_isValidTarget {target : String} (h : isValidTarget target = true) :
    ∃ rest, target.toList = '.' :: '/' :: rest ∧ ∀ s ∈ rest.splitOn '/', s ∉ forbiddenSegments := by
  unfold isValidTarget at h
  split at h
  · next rest hrest =>
      obtain ⟨chars, hchars, rfl⟩ := Option.map_eq_some_iff.1 hrest
      refine ⟨chars, Text.afterFront?_eq_some_iff.1 hchars, fun s hs hmem => ?_⟩
      rw [Bool.not_eq_true', String.toList_ofList, List.any_eq_false] at h
      exact h s hs (by simpa using hmem)
  · exact absurd h (by simp)

/-- A valid target without a backslash stays inside the package. -/
theorem contained_of_isValidTarget {target : String} (h : isValidTarget target = true)
    (hslash : '\\' ∉ target.toList) : Path.Contained target := by
  obtain ⟨rest, htarget, hvalid⟩ := exists_of_isValidTarget h
  rw [htarget] at hslash
  have hsegments : Path.segments target.toList = ['.'] :: rest.splitOn '/' := by
    rw [htarget, ← Path.segments_eq_splitOn (by simp_all)]
    exact Path.segments_append_slash (s := ['.']) (by decide) rest
  rw [Path.contained_iff, hsegments]
  intro s hs
  rcases List.mem_cons.1 hs with rfl | hs
  · decide
  · have hforbidden := hvalid s hs
    exact ⟨fun heq => hforbidden (heq ▸ by decide), fun heq => hforbidden (heq ▸ by decide)⟩

/-- **Which targets of a lookup stay inside the package.** There is at least one target; each one
    without a backslash stays inside, and any other one does just when no segment of it, between
    separators of both kinds, goes up or is `node_modules`. -/
theorem lookup_candidates_contained (exports : Exports) (subpath : String) (active : ConditionSet)
    (targets : List String) (h : exports.lookup subpath active = .candidates targets) :
    targets ≠ [] ∧ ∀ t ∈ targets,
      ('\\' ∉ t.toList → Path.Contained t) ∧
      (Path.Contained t ↔
        ∀ s ∈ Path.segments t.toList, s ≠ ['.', '.'] ∧ s ≠ Path.dependencies) := by
  obtain ⟨s, -, rfl, hne⟩ := lookup_eq_candidates_iff.1 h
  exact ⟨hne, fun t ht =>
    ⟨contained_of_isValidTarget (isValidTarget_of_mem_walk s.value ht), Path.contained_iff⟩⟩

/-- A pattern whose `*` stands for two directories. -/
theorem lookup_pattern_contained :
    let exports := subpaths [("./*", .target "./lib/*.js")]
    let active := ConditionSet.ofNames []
    exports.lookup "./a/b" active = .candidates ["./lib/a/b.js"] ∧
      Path.Contained "./lib/a/b.js" := by
  intro exports active
  have hlookup : exports.lookup "./a/b" active = .candidates ["./lib/a/b.js"] := by decide +kernel
  exact ⟨hlookup, ((lookup_candidates_contained _ _ _ _ hlookup).2 _ (by simp)).1 (by decide)⟩

/-- **A backslash takes a target out of the package, or into its dependencies.** The text of a `*`
    can bring it along. -/
theorem lookup_backslash_escapes :
    ((subpaths [("./*", .target "./lib/*")]).lookup "./..\\..\\secret" (ConditionSet.ofNames []) =
        .candidates ["./lib/..\\..\\secret"] ∧
      Path.normalize? "./lib/..\\..\\secret" = none) ∧
    ((target "./node_modules\\dep.js").lookup "." (ConditionSet.ofNames []) =
        .candidates ["./node_modules\\dep.js"] ∧
      Path.normalize? "./node_modules\\dep.js" = some "node_modules/dep.js") := by
  decide +kernel

end Exports

end TypingsAudit
