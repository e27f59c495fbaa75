import TypingsAudit.FileTree
import TypingsAudit.Proofs.Data
import TypingsAudit.Proofs.Path

set_option autoImplicit false

/-! # Where a path leads

`Path.normalize?` goes along a path and keeps a stack of the directories that it is in. Here the
path is read as a whole. It leaves the package when some front part of it goes up more often than it
enters something (`Path.Escapes`). Otherwise it ends in the directories that it enters and does not
leave again: those of the names behind which the rest of the path, taken by itself, stays in the
package (`Path.kept`). `walk_eq` says so of a walk from anywhere.

A walk along two paths in a row is a walk along the second from where the first one ends. So
normal forms compose: what a path is worth in front of another one is its normal form
(`normalize?_append`). -/

namespace TypingsAudit

namespace Path

/-- The path leaves the package: a front part of it goes up more often than it enters something. -/
def Escapes (segments : List (List Char)) : Prop :=
  ∃ front, front <+: segments ∧ front.countP (IsName ·) < front.count ['.', '.']

/-- How many of the directories that it starts in a walk leaves. -/
def climb : List (List Char) → Nat
  | [] => 0
  | segment :: rest =>
    if IsName segment then climb rest - 1
    else if segment = ['.', '.'] then climb rest + 1
    else climb rest

/-! ## Leaving directories -/

theorem climb_stay {s : List Char} (h : s = [] ∨ s = ['.']) (rest : List (List Char)) :
    climb (s :: rest) = climb rest := by
  rcases h with rfl | rfl <;> rfl

theorem climb_up (rest : List (List Char)) : climb (['.', '.'] :: rest) = climb rest + 1 :=
  rfl

theorem climb_name {s : List Char} (h : IsName s) (rest : List (List Char)) :
    climb (s :: rest) = climb rest - 1 :=
  if_pos h

/-- A walk leaves as many directories as the front part of it that leaves most. -/
theorem lt_climb_iff {segments : List (List Char)} {n : Nat} :
    n < climb segments ↔
      ∃ front, front <+: segments ∧ front.countP (IsName ·) + n < front.count ['.', '.'] := by
  induction segments generalizing n with
  | nil => simp [climb]
  | cons s rest ih =>
      rw [exists_prefix_cons]
      rcases segment_cases s with hstay | rfl | hname
      · have hcount (front : List (List Char)) :
            (s :: front).countP (IsName ·) = front.countP (IsName ·) ∧
              (s :: front).count ['.', '.'] = front.count ['.', '.'] := by
          rcases hstay with rfl | rfl <;> exact ⟨rfl, rfl⟩
        rw [climb_stay hstay, ih]
        simp [hcount]
      · have hcount (front : List (List Char)) :
            (['.', '.'] :: front).countP (IsName ·) = front.countP (IsName ·) ∧
              (['.', '.'] :: front).count ['.', '.'] = front.count ['.', '.'] + 1 :=
          ⟨rfl, by simp⟩
        simp only [hcount, climb_up]
        cases n with
        | zero =>
            -- Going up is enough to leave the first directory.
            refine iff_of_true (Nat.succ_pos _) (Or.inr ⟨[], List.nil_prefix, ?_⟩)
            simp
        | succ n =>
            rw [Nat.succ_lt_succ_iff, ih]
            simp [← Nat.add_assoc]
      · have hcount (front : List (List Char)) :
            (s :: front).countP (IsName ·) = front.countP (IsName ·) + 1 ∧
              (s :: front).count ['.', '.'] = front.count ['.', '.'] := by
          simp [hname, hname.2.2]
        rw [climb_name hname, Nat.lt_sub_iff_add_lt, ih]
        simp [hcount, Nat.add_right_comm, Nat.add_assoc]

theorem escapes_iff {segments : List (List Char)} : Escapes segments ↔ 0 < climb segments := by
  rw [lt_climb_iff, Escapes]
  rfl

instance (segments : List (List Char)) : Decidable (Escapes segments) :=
  decidable_of_iff _ escapes_iff.symm

/-- The names on a path that lead into a directory for good. -/
def kept : List (List Char) → List (List Char)
  | [] => []
  | segment :: rest => if IsName segment ∧ ¬ Escapes rest then segment :: kept rest else kept rest

theorem kept_of_not_isName {s : List Char} (h : ¬ IsName s) (rest : List (List Char)) :
    kept (s :: rest) = kept rest :=
  if_neg fun hkeep => h hkeep.1

/-- **Where a walk ends.** It leaves some of the directories that it starts in, if there are so many,
    and is then in those that it enters for good. -/
theorem walk_eq (here segments : List (List Char)) :
    walk here segments =
      if climb segments ≤ here.length
      then some ((kept segments).reverse ++ here.drop (climb segments)) else none := by
  induction segments generalizing here with
  | nil => simp [walk, climb, kept]
  | cons s rest ih =>
      rcases segment_cases s with hstay | rfl | hname
      · have hnot : ¬ IsName s := fun hname => hstay.elim hname.1 hname.2.1
        rw [walk_stay hstay, climb_stay hstay, kept_of_not_isName hnot, ih]
      · have hnot : ¬ IsName ['.', '.'] := fun hname => hname.2.2 rfl
        rw [climb_up, kept_of_not_isName hnot]
        cases here with
        | nil => rw [walk_escape, List.length_nil, if_neg (Nat.not_succ_le_zero _)]
        | cons last up => simp [walk_up, ih]
      · rw [walk_name hname, climb_name hname, ih, kept]
        by_cases hescapes : Escapes rest
        · -- The name is the first directory that the rest of the path leaves.
          obtain ⟨n, hn⟩ := Nat.exists_eq_succ_of_ne_zero (Nat.ne_of_gt (escapes_iff.1 hescapes))
          simp [hn, hescapes]
        · have hzero : climb rest = 0 := Nat.eq_zero_of_not_pos (mt escapes_iff.2 hescapes)
          simp [hzero, hescapes, hname]

/-- The normal form of a path that stays in the package names the directories it enters for good. -/
theorem normalize?_eq (path : String) :
    normalize? path =
      if Escapes (segments path.toList) then none
      else some (render (kept (segments path.toList))) := by
  rw [normalize?, walk_eq, List.length_nil]
  by_cases hescapes : Escapes (segments path.toList)
  · rw [if_pos hescapes, if_neg (Nat.not_le.2 (escapes_iff.1 hescapes)), Option.map_none]
  · rw [if_neg hescapes, if_pos (Nat.not_lt.1 (mt escapes_iff.2 hescapes)), Option.map_some,
      List.drop_nil, List.append_nil, List.reverse_reverse]

/-! ## Paths in a row -/

theorem walk_append (here front back : List (List Char)) :
    walk here (front ++ back) = (walk here front).bind (walk · back) := by
  induction front generalizing here with
  | nil => simp [walk]
  | cons s rest ih =>
      rw [List.cons_append]
      rcases segment_cases s with hstay | rfl | hname
      · rw [walk_stay hstay, walk_stay hstay, ih]
      · cases here with
        | nil => rw [walk_escape, walk_escape, Option.bind_none]
        | cons last up => rw [walk_up, walk_up, ih]
      · rw [walk_name hname, walk_name hname, ih]

/-- Joining a path to a directory walks along it from there. -/
theorem join?_render {here : List (List Char)} (hname : ∀ s ∈ here, IsName s)
    (hsep : ∀ s ∈ here, NoSeparator s) (request : String) :
    join? (render here.reverse) request =
      (walk here (segments request.toList)).map fun there => render there.reverse := by
  by_cases hroot : here = []
  · subst hroot
    rfl
  · have hsegments : segments (render here.reverse).toList = here.reverse := by
      rw [render, String.toList_ofList]
      exact segments_intercalate (by simpa using hroot) (fun s hs => hsep s (List.mem_reverse.1 hs))
    have hdir : render here.reverse ≠ "" := by
      intro hempty
      rw [hempty] at hsegments
      have hmem : [] ∈ here := List.mem_reverse.1 (hsegments ▸ List.mem_cons_self ..)
      exact (hname [] hmem).1 rfl
    have htext : (render here.reverse ++ "/" ++ request).toList =
        (render here.reverse).toList ++ '/' :: request.toList := by simp
    rw [join?, if_neg hdir, normalize?, htext, segments_append_slash_append, hsegments, walk_append,
      walk_names (fun s hs => hname s (List.mem_reverse.1 hs)), Option.bind_some,
      List.reverse_reverse, List.append_nil]

/-- The front one of two paths may be replaced by its normal form. -/
theorem normalize?_append (path request : String) :
    normalize? (path ++ "/" ++ request) = (normalize? path).bind (join? · request) := by
  have htext : (path ++ "/" ++ request).toList = path.toList ++ '/' :: request.toList := by simp
  rw [normalize?, normalize?, htext, segments_append_slash_append, walk_append]
  cases hwalk : walk [] (segments path.toList) with
  | none => rfl
  | some here =>
      have hmem : ∀ s ∈ here, s ∈ segments path.toList ∧ IsName s := fun s hs =>
        (mem_of_walk hwalk s hs).resolve_left (by simp)
      have hjoin := join?_render (fun s hs => (hmem s hs).2)
        (fun s hs => noSeparator_of_mem_segments (hmem s hs).1) request
      simp only [Option.bind_some, Option.map_some, hjoin]

theorem normalize_eq_ok_iff {path normal : String} :
    normalize path = .ok normal ↔ normalize? path = some normal := by
  unfold normalize
  cases normalize? path <;> simp

theorem normalize_eq_error_iff {path : String} {error : PathError} :
    normalize path = .error error ↔ normalize? path = none ∧ error = .escapesRoot path := by
  unfold normalize
  cases normalize? path <;> simp [eq_comm]

theorem toOption_normalize (path : String) : (normalize path).toOption = normalize? path := by
  unfold normalize
  cases normalize? path <;> rfl

/-- **A path has one normal form, and normal forms compose.** A path is refused, under the name that
    it has, exactly when a front part of it goes up more often than it enters something. Otherwise its
    normal form names, in their order, the directories that it enters for good, and is its own normal
    form. Where one path is put in front of another, it has to stay in the package by itself, and
    nothing of it matters but its normal form. -/
theorem normalize_canonical (path : String) :
    (normalize path = .error (.escapesRoot path) ↔ Escapes (segments path.toList)) ∧
    (¬ Escapes (segments path.toList) → ∃ normal, normalize path = .ok normal ∧
      normal = render (kept (segments path.toList)) ∧ IsNormal normal ∧
      normalize normal = .ok normal) ∧
    ∀ request,
      ((∃ whole, normalize (path ++ "/" ++ request) = .ok whole) →
        ∃ dir, normalize path = .ok dir) ∧
      ∀ dir, normalize path = .ok dir →
        (normalize (path ++ "/" ++ request)).toOption = join? dir request := by
  refine ⟨?_, fun hstays => ?_, fun request => ⟨?_, fun dir hdir => ?_⟩⟩
  · rw [normalize_eq_error_iff, normalize?_eq]
    split <;> simp [*]
  · have hnormal : normalize? path = some (render (kept (segments path.toList))) := by
      rw [normalize?_eq, if_neg hstays]
    have hfixed := isNormal_of_normalize? hnormal
    exact ⟨_, normalize_eq_ok_iff.2 hnormal, rfl, hfixed,
      normalize_eq_ok_iff.2 (normalize?_of_isNormal hfixed)⟩
  · rintro ⟨whole, hwhole⟩
    rw [normalize_eq_ok_iff, normalize?_append] at hwhole
    obtain ⟨dir, hdir, -⟩ := Option.bind_eq_some_iff.1 hwhole
    exact ⟨dir, normalize_eq_ok_iff.2 hdir⟩
  · rw [toOption_normalize, normalize?_append, normalize_eq_ok_iff.1 hdir, Option.bind_some]

/-- A path with both separators that goes up where it may, and two that are read from there: one
    stays in the package, and one does not. -/
theorem mixed_path_canonical :
    let path := "./lib\\sub/..//main.js"
    ¬ Escapes (segments path.toList) ∧ normalize path = .ok "lib/main.js" ∧
      normalize "lib/main.js" = .ok "lib/main.js" ∧
      ((normalize (path ++ "/" ++ "..\\../dist/")).toOption = join? "lib/main.js" "..\\../dist/" ∧
        join? "lib/main.js" "..\\../dist/" = some "dist") ∧
      (normalize (path ++ "/" ++ "../../../lib")).toOption = join? "lib/main.js" "../../../lib" ∧
      join? "lib/main.js" "../../../lib" = none := by
  intro path
  obtain ⟨-, hnormal, hcompose⟩ := normalize_canonical path
  have hstays : ¬ Escapes (segments path.toList) := by decide +kernel
  obtain ⟨normal, hpath, hkept, -, hfixed⟩ := hnormal hstays
  obtain rfl : normal = "lib/main.js" := hkept.trans (by decide +kernel)
  exact ⟨hstays, hpath, hfixed, ⟨(hcompose _).2 _ hpath, by decide +kernel⟩,
    (hcompose _).2 _ hpath, by decide +kernel⟩

end Path

end TypingsAudit
