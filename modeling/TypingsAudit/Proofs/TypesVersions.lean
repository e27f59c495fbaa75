import TypingsAudit.Proofs.Data
import TypingsAudit.Proofs.Text.Star
import TypingsAudit.TypesVersions

set_option autoImplicit false

/-! # Which entry maps a path

A map of paths is searched for the path itself and then for the pattern with the longest lead. The
search for the pattern keeps a running best and gives it up only for a strictly longer lead, so what
it ends with is the first of the longest ones (`TypesVersions.IsFirstLongest`): all before it are
shorter, and none behind it is longer. There is one such match in any list that has a match at all.

`TypesVersions.MapsBy` says the same of the entries themselves. -/

namespace TypingsAudit

namespace TypesVersions

/-! ## The first of the longest matches -/

/-- No match has a longer lead, and those before it have shorter ones. -/
def IsFirstLongest (found : List Match) (m : Match) : Prop :=
  ∃ front back, found = front ++ m :: back ∧ (∀ other ∈ front, other.lead < m.lead) ∧
    ∀ other ∈ back, other.lead ≤ m.lead

variable {found rest : List Match} {m b next : Match}

theorem IsFirstLongest.lead_le (h : IsFirstLongest found m) : ∀ other ∈ found, other.lead ≤ m.lead := by
  obtain ⟨front, back, rfl, hfront, hback⟩ := h
  intro other hother
  rcases List.mem_append.1 hother with hother | hother
  · exact Nat.le_of_lt (hfront other hother)
  · rcases List.mem_cons.1 hother with rfl | hother
    · exact Nat.le_refl _
    · exact hback other hother

/-- A match with a shorter lead can stand in front. -/
theorem IsFirstLongest.cons (h : IsFirstLongest found m) (hb : b.lead < m.lead) :
    IsFirstLongest (b :: found) m := by
  obtain ⟨front, back, rfl, hfront, hback⟩ := h
  exact ⟨b :: front, back, rfl, List.forall_mem_cons.2 ⟨hb, hfront⟩, hback⟩

/-- A match that is no longer than the one before it does not count. -/
theorem IsFirstLongest.insert (h : IsFirstLongest (b :: rest) m) (hnext : next.lead ≤ b.lead) :
    IsFirstLongest (b :: next :: rest) m := by
  have hb : b.lead ≤ m.lead := h.lead_le b (List.mem_cons_self ..)
  obtain ⟨front, back, hsplit, hfront, hback⟩ := h
  cases front with
  | nil =>
      obtain ⟨rfl, rfl⟩ := List.cons.inj hsplit
      exact ⟨[], next :: rest, rfl, by simp, List.forall_mem_cons.2 ⟨hnext, hback⟩⟩
  | cons first front =>
      obtain ⟨rfl, rfl⟩ := List.cons.inj hsplit
      obtain ⟨hlt, hfront⟩ := List.forall_mem_cons.1 hfront
      refine ⟨b :: next :: front, back, rfl, ?_, hback⟩
      exact List.forall_mem_cons.2 ⟨hlt, List.forall_mem_cons.2 ⟨Nat.lt_of_le_of_lt hnext hlt, hfront⟩⟩

/-- The running best ends with the first of the longest. -/
theorem isFirstLongest_of_best (h : best (some b) rest = some m) : IsFirstLongest (b :: rest) m := by
  induction rest generalizing b with
  | nil =>
      obtain rfl := Option.some.inj h
      exact ⟨[], [], rfl, by simp, by simp⟩
  | cons next rest ih =>
      rw [best] at h
      split at h
      · next hlonger =>
          have hnext := ih h
          exact hnext.cons (Nat.lt_of_lt_of_le hlonger (hnext.lead_le next (List.mem_cons_self ..)))
      · next hshorter => exact (ih h).insert (Nat.le_of_not_lt hshorter)

theorem IsFirstLongest.unique {m' : Match} (h : IsFirstLongest found m)
    (h' : IsFirstLongest found m') : m = m' := by
  obtain ⟨front, back, rfl, hfront, hback⟩ := h
  obtain ⟨front', back', hsplit, hfront', hback'⟩ := h'
  -- If one of them stood in front of the other one, it would have both a shorter and no shorter lead.
  rcases List.append_eq_append_iff.1 hsplit with ⟨between, rfl, hrest⟩ | ⟨between, rfl, hrest⟩
  · cases between with
    | nil => exact (List.cons.inj hrest).1
    | cons first between =>
        obtain ⟨rfl, rfl⟩ := List.cons.inj hrest
        exact absurd (hfront' m (by simp)) (Nat.not_lt.2 (hback m' (by simp)))
  · cases between with
    | nil => exact (List.cons.inj hrest).1.symm
    | cons first between =>
        obtain ⟨rfl, rfl⟩ := List.cons.inj hrest
        exact absurd (hfront m' (by simp)) (Nat.not_lt.2 (hback' m (by simp)))

theorem best_eq_none_iff {start : Option Match} :
    best start found = none ↔ start = none ∧ found = [] := by
  induction found generalizing start with
  | nil => simp [best]
  | cons next rest ih => cases start <;> simp [best, ih]

/-- **The search ends with the first of the longest matches.** -/
theorem best_eq_some_iff : best none found = some m ↔ IsFirstLongest found m := by
  have hbest : ∀ {m}, best none found = some m → IsFirstLongest found m := by
    intro m h
    cases found with
    | nil => exact absurd h (by simp [best])
    | cons first rest => exact isFirstLongest_of_best h
  refine ⟨hbest, fun h => ?_⟩
  cases hfound : best none found with
  | none =>
      obtain ⟨front, back, hsplit, -⟩ := h
      exact absurd hsplit (by simp [(best_eq_none_iff.1 hfound).2])
  | some m' => rw [(hbest hfound).unique h]

/-! ## Entries -/

variable {entries : List (String × List String)} {path : String}

/-- The path is mapped by the pattern `key`, whose first `*` stands for `star`: no entry has a pattern
    for the path that is longer in front of its `*`, and no earlier entry has one that is as
    long. -/
def MapsBy (entries : List (String × List String)) (path key star : String)
    (targets : List String) : Prop :=
  ∃ front back before after, entries = front ++ (key, targets) :: back ∧
    Star.Matches key path before star after ∧
    (∀ other ∈ front, ∀ before' star' after', Star.Matches other.1 path before' star' after' →
      before'.utf8ByteSize < before.utf8ByteSize) ∧
    ∀ other ∈ back, ∀ before' star' after', Star.Matches other.1 path before' star' after' →
      before'.utf8ByteSize ≤ before.utf8ByteSize

theorem match?_eq_some_iff {entry : String × List String} :
    match? path entry = some m ↔ ∃ before after, Star.Matches entry.1 path before m.star after ∧
      m.lead = before.utf8ByteSize ∧ m.targets = entry.2 := by
  rw [match?, Option.map_eq_some_iff]
  constructor
  · rintro ⟨star, hstar, rfl⟩
    obtain ⟨before, after, hmatches⟩ := Star.match?_eq_some_iff.1 hstar
    exact ⟨before, after, hmatches, hmatches.leadLength, rfl⟩
  · rintro ⟨before, after, hmatches, hlead, htargets⟩
    refine ⟨m.star, Star.match?_eq_some_iff.2 ⟨before, after, hmatches⟩, ?_⟩
    rw [hmatches.leadLength, ← hlead, ← htargets]

theorem forall_mem_filterMap_match?_iff {P : Nat → Prop} :
    (∀ other ∈ entries.filterMap (match? path), P other.lead) ↔
      ∀ entry ∈ entries, ∀ before star after, Star.Matches entry.1 path before star after →
        P before.utf8ByteSize := by
  simp only [List.forall_mem_filterMap]
  constructor
  · intro h entry hentry before star after hmatches
    exact h entry hentry ⟨before.utf8ByteSize, star, entry.2⟩
      (match?_eq_some_iff.2 ⟨before, after, hmatches, rfl, rfl⟩)
  · intro h entry hentry other hother
    obtain ⟨before, after, hmatches, hlead, -⟩ := match?_eq_some_iff.1 hother
    rw [hlead]
    exact h entry hentry before other.star after hmatches

/-- The first of the longest matches is that of the entry that maps the path. -/
theorem exists_isFirstLongest_iff {star : String} {targets : List String} :
    (∃ lead, IsFirstLongest (entries.filterMap (match? path)) ⟨lead, star, targets⟩) ↔
      ∃ key, MapsBy entries path key star targets := by
  constructor
  · rintro ⟨lead, front, back, hsplit, hfront, hback⟩
    obtain ⟨before, ⟨key, targets'⟩, after, rfl, rfl, hmatch, rfl⟩ :=
      filterMap_eq_append_cons_iff.1 hsplit
    obtain ⟨lead, tail, hmatches, rfl, rfl⟩ := match?_eq_some_iff.1 hmatch
    exact ⟨key, before, after, lead, tail, rfl, hmatches,
      forall_mem_filterMap_match?_iff (P := (· < _)).1 hfront,
      forall_mem_filterMap_match?_iff (P := (· ≤ _)).1 hback⟩
  · rintro ⟨key, front, back, before, after, rfl, hmatches, hfront, hback⟩
    refine ⟨before.utf8ByteSize, _, _, filterMap_eq_append_cons_iff.2
      ⟨front, (key, targets), back, rfl, rfl, ?_, rfl⟩, ?_, ?_⟩
    · exact match?_eq_some_iff.2 ⟨before, after, hmatches, rfl, rfl⟩
    · exact forall_mem_filterMap_match?_iff (P := (· < _)).2 hfront
    · exact forall_mem_filterMap_match?_iff (P := (· ≤ _)).2 hback

variable {versions : TypesVersions} {targets places : List String}

/-- The first entry whose key is the path maps it as it stands. -/
theorem map?_of_key {front back : List (String × List String)}
    (h : versions.paths = front ++ (path, targets) :: back)
    (hfront : ∀ entry ∈ front, entry.1 ≠ path) : versions.map? path = some targets := by
  have hfind : versions.paths.find? (·.1 == path) = some (path, targets) := by
    rw [h, List.find?_append, List.find?_eq_none.2 fun entry hentry => by
      simpa using hfront entry hentry]
    simp
  simp only [map?, hfind]

theorem map?_of_notMem (h : ∀ entry ∈ versions.paths, entry.1 ≠ path) :
    versions.map? path = (best none (versions.paths.filterMap (match? path))).map fun m =>
      m.targets.map (Star.substitute · m.star) := by
  have hfind : versions.paths.find? (·.1 == path) = none :=
    List.find?_eq_none.2 fun entry hentry => by simpa using h entry hentry
  simp only [map?, hfind]

/-- Where no key is the path, the pattern that maps it gives the places. -/
theorem map?_eq_some_iff (h : ∀ entry ∈ versions.paths, entry.1 ≠ path) :
    versions.map? path = some places ↔
      ∃ key star targets, MapsBy versions.paths path key star targets ∧
        places = targets.map (Star.substitute · star) := by
  rw [map?_of_notMem h, Option.map_eq_some_iff]
  constructor
  · rintro ⟨⟨lead, star, targets⟩, hbest, rfl⟩
    obtain ⟨key, hmaps⟩ := exists_isFirstLongest_iff.1 ⟨lead, best_eq_some_iff.1 hbest⟩
    exact ⟨key, star, targets, hmaps, rfl⟩
  · rintro ⟨key, star, targets, hmaps, rfl⟩
    obtain ⟨lead, hfirst⟩ := exists_isFirstLongest_iff.2 ⟨key, hmaps⟩
    exact ⟨_, best_eq_some_iff.2 hfirst, rfl⟩

/-- A path is not mapped where it is no key and no key is a pattern for it. -/
theorem map?_eq_none_iff :
    versions.map? path = none ↔ ∀ entry ∈ versions.paths, entry.1 ≠ path ∧
      ∀ before star after, ¬ Star.Matches entry.1 path before star after := by
  by_cases hkey : ∀ entry ∈ versions.paths, entry.1 ≠ path
  · rw [map?_of_notMem hkey, Option.map_eq_none_iff, best_eq_none_iff, and_iff_right rfl]
    have hnone : (∀ m, m ∉ versions.paths.filterMap (match? path)) ↔ ∀ entry ∈ versions.paths,
        ∀ before star after, ¬ Star.Matches entry.1 path before star after :=
      forall_mem_filterMap_match?_iff (P := fun _ => False)
    rw [List.eq_nil_iff_forall_not_mem, hnone]
    exact ⟨fun h entry hentry => ⟨hkey entry hentry, h entry hentry⟩,
      fun h entry hentry => (h entry hentry).2⟩
  · have hmapped : versions.map? path ≠ none := by
      intro hnone
      simp only [map?] at hnone
      split at hnone
      · cases hnone
      · next hfind =>
          refine hkey fun entry hentry hsame => ?_
          exact absurd (List.find?_eq_none.1 hfind entry hentry) (by simp [hsame])
    exact iff_of_false hmapped fun h => hkey fun entry hentry => (h entry hentry).1

end TypesVersions

end TypingsAudit
