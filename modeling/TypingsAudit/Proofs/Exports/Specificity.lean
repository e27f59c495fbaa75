import Mathlib.Data.Prod.Lex
import TypingsAudit.Proofs.Data
import TypingsAudit.Proofs.Exports.Enumeration
import TypingsAudit.Proofs.Text.Star

set_option autoImplicit false

/-! # The most specific pattern

Several keys of a map of subpaths may be patterns for one subpath. `Exports.Covers` says without a
search which are, and `specificity` orders them: by what stands before the `*`, and then by the
whole key, both in bytes. Two patterns for one subpath that are equally specific are equal
(`Covers.key_eq_of_specificity_eq`), so there is one that is more specific than all others, and it
does not matter in which order the keys are written (`select?_most_specific`). -/

namespace TypingsAudit

namespace Exports

variable {entries : List (String × Exports)} {subpath key other : String}
  {before star after before' star' after' : String}

/-! ## Patterns for a subpath -/

/-- The key is the pattern `before*after`, with no `*` besides, and with `star` in its place the
    key is the subpath. -/
structure Covers (key subpath before star after : String) : Prop where
  key_eq : key = before ++ "*" ++ after
  subpath_eq : subpath = before ++ star ++ after
  before_plain : '*' ∉ before.toList
  after_plain : '*' ∉ after.toList
  star_ne : star ≠ ""

/-- The key and how much of it stands before the `*`, the latter being compared first. -/
def specificity (key : String) : Nat ×ₗ Nat :=
  toLex (Star.leadLength key, key.utf8ByteSize)

theorem moreSpecific_iff {a b : String} :
    moreSpecific a b = true ↔ specificity b < specificity a := by
  rw [specificity, specificity, Prod.Lex.toLex_lt_toLex, moreSpecific, Bool.or_eq_true,
    Bool.and_eq_true, decide_eq_true_iff, decide_eq_true_iff, beq_iff_eq]
  simp only [@eq_comm _ (Star.leadLength a)]

theorem Covers.toMatches (h : Covers key subpath before star after) :
    Star.Matches key subpath before star after :=
  ⟨h.key_eq, h.subpath_eq, h.before_plain⟩

theorem Covers.toList_key (h : Covers key subpath before star after) :
    key.toList = before.toList ++ '*' :: after.toList := by
  rw [h.key_eq]
  simp

theorem Covers.leadLength (h : Covers key subpath before star after) :
    Star.leadLength key = before.utf8ByteSize :=
  h.toMatches.leadLength

/-- What a pattern for a subpath is, found by matching. -/
theorem patternMatch?_iff_covers {entry : String × Exports} {s : Selection} :
    patternMatch? subpath entry = some s ↔
      ∃ before star after, Covers entry.1 subpath before star after ∧
        s = ⟨entry.1, entry.2, some star⟩ := by
  rw [patternMatch?_eq_some_iff]
  constructor
  · rintro ⟨hkey, star, hmatch, hne, rfl⟩
    obtain ⟨before, after, hmatches⟩ := Star.match?_eq_some_iff.1 hmatch
    have hafter : '*' ∉ after.toList := by
      have hcount : entry.1.toList.count '*' = 1 := by simpa [isPatternKey] using hkey
      have htext : entry.1.toList = before.toList ++ '*' :: after.toList := by
        simp [hmatches.pattern_eq]
      rw [htext, List.count_append, List.count_cons_self,
        List.count_eq_zero.2 hmatches.before_plain] at hcount
      exact List.count_eq_zero.1 (by omega)
    exact ⟨before, star, after, ⟨hmatches.pattern_eq, hmatches.subject_eq, hmatches.before_plain,
      hafter, hne⟩, rfl⟩
  · rintro ⟨before, star, after, hcovers, rfl⟩
    refine ⟨?_, star, Star.match?_eq_some_iff.2 ⟨before, after, hcovers.toMatches⟩, hcovers.star_ne,
      rfl⟩
    rw [isPatternKey, hcovers.toList_key, List.count_append, List.count_cons_self,
      List.count_eq_zero.2 hcovers.before_plain, List.count_eq_zero.2 hcovers.after_plain]
    rfl

/-- **No two patterns for one subpath are equally specific.** What stands before the `*` is the
    front of the subpath and what stands after it the end, so their sizes decide. -/
theorem Covers.key_eq_of_specificity_eq (h : Covers key subpath before star after)
    (h' : Covers other subpath before' star' after')
    (heq : specificity key = specificity other) : key = other := by
  have hlex : before.utf8ByteSize = before'.utf8ByteSize ∧
      key.utf8ByteSize = other.utf8ByteSize := by
    rw [specificity, specificity, h.leadLength, h'.leadLength] at heq
    exact Prod.mk.inj (toLex_inj.1 heq)
  obtain ⟨hlead, hkey⟩ := hlex
  have hsubpath : before ++ (star ++ after) = before' ++ (star' ++ after') := by
    rw [← String.append_assoc, ← String.append_assoc, ← h.subpath_eq, h'.subpath_eq]
  obtain ⟨rfl, hrest⟩ := Text.eq_of_append_eq hsubpath hlead
  have hafter : after.utf8ByteSize = after'.utf8ByteSize := by
    rw [h.key_eq, h'.key_eq] at hkey
    simp only [String.utf8ByteSize_append] at hkey
    omega
  have hstar : star.utf8ByteSize = star'.utf8ByteSize := by
    have hsizes := congrArg String.utf8ByteSize hrest
    simp only [String.utf8ByteSize_append] at hsizes
    omega
  obtain ⟨-, rfl⟩ := Text.eq_of_append_eq hrest hstar
  rw [h.key_eq, h'.key_eq]

/-- Of two patterns for a subpath the more specific one is longer in front of its `*`, or as long
    there and longer as a whole. -/
theorem Covers.specificity_lt_iff (h : Covers key subpath before star after)
    (h' : Covers other subpath before' star' after') :
    specificity other < specificity key ↔ before'.utf8ByteSize < before.utf8ByteSize ∨
      before'.utf8ByteSize = before.utf8ByteSize ∧ other.utf8ByteSize < key.utf8ByteSize := by
  rw [specificity, specificity, Prod.Lex.toLex_lt_toLex, h.leadLength, h'.leadLength]

/-! ## The running best -/

/-- Nothing that was compared is more specific than the best. -/
theorem specificity_le_of_best {found : Option Selection} {selections : List Selection}
    {s : Selection} (h : best found selections = some s) :
    ∀ t, found = some t ∨ t ∈ selections → specificity t.key ≤ specificity s.key := by
  induction selections generalizing found with
  | nil =>
      rw [best] at h
      intro t ht
      rcases ht with hfound | hmem
      · obtain rfl := Option.some.inj (hfound.symm.trans h)
        exact le_refl _
      · exact absurd hmem List.not_mem_nil
  | cons next rest ih =>
      intro t ht
      cases found with
      | none =>
          rw [best] at h
          rcases ht with hfound | hmem
          · exact absurd hfound (by simp)
          · exact ih h t ((List.mem_cons.1 hmem).imp_left fun heq => by rw [heq])
      | some b =>
          rw [best] at h
          -- Both that were compared are at most as specific as the one that was kept.
          have hkept : ∃ kept, specificity b.key ≤ specificity kept.key ∧
              specificity next.key ≤ specificity kept.key ∧ best (some kept) rest = some s := by
            by_cases hmore : moreSpecific next.key b.key = true
            · rw [if_pos hmore] at h
              exact ⟨next, (moreSpecific_iff.1 hmore).le, le_refl _, h⟩
            · rw [if_neg hmore] at h
              exact ⟨b, le_refl _, not_lt.1 fun hlt => hmore (moreSpecific_iff.2 hlt), h⟩
          obtain ⟨kept, hb, hnext, hbest⟩ := hkept
          have hle := ih hbest kept (Or.inl rfl)
          rcases ht with hfound | hmem
          · obtain rfl := Option.some.inj hfound
            exact hb.trans hle
          · rcases List.mem_cons.1 hmem with rfl | hmem
            · exact hnext.trans hle
            · exact ih hbest t (Or.inr hmem)

theorem best_eq_none_iff {found : Option Selection} {selections : List Selection} :
    best found selections = none ↔ found = none ∧ selections = [] := by
  induction selections generalizing found with
  | nil => simp [best]
  | cons next rest ih => cases found <;> simp [best, ih]

/-! ## Selections -/

/-- The entries whose keys are patterns for the subpath, as selections. -/
theorem mem_matches_iff {s : Selection} :
    s ∈ entries.filterMap (patternMatch? subpath) ↔
      (s.key, s.value) ∈ entries ∧
        ∃ before star after, Covers s.key subpath before star after ∧ s.star = some star := by
  rw [List.mem_filterMap]
  constructor
  · rintro ⟨entry, hmem, hmatch⟩
    obtain ⟨before, star, after, hcovers, rfl⟩ := patternMatch?_iff_covers.1 hmatch
    exact ⟨hmem, before, star, after, hcovers, rfl⟩
  · rintro ⟨hmem, before, star, after, hcovers, hstar⟩
    refine ⟨_, hmem, patternMatch?_iff_covers.2 ⟨before, star, after, hcovers, ?_⟩⟩
    rw [← hstar]

/-- One entry is a match in one way only. -/
theorem eq_of_mem_matches {s t : Selection} (hnodup : (entries.map (·.1)).Nodup)
    (hs : s ∈ entries.filterMap (patternMatch? subpath))
    (ht : t ∈ entries.filterMap (patternMatch? subpath)) (hkey : s.key = t.key) : s = t := by
  obtain ⟨a, ha, hsa⟩ := List.mem_filterMap.1 hs
  obtain ⟨b, hb, htb⟩ := List.mem_filterMap.1 ht
  obtain ⟨_, _, _, -, rfl⟩ := patternMatch?_iff_covers.1 hsa
  obtain ⟨_, _, _, -, rfl⟩ := patternMatch?_iff_covers.1 htb
  obtain rfl := List.inj_on_of_nodup_map hnodup ha hb hkey
  exact Option.some.inj (hsa.symm.trans htb)

theorem select?_of_notMem (h : subpath ∉ entries.map (·.1)) :
    (Exports.subpaths entries).select? subpath
      = best none (entries.filterMap (patternMatch? subpath)) := by
  have hfind : entries.find? (·.1 == subpath) = none := by
    refine List.find?_eq_none.2 fun entry hentry heq => h ?_
    rw [← beq_iff_eq.1 heq]
    exact List.mem_map_of_mem hentry
  simp only [select?, hfind]

/-- Where no key is the subpath, what is selected is the match that is more specific than every
    other one. -/
theorem select?_eq_some_iff_of_notMem (hnodup : (entries.map (·.1)).Nodup)
    (h : subpath ∉ entries.map (·.1)) {s : Selection} :
    (Exports.subpaths entries).select? subpath = some s ↔
      s ∈ entries.filterMap (patternMatch? subpath) ∧
        ∀ t ∈ entries.filterMap (patternMatch? subpath), t.key ≠ s.key →
          specificity t.key < specificity s.key := by
  rw [select?_of_notMem h]
  constructor
  · intro hbest
    have hmem := (mem_of_best hbest).resolve_left (by simp)
    refine ⟨hmem, fun t ht hne => ?_⟩
    obtain ⟨-, _, _, _, hcovers, -⟩ := mem_matches_iff.1 hmem
    obtain ⟨-, _, _, _, hcovers', -⟩ := mem_matches_iff.1 ht
    exact lt_of_le_of_ne (specificity_le_of_best hbest t (Or.inr ht))
      fun heq => hne (hcovers'.key_eq_of_specificity_eq hcovers heq)
  · rintro ⟨hmem, hmore⟩
    cases hbest : best none (entries.filterMap (patternMatch? subpath)) with
    | none =>
        rw [(best_eq_none_iff.1 hbest).2] at hmem
        exact absurd hmem List.not_mem_nil
    | some t =>
        have ht := (mem_of_best hbest).resolve_left (by simp)
        have hkey : t.key = s.key := by
          by_contra hne
          exact absurd (specificity_le_of_best hbest s (Or.inr hmem)) (not_le.2 (hmore t ht hne))
        rw [eq_of_mem_matches hnodup ht hmem hkey]

/-- Nothing is selected where there is neither the subpath as a key nor a pattern for it. -/
theorem select?_eq_none_iff (hnodup : (entries.map (·.1)).Nodup) :
    (Exports.subpaths entries).select? subpath = none ↔
      subpath ∉ entries.map (·.1) ∧ ∀ key ∈ entries.map (·.1),
        ¬ ∃ before star after, Covers key subpath before star after := by
  by_cases hmem : subpath ∈ entries.map (·.1)
  · obtain ⟨⟨key, value⟩, hentry, rfl⟩ := List.mem_map.1 hmem
    simp [select?_of_mem_subpaths hnodup hentry, hmem]
  · rw [select?_of_notMem hmem, best_eq_none_iff, List.filterMap_eq_nil_iff]
    constructor
    · rintro ⟨-, hnone⟩
      refine ⟨hmem, fun key hkey => ?_⟩
      rintro ⟨before, star, after, hcovers⟩
      obtain ⟨entry, hentry, rfl⟩ := List.mem_map.1 hkey
      have hmatch := patternMatch?_iff_covers.2 ⟨before, star, after, hcovers, rfl⟩
      exact absurd (hmatch.symm.trans (hnone entry hentry)) (by simp)
    · rintro ⟨-, hnone⟩
      refine ⟨rfl, fun entry hentry => Option.eq_none_iff_forall_ne_some.2 fun s hmatch => ?_⟩
      obtain ⟨before, star, after, hcovers, -⟩ := patternMatch?_iff_covers.1 hmatch
      exact hnone entry.1 (List.mem_map_of_mem hentry) ⟨before, star, after, hcovers⟩

/-- What is selected does not depend on the order of the entries. -/
theorem select?_perm {entries' : List (String × Exports)} (hnodup : (entries.map (·.1)).Nodup)
    (hperm : entries'.Perm entries) (subpath : String) :
    (Exports.subpaths entries').select? subpath = (Exports.subpaths entries).select? subpath := by
  have hkeys := hperm.map (·.1)
  have hnodup' : (entries'.map (·.1)).Nodup := hkeys.nodup_iff.2 hnodup
  by_cases hmem : subpath ∈ entries.map (·.1)
  · obtain ⟨⟨key, value⟩, hentry, rfl⟩ := List.mem_map.1 hmem
    rw [select?_of_mem_subpaths hnodup hentry,
      select?_of_mem_subpaths hnodup' (hperm.mem_iff.2 hentry)]
  · have hmem' : subpath ∉ entries'.map (·.1) := fun h => hmem (hkeys.mem_iff.1 h)
    have hmatches := hperm.filterMap (patternMatch? subpath)
    refine Option.ext fun s => ?_
    rw [select?_eq_some_iff_of_notMem hnodup' hmem', select?_eq_some_iff_of_notMem hnodup hmem]
    simp only [hmatches.mem_iff]

/-- **The entry for a subpath is the one with that key, or else the one with the most specific
    pattern.** That pattern is longer in front of its `*` than all others for the subpath, or as
    long there and longer as a whole, and no two of them tie. Nothing is selected just when there is
    neither such a key nor such a pattern. So the order of the entries does not matter to a
    lookup. -/
theorem select?_most_specific (entries : List (String × Exports))
    (hnodup : (entries.map (·.1)).Nodup) (subpath : String) :
    let exports := Exports.subpaths entries
    (∀ value, (subpath, value) ∈ entries →
      exports.select? subpath = some ⟨subpath, value, none⟩) ∧
    (subpath ∉ entries.map (·.1) → ∀ s, exports.select? subpath = some s ↔
      (s.key, s.value) ∈ entries ∧
        ∃ before star after, Covers s.key subpath before star after ∧ s.star = some star ∧
          ∀ other ∈ entries.map (·.1), other ≠ s.key →
            ∀ before' star' after', Covers other subpath before' star' after' →
              before'.utf8ByteSize < before.utf8ByteSize ∨
                before'.utf8ByteSize = before.utf8ByteSize ∧
                  other.utf8ByteSize < s.key.utf8ByteSize) ∧
    (∀ key before star after other before' star' after', key ≠ other →
      Covers key subpath before star after → Covers other subpath before' star' after' →
      ¬ (before.utf8ByteSize = before'.utf8ByteSize ∧ key.utf8ByteSize = other.utf8ByteSize)) ∧
    (exports.select? subpath = none ↔
      subpath ∉ entries.map (·.1) ∧ ∀ key ∈ entries.map (·.1),
        ¬ ∃ before star after, Covers key subpath before star after) ∧
    (∀ entries', entries'.Perm entries → ∀ active,
      (Exports.subpaths entries').lookup subpath active = exports.lookup subpath active) := by
  intro exports
  refine ⟨fun value hmem => select?_of_mem_subpaths hnodup hmem, fun hmem s => ?selected,
    ?untied, select?_eq_none_iff hnodup, ?order⟩
  case selected =>
    rw [select?_eq_some_iff_of_notMem hnodup hmem, mem_matches_iff]
    constructor
    · rintro ⟨⟨hentry, before, star, after, hcovers, hstar⟩, hmore⟩
      refine ⟨hentry, before, star, after, hcovers, hstar, fun other hother hne => ?_⟩
      intro before' star' after' hcovers'
      obtain ⟨⟨_, value⟩, hentry', rfl⟩ := List.mem_map.1 hother
      have hmatch : (⟨_, value, some star'⟩ : Selection) ∈
          entries.filterMap (patternMatch? subpath) :=
        mem_matches_iff.2 ⟨hentry', before', star', after', hcovers', rfl⟩
      exact (hcovers.specificity_lt_iff hcovers').1 (hmore _ hmatch hne)
    · rintro ⟨hentry, before, star, after, hcovers, hstar, hmore⟩
      refine ⟨⟨hentry, before, star, after, hcovers, hstar⟩, fun t ht hne => ?_⟩
      obtain ⟨hentry', before', star', after', hcovers', -⟩ := mem_matches_iff.1 ht
      exact (hcovers.specificity_lt_iff hcovers').2
        (hmore t.key (List.mem_map_of_mem hentry') hne before' star' after' hcovers')
  case untied =>
    rintro key before star after other before' star' after' hne hcovers hcovers' ⟨hlead, hsize⟩
    refine hne (hcovers.key_eq_of_specificity_eq hcovers' ?_)
    rw [specificity, specificity, hcovers.leadLength, hcovers'.leadLength, hlead, hsize]
  case order =>
    intro entries' hperm active
    simp only [lookup, exports, select?_perm hnodup hperm]

/-- Three patterns for one subpath, two of them equally long in front of the `*`. -/
theorem overlapping_patterns_most_specific :
    let entries : List (String × Exports) :=
      [("./features/*", .target "./features/*/index.js"), ("./*", .target "./lib/*.js"),
       ("./features/*.css", .target "./styles/*.css")]
    let subpath := "./features/x.css"
    let active := ConditionSet.ofNames []
    (entries.map (·.1)).Nodup ∧ subpath ∉ entries.map (·.1) ∧
    (Exports.subpaths entries).select? subpath
      = some ⟨"./features/*.css", .target "./styles/*.css", some "x"⟩ ∧
    entries.reverse.Perm entries ∧
    (Exports.subpaths entries.reverse).lookup subpath active
      = (Exports.subpaths entries).lookup subpath active := by
  intro entries subpath active
  have hnodup : (entries.map (·.1)).Nodup := by decide
  have hsubpath : subpath ∉ entries.map (·.1) := by decide
  have hperm : entries.reverse.Perm entries := List.reverse_perm entries
  have hcovers : Covers "./features/*.css" subpath "./features/" "x" ".css" :=
    ⟨by decide, by decide, by decide, by decide, by decide⟩
  obtain ⟨-, hselect, -, -, horder⟩ := select?_most_specific entries hnodup subpath
  refine ⟨hnodup, hsubpath, ?_, hperm, horder _ hperm active⟩
  refine (hselect hsubpath _).2 ⟨by simp [entries], _, _, _, hcovers, rfl, ?_⟩
  intro other hother hne before' star' after' hcovers'
  rw [← hcovers'.leadLength]
  have hothers : other = "./features/*" ∨ other = "./*" := by
    simpa [entries, hne] using hother
  rcases hothers with rfl | rfl
  · exact Or.inr ⟨by decide +kernel, by decide +kernel⟩
  · exact Or.inl (by decide +kernel)

end Exports

end TypingsAudit
