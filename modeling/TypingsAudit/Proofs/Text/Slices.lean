import TypingsAudit.Proofs.Text.Star

set_option autoImplicit false

/-! # Star patterns by slices

A text in UTF-8 is cut at byte offsets. It can be cut between two of them when they are in order and
each stands between two characters or at an end of the text (`Text.Sliceable`).

`Star.searchBytes` looks for the text of a star with nothing but sizes in bytes: it tests the size
of the subject and its two ends, and then cuts out what is left. A character may have several bytes,
and the two ends might overlap; still the tests are enough for the cut to be possible, and what is
cut out is the one text that fits (`Star.Fits.exists_slice`). -/

namespace TypingsAudit

/-! ## Slices -/

namespace Text

/-- A text can be cut between two byte offsets: they are in order, and neither is inside of a
    character or behind the end. -/
structure Sliceable (s : String) (start stop : Nat) : Prop where
  in_order : start ≤ stop
  start_valid : String.Pos.Raw.IsValid s ⟨start⟩
  stop_valid : String.Pos.Raw.IsValid s ⟨stop⟩

instance (s : String) (start stop : Nat) : Decidable (Sliceable s start stop) :=
  decidable_of_iff
    (start ≤ stop ∧ String.Pos.Raw.IsValid s ⟨start⟩ ∧ String.Pos.Raw.IsValid s ⟨stop⟩)
    ⟨fun ⟨hle, hstart, hstop⟩ => ⟨hle, hstart, hstop⟩, fun h => ⟨h.1, h.2, h.3⟩⟩

/-- What stands between two byte offsets. -/
def slice (s : String) (start stop : Nat) (h : Sliceable s start stop) : String :=
  s.extract ⟨⟨start⟩, h.start_valid⟩ ⟨⟨stop⟩, h.stop_valid⟩

/-- A text is cut where one of its parts ends and another one begins. -/
theorem sliceable_append (a t b : String) :
    Sliceable (a ++ t ++ b) a.utf8ByteSize (a ++ t).utf8ByteSize where
  in_order := by
    rw [String.utf8ByteSize_append]
    exact Nat.le_add_right _ _
  start_valid := String.Pos.Raw.isValid_iff_exists_append.2
    ⟨a, t ++ b, String.append_assoc, rfl⟩
  stop_valid := String.Pos.Raw.isValid_iff_exists_append.2 ⟨a ++ t, b, rfl, rfl⟩

theorem slice_append (a t b : String)
    (h : Sliceable (a ++ t ++ b) a.utf8ByteSize (a ++ t).utf8ByteSize) :
    slice (a ++ t ++ b) a.utf8ByteSize (a ++ t).utf8ByteSize h = t := by
  have hstart : String.Pos.Splits (s := a ++ t ++ b) ⟨⟨a.utf8ByteSize⟩, h.start_valid⟩ a (t ++ b) :=
    ⟨String.append_assoc, rfl⟩
  have hstop : String.Pos.Splits (s := a ++ t ++ b) ⟨⟨(a ++ t).utf8ByteSize⟩, h.stop_valid⟩
      (a ++ t) b := ⟨rfl, rfl⟩
  obtain ⟨hle, hcopy⟩ := String.copy_slice_eq_iff_splits.2 ⟨a, b, hstart, hstop⟩
  exact (String.extract_eq_copy_slice _ _ hle).trans hcopy

end Text

/-! ## The search -/

namespace Star

variable {pattern subject before after : String}

/-- What stands before and after the first `*` of a pattern. -/
structure Parts (pattern before after : String) : Prop where
  pattern_eq : pattern = before ++ "*" ++ after
  before_plain : '*' ∉ before.toList

/-- Any text may stand between the parts. -/
theorem Parts.matches (h : Parts pattern before after) (star : String) :
    Matches pattern (before ++ star ++ after) before star after :=
  ⟨h.pattern_eq, rfl, h.before_plain⟩

/-- A pattern with a star has parts, -/
theorem exists_parts (h : '*' ∈ pattern.toList) : ∃ before after, Parts pattern before after := by
  cases hcut : Text.cutFirst '*' pattern.toList with
  | none => exact absurd h (Text.cutFirst_eq_none_iff.1 hcut)
  | some parts =>
      obtain ⟨before, after⟩ := parts
      obtain ⟨hpattern, hplain⟩ := Text.cutFirst_eq_some hcut
      refine ⟨String.ofList before, String.ofList after, ?_, by simpa using hplain⟩
      exact String.toList_inj.1 (by simp [hpattern])

/-- and only one text before the star and one after it. -/
theorem Parts.unique {before' after' : String} (h : Parts pattern before after)
    (h' : Parts pattern before' after') : before = before' ∧ after = after' := by
  have hcut := (h.matches "").cutFirst_pattern.symm.trans (h'.matches "").cutFirst_pattern
  obtain ⟨hbefore, hafter⟩ := Prod.mk.inj (Option.some.inj hcut)
  exact ⟨String.toList_inj.1 hbefore, String.toList_inj.1 hafter⟩

theorem Parts.match?_eq_some_iff (h : Parts pattern before after) {star : String} :
    match? pattern subject = some star ↔ subject = before ++ star ++ after := by
  rw [Star.match?_eq_some_iff]
  constructor
  · rintro ⟨before', after', hmatch⟩
    obtain ⟨rfl, rfl⟩ := h.unique ⟨hmatch.pattern_eq, hmatch.before_plain⟩
    exact hmatch.subject_eq
  · rintro rfl
    exact ⟨before, after, h.matches star⟩

theorem match?_eq_none_of_plain (h : '*' ∉ pattern.toList) : match? pattern subject = none := by
  rw [match?, matchChars?, Text.cutFirst_eq_none_iff.2 h]
  rfl

/-- The tests of a search by sizes: the subject is large enough for both parts, it starts with the
    one and ends with the other. -/
structure Fits (before after subject : String) : Prop where
  size_le : before.utf8ByteSize + after.utf8ByteSize ≤ subject.utf8ByteSize
  front : Text.startsWith before subject = true
  tail : Text.endsWith after subject = true

instance (before after subject : String) : Decidable (Fits before after subject) :=
  decidable_of_iff
    (before.utf8ByteSize + after.utf8ByteSize ≤ subject.utf8ByteSize ∧
      Text.startsWith before subject = true ∧ Text.endsWith after subject = true)
    ⟨fun ⟨hsize, hfront, htail⟩ => ⟨hsize, hfront, htail⟩, fun h => ⟨h.1, h.2, h.3⟩⟩

/-- **The tests leave a text for the star.** A subject that is large enough has both parts without
    an overlap. -/
theorem fits_iff : Fits before after subject ↔ ∃ star, subject = before ++ star ++ after := by
  constructor
  · rintro ⟨hsize, hfront, htail⟩
    obtain ⟨rest, hrest⟩ := Text.startsWith_iff.1 hfront
    obtain ⟨stem, hstem⟩ := Text.endsWith_iff.1 htail
    have hlists : before.toList ++ rest.toList = stem.toList ++ after.toList := by
      rw [← String.toList_append, ← String.toList_append, ← hrest, hstem]
    rcases List.append_eq_append_iff.1 hlists with ⟨star, hbefore, -⟩ | ⟨overlap, hbefore, hrest'⟩
    · refine ⟨String.ofList star, ?_⟩
      rw [hstem]
      exact String.toList_inj.1 (by simp [hbefore])
    · -- What the parts share is counted twice, so there is nothing that they share.
      have hbefore' : before = stem ++ String.ofList overlap :=
        String.toList_inj.1 (by simpa using hbefore)
      have hafter' : after = String.ofList overlap ++ rest :=
        String.toList_inj.1 (by simpa using hrest')
      have hempty : String.ofList overlap = "" := by
        have hshort := hsize
        rw [hrest, hbefore', hafter'] at hshort
        simp only [String.utf8ByteSize_append] at hshort
        exact String.utf8ByteSize_eq_zero_iff.1 (by omega)
      refine ⟨"", ?_⟩
      rw [hrest, hafter', hempty, String.append_empty, String.empty_append]
  · rintro ⟨star, rfl⟩
    refine ⟨?_, ?_, ?_⟩
    · simp only [String.utf8ByteSize_append]
      omega
    · exact Text.startsWith_iff.2 ⟨star ++ after, String.append_assoc⟩
    · exact Text.endsWith_iff.2 ⟨before ++ star, rfl⟩

/-- **Where the tests are passed, the subject can be cut.** What is cut out is the text of the
    star. -/
theorem Fits.exists_slice (h : Fits before after subject) :
    ∃ hcut : Text.Sliceable subject before.utf8ByteSize
        (subject.utf8ByteSize - after.utf8ByteSize),
      subject = before ++ Text.slice subject _ _ hcut ++ after := by
  obtain ⟨star, rfl⟩ := fits_iff.1 h
  have hstop : (before ++ star ++ after).utf8ByteSize - after.utf8ByteSize
      = (before ++ star).utf8ByteSize := by
    rw [String.utf8ByteSize_append, Nat.add_sub_cancel]
  rw [hstop]
  refine ⟨Text.sliceable_append before star after, ?_⟩
  rw [Text.slice_append]

/-- A cut that a text does not have. -/
structure BadCut where
  text : String
  start : Nat
  stop : Nat
  deriving DecidableEq, Repr

/-- What the first `*` of a pattern stands for, looked for by sizes in bytes. The search breaks off
    when it would have to cut the subject where that is not possible. -/
def searchBytes (pattern subject : String) : Except BadCut (Option String) :=
  match Text.cutFirst '*' pattern.toList with
  | none => .ok none
  | some (front, tail) =>
    let before := String.ofList front
    let after := String.ofList tail
    if Fits before after subject then
      let start := before.utf8ByteSize
      let stop := subject.utf8ByteSize - after.utf8ByteSize
      if h : Text.Sliceable subject start stop then .ok (some (Text.slice subject start stop h))
      else .error ⟨subject, start, stop⟩
    else .ok none

/-- **The search by sizes never breaks off, and finds what the search by characters finds.** -/
theorem searchBytes_eq (pattern subject : String) :
    searchBytes pattern subject = .ok (match? pattern subject) := by
  unfold searchBytes
  split
  · next hcut => rw [match?_eq_none_of_plain (Text.cutFirst_eq_none_iff.1 hcut)]
  · next front tail hcut =>
      have hparts : Parts pattern (String.ofList front) (String.ofList tail) := by
        obtain ⟨hpattern, hplain⟩ := Text.cutFirst_eq_some hcut
        exact ⟨String.toList_inj.1 (by simp [hpattern]), by simpa using hplain⟩
      simp only
      split
      · next hfits =>
          obtain ⟨hslice, hsubject⟩ := hfits.exists_slice
          rw [dif_pos hslice, hparts.match?_eq_some_iff.2 hsubject]
      · next hfits =>
          have hnone : match? pattern subject = none := by
            refine Option.eq_none_iff_forall_ne_some.2 fun star hstar => hfits ?_
            exact fits_iff.2 ⟨star, hparts.match?_eq_some_iff.1 hstar⟩
          rw [hnone]

/-- **A star stands for the text between what is around it, and for nothing else.** A pattern
    without a star matches nothing. Of a pattern with a star, what stands before and after the first
    one is given, and the pattern matches the subjects that are these two with a text between them,
    which is the only one. The search by sizes finds it: behind its tests the offsets are in order
    and on boundaries of characters. A subject that is shorter than both parts together is not
    matched, even if it starts with the one and ends with the other. -/
theorem match?_exact (pattern subject : String) :
    ('*' ∉ pattern.toList → match? pattern subject = none) ∧
    ('*' ∈ pattern.toList → ∃ before after, Parts pattern before after) ∧
    (∀ before after, Parts pattern before after →
      (∀ star, match? pattern subject = some star ↔ subject = before ++ star ++ after) ∧
      (∀ star other, subject = before ++ star ++ after → subject = before ++ other ++ after →
        star = other) ∧
      (Fits before after subject →
        ∃ hcut : Text.Sliceable subject before.utf8ByteSize
            (subject.utf8ByteSize - after.utf8ByteSize),
          match? pattern subject = some (Text.slice subject _ _ hcut)) ∧
      (subject.utf8ByteSize < before.utf8ByteSize + after.utf8ByteSize →
        match? pattern subject = none)) ∧
    searchBytes pattern subject = .ok (match? pattern subject) := by
  refine ⟨match?_eq_none_of_plain, exists_parts, fun before after hparts => ?_,
    searchBytes_eq pattern subject⟩
  refine ⟨fun star => hparts.match?_eq_some_iff, fun star other hstar hother => ?_,
    fun hfits => ?_, fun hshort => ?_⟩
  · rw [hstar, String.append_left_inj, String.append_right_inj] at hother
    exact hother
  · obtain ⟨hcut, hsubject⟩ := hfits.exists_slice
    exact ⟨hcut, hparts.match?_eq_some_iff.2 hsubject⟩
  · refine Option.eq_none_iff_forall_ne_some.2 fun star hstar => ?_
    have hfits := fits_iff.2 ⟨star, hparts.match?_eq_some_iff.1 hstar⟩
    exact absurd hfits.size_le (Nat.not_le.2 hshort)

/-- Parts that would overlap, parts that meet, and characters of several bytes. -/
theorem overlapping_parts_do_not_match :
    (match? "ab*ba" "aba" = none ∧ Text.startsWith "ab" "aba" = true ∧
      Text.endsWith "ba" "aba" = true) ∧
    match? "ab*ba" "abba" = some "" ∧
    (match? "é*→" "é*é→" = some "*é" ∧ searchBytes "é*→" "é*é→" = .ok (some "*é")) ∧
    match? "aba" "aba" = none := by
  obtain ⟨-, -, hoverlap, -⟩ := match?_exact "ab*ba" "aba"
  obtain ⟨-, -, hmeet, -⟩ := match?_exact "ab*ba" "abba"
  obtain ⟨-, -, hlong, hsearch⟩ := match?_exact "é*→" "é*é→"
  obtain ⟨hplain, -⟩ := match?_exact "aba" "aba"
  have hparts : Parts "ab*ba" "ab" "ba" := ⟨by decide, by decide⟩
  have hfound : match? "é*→" "é*é→" = some "*é" :=
    ((hlong "é" "→" ⟨by decide, by decide⟩).1 "*é").2 (by decide)
  exact ⟨⟨(hoverlap "ab" "ba" hparts).2.2.2 (by decide), by decide, by decide⟩,
    ((hmeet "ab" "ba" hparts).1 "").2 (by decide), ⟨hfound, hsearch.trans (by rw [hfound])⟩,
    hplain (by decide)⟩

end Star

end TypingsAudit
