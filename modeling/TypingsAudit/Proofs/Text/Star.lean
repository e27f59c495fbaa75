import TypingsAudit.Text.Star

set_option autoImplicit false

/-! # Star patterns as three texts

`Star.Matches` says without a search what it is to match: the pattern and the subject are the same
texts around the first `*` and around what stands in its place. That is all there is to the search
(`Star.match?_eq_some_iff`), and the length of a lead in bytes is that of the text in front
(`Star.Matches.leadLength`). -/

namespace TypingsAudit

namespace Text

/-- The length in bytes is the size that the text has. -/
theorem utf8Length_toList (s : String) : utf8Length s.toList = s.utf8ByteSize := by
  have hlist : ∀ chars : List Char, utf8Length chars = (String.ofList chars).utf8ByteSize := by
    intro chars
    induction chars with
    | nil => rfl
    | cons c chars ih =>
        rw [String.ofList_cons, String.utf8ByteSize_append, String.utf8ByteSize_singleton, ← ih]
        rfl
  rw [hlist, String.ofList_toList]

end Text

namespace Star

variable {pattern subject before star after : String}

/-! ## Matches -/

/-- What stands around the first `*` of the pattern stands around `star` in the subject. -/
structure Matches (pattern subject before star after : String) : Prop where
  pattern_eq : pattern = before ++ "*" ++ after
  subject_eq : subject = before ++ star ++ after
  before_plain : '*' ∉ before.toList

theorem Matches.cutFirst_pattern (h : Matches pattern subject before star after) :
    Text.cutFirst '*' pattern.toList = some (before.toList, after.toList) := by
  have htext : pattern.toList = before.toList ++ '*' :: after.toList := by simp [h.pattern_eq]
  rw [htext, Text.cutFirst_append_cons h.before_plain]

/-- **The search finds what the first `*` stands for, if there is such a text.** -/
theorem match?_eq_some_iff :
    match? pattern subject = some star ↔ ∃ before after, Matches pattern subject before star after := by
  rw [match?, Option.map_eq_some_iff]
  constructor
  · rintro ⟨chars, hchars, rfl⟩
    obtain ⟨before, after, hcut, hsubject⟩ := matchChars?_eq_some_iff.1 hchars
    obtain ⟨hpattern, hplain⟩ := Text.cutFirst_eq_some hcut
    refine ⟨String.ofList before, String.ofList after, ?_, ?_, ?_⟩
    · exact String.toList_inj.1 (by simp [hpattern])
    · exact String.toList_inj.1 (by simp [hsubject])
    · simpa using hplain
  · rintro ⟨before, after, h⟩
    refine ⟨star.toList, matchChars?_eq_some_iff.2 ⟨_, _, h.cutFirst_pattern, ?_⟩, by simp⟩
    simp [h.subject_eq]

theorem Matches.leadLength (h : Matches pattern subject before star after) :
    Star.leadLength pattern = before.utf8ByteSize := by
  rw [Star.leadLength, h.cutFirst_pattern]
  exact Text.utf8Length_toList before

end Star

end TypingsAudit
