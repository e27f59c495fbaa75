import TypingsAudit.Text.Affix

set_option autoImplicit false

/-! # Star patterns

A pattern matches a text when the text starts with what stands before the pattern's first `*` and
ends with what stands after it, without the two overlapping. The text between them is what the star
stands for; it may be empty. A pattern without `*` matches nothing.

`Star.match?_eq_some_iff` says that the match is the one way to write the text as the three parts.
-/

namespace TypingsAudit.Star

/-- What the first `*` of `pattern` stands for in `subject`. -/
def matchChars? (pattern subject : List Char) : Option (List Char) :=
  match Text.cutFirst '*' pattern with
  | none => none
  | some (before, after) =>
    match Text.afterFront? before subject with
    | none => none
    | some rest => Text.beforeTail? after rest

/-- What the first `*` of `pattern` stands for in `subject`. -/
def match? (pattern subject : String) : Option String :=
  (matchChars? pattern.toList subject.toList).map String.ofList

/-- Every `*` of `target` replaced by `text`. -/
def substitute (target text : String) : String :=
  String.ofList (Text.replaceChar '*' text.toList target.toList)

/-- The length in bytes of what stands before the first `*`; zero without one. -/
def leadLength (pattern : String) : Nat :=
  match Text.cutFirst '*' pattern.toList with
  | some (before, _) => Text.utf8Length before
  | none => 0

theorem matchChars?_eq_some_iff {pattern subject star : List Char} :
    matchChars? pattern subject = some star ↔
      ∃ before after, Text.cutFirst '*' pattern = some (before, after) ∧
        subject = before ++ star ++ after := by
  unfold matchChars?
  cases h : Text.cutFirst '*' pattern with
  | none => simp
  | some p =>
    obtain ⟨before, after⟩ := p
    simp only [Option.some.injEq, Prod.mk.injEq]
    cases hp : Text.afterFront? before subject with
    | none =>
      simp only [reduceCtorEq, false_iff, not_exists, not_and]
      rintro a b ⟨rfl, rfl⟩ rfl
      rw [List.append_assoc] at hp
      rw [Text.afterFront?_eq_some_iff.2 rfl] at hp
      cases hp
    | some rest =>
      rw [Text.afterFront?_eq_some_iff] at hp
      subst hp
      simp only [Text.beforeTail?_eq_some_iff]
      constructor
      · rintro rfl
        exact ⟨before, after, ⟨rfl, rfl⟩, by simp⟩
      · rintro ⟨a, b, ⟨rfl, rfl⟩, h⟩
        simpa using h

end TypingsAudit.Star
