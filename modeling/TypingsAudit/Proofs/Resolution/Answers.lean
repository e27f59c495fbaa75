import TypingsAudit.Proofs.Path
import TypingsAudit.Resolution.Resolver

set_option autoImplicit false

/-! # Questions and answers

A resolver is asked about a subpath of the package or about a specifier. However it is asked, it
turns to one of two procedures or gives up at once: `Resolver.atSubpath` answers for a subpath,
`Resolver.atPath` for a path next to the importer. `Resolver.answer_rel` says so for two resolvers:
what relates the answers of both procedures relates the answers to every question.

The last part says of the ways to pick one of several answers when they come to a file. -/

namespace TypingsAudit

/-- What a resolver can be asked. -/
inductive Question where
  /-- Where a subpath (`"."` or `"./sub"`) leads the importers of the package. -/
  | entry (subpath : String)
  /-- Where a specifier leads that `importer` imports under the conditions `active`. -/
  | specifier (text : String) (importer : Option String) (active : ConditionSet)

namespace Question

/-- Whether the question names a path, to be read from where the importer lies. -/
def IsRelative : Question → Prop
  | .entry _ => False
  | .specifier text _ _ => Resolver.isRelative text = true

/-- The subpath of the package that the question is about, if it is about one. -/
def subpath? (r : Resolver) : Question → Option String
  | .entry subpath => some subpath
  | .specifier text _ _ => if Resolver.isRelative text then none else r.subpathOf? text

/-- The conditions under which the question is answered. -/
def active (r : Resolver) (kind : ResolutionKind) (mode : ResolutionMode) :
    Question → ConditionSet
  | .entry _ => r.conditions kind mode
  | .specifier _ _ active => active

/-- The same question under other conditions. A subpath always has the conditions of the
    algorithm. -/
def under (conditions : ConditionSet) : Question → Question
  | .entry subpath => .entry subpath
  | .specifier text importer _ => .specifier text importer conditions

@[simp]
theorem under_active (r : Resolver) (kind : ResolutionKind) (mode : ResolutionMode)
    (question : Question) : question.under (question.active r kind mode) = question := by
  cases question <;> rfl

end Question

namespace Resolver

/-- The answer to a question. -/
def answer (r : Resolver) (kind : ResolutionKind) (mode : ResolutionMode) :
    Question → Resolution
  | .entry subpath => r.enter kind subpath mode
  | .specifier text importer active => r.resolve kind text importer mode active

variable {r r' : Resolver} {kind kind' : ResolutionKind} {mode : ResolutionMode}
  {question : Question}

/-- A question about a subpath is answered for the subpath. -/
theorem answer_of_subpath? {subpath : String} (h : question.subpath? r = some subpath) :
    r.answer kind mode question
      = r.atSubpath kind subpath mode (question.active r kind mode) := by
  cases question with
  | entry s =>
      obtain rfl : s = subpath := Option.some.inj h
      rfl
  | specifier text importer active =>
      simp only [Question.subpath?] at h
      split at h
      · exact absurd h (by simp)
      · next hrelative =>
          simp only [answer, resolve, if_neg hrelative, h]
          rfl

/-- A relation between answers that holds at every normal path holds for every relative question,
    under any conditions. -/
theorem answer_rel_of_isRelative_of_isNormal {R : Resolution → Resolution → Prop}
    (hnone : ∀ reason, R (.notFound reason) (.notFound reason))
    (hpath : ∀ path, Path.IsNormal path → R (r.atPath kind path mode) (r'.atPath kind' path mode))
    (h : question.IsRelative) (conditions : ConditionSet) :
    R (r.answer kind mode question) (r'.answer kind' mode (question.under conditions)) := by
  cases question with
  | entry subpath => exact absurd h id
  | specifier text importer active =>
      simp only [answer, Question.under, resolve, if_pos (show isRelative text = true from h)]
      split
      · next path hjoin => exact hpath path (Path.isNormal_of_join? hjoin)
      · exact hnone _

theorem answer_rel_of_isRelative {R : Resolution → Resolution → Prop}
    (hnone : ∀ reason, R (.notFound reason) (.notFound reason))
    (hpath : ∀ path, R (r.atPath kind path mode) (r'.atPath kind' path mode))
    (h : question.IsRelative) (conditions : ConditionSet) :
    R (r.answer kind mode question) (r'.answer kind' mode (question.under conditions)) :=
  answer_rel_of_isRelative_of_isNormal hnone (fun path _ => hpath path) h conditions

/-- **A relation between answers that holds at every normal path and for every subpath holds for
    every question**, of resolvers for packages of one name. -/
theorem answer_rel_of_isNormal {R : Resolution → Resolution → Prop}
    (hname : r.manifest.name = r'.manifest.name)
    (hnone : ∀ reason, R (.notFound reason) (.notFound reason))
    (hpath : ∀ path, Path.IsNormal path → R (r.atPath kind path mode) (r'.atPath kind' path mode))
    (hsubpath : ∀ subpath, question.subpath? r = some subpath →
      R (r.atSubpath kind subpath mode (question.active r kind mode))
        (r'.atSubpath kind' subpath mode (question.active r' kind' mode))) :
    R (r.answer kind mode question) (r'.answer kind' mode question) := by
  cases question with
  | entry subpath => exact hsubpath subpath rfl
  | specifier text importer active =>
      by_cases hrelative : isRelative text = true
      · have hasked : (Question.specifier text importer active).IsRelative := hrelative
        exact answer_rel_of_isRelative_of_isNormal hnone hpath hasked active
      · have hsame : r'.subpathOf? text = r.subpathOf? text := by
          rw [subpathOf?, subpathOf?, hname]
        have hasked : (Question.specifier text importer active).subpath? r = r.subpathOf? text :=
          if_neg hrelative
        simp only [answer, resolve, if_neg hrelative, hsame]
        cases hsubpathOf : r.subpathOf? text with
        | none => exact hnone .packageNotFound
        | some subpath => exact hsubpath subpath (hasked.trans hsubpathOf)

theorem answer_rel {R : Resolution → Resolution → Prop}
    (hname : r.manifest.name = r'.manifest.name)
    (hnone : ∀ reason, R (.notFound reason) (.notFound reason))
    (hpath : ∀ path, R (r.atPath kind path mode) (r'.atPath kind' path mode))
    (hsubpath : ∀ subpath, question.subpath? r = some subpath →
      R (r.atSubpath kind subpath mode (question.active r kind mode))
        (r'.atSubpath kind' subpath mode (question.active r' kind' mode))) :
    R (r.answer kind mode question) (r'.answer kind' mode question) :=
  answer_rel_of_isNormal hname hnone (fun path _ => hpath path) hsubpath

/-! ## When an answer is a file -/

@[simp]
theorem isFound_found (path : String) (usedFallback : Bool) :
    (r.found path usedFallback).isFound = true :=
  rfl

@[simp]
theorem isFound_notFound (reason : NotFoundReason) :
    (Resolution.notFound reason).isFound = false :=
  rfl

@[simp]
theorem isFound_foundOr (reason : NotFoundReason) (outcome : Option String) :
    (r.foundOr reason outcome).isFound = outcome.isSome := by
  cases outcome <;> rfl

/-- Of several answers a file is picked when any of them is one. -/
theorem isFound_firstFound (answers : List Resolution) :
    (firstFound answers).isFound = answers.any Resolution.isFound := by
  induction answers with
  | nil => rfl
  | cons answer rest ih =>
      cases rest with
      | nil => simp [firstFound]
      | cons next rest =>
          rw [firstFound, List.any_cons]
          · split
            · next hfound => simp [hfound]
            · next hfound => simpa [hfound] using ih
          · simp

/-- Of several targets one is picked when any of them has declarations, -/
theorem isSome_firstDeclared (declaration : String → Option String) (targets : List String) :
    (r.firstDeclared declaration targets).isSome
      = targets.any fun target => (declaration target).isSome := by
  cases targets with
  | nil => rfl
  | cons first rest =>
      rw [firstDeclared, List.any_cons]
      cases hfirst : declaration first with
      | some path => rfl
      | none => simp [List.isSome_findSome?]

/-- and then the answer is a file. -/
theorem isFound_of_firstDeclared {declaration : String → Option String} {targets : List String}
    {answer : Resolution} (h : r.firstDeclared declaration targets = some answer) :
    answer.isFound = true := by
  cases targets with
  | nil => exact absurd h (by simp [firstDeclared])
  | cons first rest =>
      rw [firstDeclared] at h
      split at h
      · rw [← Option.some.inj h]
        rfl
      · obtain ⟨path, -, rfl⟩ := Option.map_eq_some_iff.1 h
        rfl

end Resolver

end TypingsAudit
