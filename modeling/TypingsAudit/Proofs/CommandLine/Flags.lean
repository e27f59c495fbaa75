import TypingsAudit.CommandLine.Run
import TypingsAudit.Proofs.Data

set_option autoImplicit false

/-! # Flags

Two flags say how a result is printed, and nothing else. Put in front of arguments that make sense
and do not have it yet, such a flag makes the same task but for the flag (`Flag.parse_cons`).

Arguments are read one after the other into a draft. `Flag.Passes` says of a step that it does the
same when the flag has been given before, unless it gives the flag itself. Steps that follow one
another pass a flag when each of them does (`Flag.Passes.bind`). -/

namespace TypingsAudit.CommandLine

/-- A flag that says how a result is printed. -/
inductive Flag where
  | raw
  | noSummary
  deriving DecidableEq, Repr

namespace Flag

/-- The flag as an argument. -/
def argument : Flag → String
  | .raw => "--raw"
  | .noSummary => "--no-summary"

/-- Whether a draft has the flag. -/
def isGiven : Flag → Draft → Bool
  | .raw, draft => draft.raw
  | .noSummary, draft => draft.noSummary

/-- The draft with the flag. -/
def give : Flag → Draft → Draft
  | .raw, draft => { draft with raw := true }
  | .noSummary, draft => { draft with noSummary := true }

/-- Whether a task has the flag. -/
def isSet : Flag → Invocation → Bool
  | .raw, task => task.raw
  | .noSummary, task => !task.summary

/-- The task with the flag. -/
def set : Flag → Invocation → Invocation
  | .raw, task => { task with raw := true }
  | .noSummary, task => { task with summary := false }

/-! ## Steps that a flag does not matter to -/

/-- A step that does not give the flag has not found it given before, and would do the same if it
    had. -/
def Passes (flag : Flag) (step : Draft → Except Interruption Draft) : Prop :=
  ∀ draft draft', step draft = .ok draft' → flag.isGiven draft' = false →
    flag.isGiven draft = false ∧ step (flag.give draft) = .ok (flag.give draft')

variable {flag : Flag} {first second step : Draft → Except Interruption Draft}

theorem Passes.bind (hfirst : flag.Passes first) (hsecond : flag.Passes second) :
    flag.Passes (fun draft => do second (← first draft)) := by
  intro draft draft' hread hnot
  obtain ⟨between, hbetween, hread⟩ := bind_eq_ok_iff.1 hread
  obtain ⟨hnotBetween, hlater⟩ := hsecond between draft' hread hnot
  obtain ⟨hnotBefore, hearlier⟩ := hfirst draft between hbetween hnotBetween
  exact ⟨hnotBefore, bind_eq_ok_iff.2 ⟨_, hearlier, hlater⟩⟩

/-- A step that never succeeds. -/
theorem passes_of_error (h : ∀ draft, ∃ interruption, step draft = .error interruption) :
    flag.Passes step := by
  intro draft draft' hread
  obtain ⟨interruption, herror⟩ := h draft
  rw [herror] at hread
  cases hread

theorem passes_ok (flag : Flag) : flag.Passes .ok := by
  rintro draft _ ⟨⟩ hnot
  exact ⟨hnot, rfl⟩

theorem passes_withRaw (flag : Flag) (text : String) : flag.Passes (·.withRaw text) := by
  intro draft draft' hread hnot
  simp only [Draft.withRaw] at hread ⊢
  split at hread
  · cases hread
  · next hraw =>
      obtain rfl := Except.ok.inj hread
      cases flag with
      | raw => cases hnot
      | noSummary => exact ⟨hnot, if_neg hraw⟩

theorem passes_withoutSummary (flag : Flag) (text : String) :
    flag.Passes (·.withoutSummary text) := by
  intro draft draft' hread hnot
  simp only [Draft.withoutSummary] at hread ⊢
  split at hread
  · cases hread
  · next hsummary =>
      obtain rfl := Except.ok.inj hread
      cases flag with
      | raw => exact ⟨hnot, if_neg hsummary⟩
      | noSummary => cases hnot

theorem passes_addKinds (flag : Flag) (list : String) : flag.Passes (·.addKinds list) := by
  intro draft draft' hread hnot
  simp only [Draft.addKinds] at hread ⊢
  split at hread
  · obtain rfl := Except.ok.inj hread
    cases flag <;> exact ⟨hnot, rfl⟩
  · cases hread

theorem passes_addCondition (flag : Flag) (condition : String) :
    flag.Passes fun draft => .ok (draft.addCondition condition) := by
  rintro draft _ ⟨⟩ hnot
  cases flag <;> exact ⟨hnot, rfl⟩

theorem passes_setPackage (flag : Flag) (path : String) : flag.Passes (·.setPackage path) := by
  intro draft draft' hread hnot
  have hpackage : (flag.give draft).package = draft.package := by cases flag <;> rfl
  simp only [Draft.setPackage, hpackage] at hread ⊢
  split at hread
  · cases hread
  · next hnone =>
      split at hread
      · cases hread
      · next hpath =>
          obtain rfl := Except.ok.inj hread
          rw [if_neg hnone, if_neg hpath]
          cases flag <;> exact ⟨hnot, rfl⟩

theorem passes_readLetters (flag : Flag) (letters : List Char) :
    flag.Passes (·.readLetters letters) := by
  induction letters with
  | nil => exact passes_ok flag
  | cons letter rest ih =>
      by_cases hh : letter = 'h'
      · subst hh
        exact passes_of_error fun draft => ⟨.help, by rw [Draft.readLetters]⟩
      · by_cases hr : letter = 'r'
        · subst hr
          simp only [Draft.readLetters]
          exact (passes_withRaw flag "-r").bind ih
        · have hunknown : ∀ draft : Draft, draft.readLetters (letter :: rest)
              = .error (.misuse (.unknownArgument (String.ofList ['-', letter]))) := by
            intro draft
            rw [Draft.readLetters]
            · exact hh
            · exact hr
          exact passes_of_error fun draft => ⟨_, hunknown draft⟩

theorem passes_readFlag (flag : Flag) (name : String) (value : Option String) :
    flag.Passes (·.readFlag name value) := by
  unfold Draft.readFlag
  split
  · cases value with
    | some value => exact passes_of_error fun _ => ⟨_, rfl⟩
    | none =>
        simp only
        split
        · exact passes_of_error fun _ => ⟨_, rfl⟩
        · split
          · exact passes_withRaw flag "--raw"
          · exact passes_withoutSummary flag "--no-summary"
  · exact passes_of_error fun _ => ⟨_, rfl⟩

/-- Whether there is an option of a name does not depend on the draft. -/
theorem readOption?_cases (flag : Flag) (name : String) :
    (∀ draft : Draft, draft.readOption? name = none) ∨
      ∃ read : Draft → String → Except Interruption Draft,
        (∀ draft, draft.readOption? name = some (read draft)) ∧
        ∀ value, flag.Passes (read · value) := by
  unfold Draft.readOption?
  split
  · exact .inr ⟨Draft.addKinds, fun _ => rfl, passes_addKinds flag⟩
  · split
    · exact .inr ⟨fun draft condition => .ok (draft.addCondition condition), fun _ => rfl,
        passes_addCondition flag⟩
    · exact .inl fun _ => rfl

/-! ## All arguments -/

theorem passes_readPlain (flag : Flag) (arguments : List String) :
    flag.Passes (readPlain · arguments) := by
  induction arguments with
  | nil => exact passes_ok flag
  | cons text rest ih =>
      simp only [readPlain]
      exact (passes_setPackage flag text).bind ih

theorem passes_readArguments (flag : Flag) (arguments : List String) :
    flag.Passes (readArguments · arguments) := by
  match arguments with
  | [] => exact passes_ok flag
  | text :: rest =>
      have hrest := passes_readArguments flag rest
      cases hshape : Argument.ofText text with
      | separator =>
          simp only [readArguments, hshape]
          exact passes_readPlain flag rest
      | plain path =>
          simp only [readArguments, hshape]
          exact (passes_setPackage flag path).bind hrest
      | short letters =>
          simp only [readArguments, hshape]
          exact (passes_readLetters flag letters).bind hrest
      | long name value =>
          rcases readOption?_cases flag name with hnone | ⟨read, hsome, hpasses⟩
          · simp only [readArguments, hshape, hnone]
            exact (passes_readFlag flag name value).bind hrest
          · cases value with
            | some value =>
                simp only [readArguments, hshape, hsome]
                exact (hpasses value).bind hrest
            | none =>
                -- The value of the option is the next argument.
                cases rest with
                | nil =>
                    simp only [readArguments, hshape, hsome]
                    exact passes_of_error fun _ => ⟨_, rfl⟩
                | cons next rest =>
                    cases hnext : Argument.ofText next with
                    | plain value =>
                        simp only [readArguments, hshape, hsome, hnext]
                        exact (hpasses value).bind (passes_readArguments flag rest)
                    | separator | short _ | long _ _ =>
                        simp only [readArguments, hshape, hsome, hnext]
                        exact passes_of_error fun _ => ⟨_, rfl⟩

theorem readArguments_cons (flag : Flag) (rest : List String) :
    readArguments .empty (flag.argument :: rest) = readArguments (flag.give .empty) rest := by
  cases flag <;> rfl

/-- What a draft has of a flag is what its task has. -/
theorem finish_give (flag : Flag) {draft : Draft} {task : Invocation} (h : draft.finish = .ok task) :
    flag.isGiven draft = flag.isSet task ∧ (flag.give draft).finish = .ok (flag.set task) := by
  unfold Draft.finish at h
  split at h
  · cases h
  · next package hpackage =>
      obtain rfl := Except.ok.inj h
      cases flag
      · exact ⟨rfl, by simp [give, Draft.finish, hpackage, set]⟩
      · exact ⟨by simp [isGiven, isSet], by simp [give, Draft.finish, hpackage, set]⟩

/-- **A flag in front of the other arguments sets the flag and changes nothing else.** -/
theorem parse_cons {arguments : List String} {task : Invocation} (h : parse arguments = .ok task)
    (hnot : flag.isSet task = false) :
    parse (flag.argument :: arguments) = .ok (flag.set task) := by
  obtain ⟨draft, hread, hfinish⟩ := bind_eq_ok_iff.1 h
  obtain ⟨hgiven, hset⟩ := finish_give flag hfinish
  obtain ⟨-, hlater⟩ := passes_readArguments flag arguments .empty draft hread (hgiven.trans hnot)
  exact bind_eq_ok_iff.2 ⟨_, (readArguments_cons flag arguments).trans hlater, hset⟩

end Flag

end TypingsAudit.CommandLine
