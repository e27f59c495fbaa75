import TypingsAudit.Proofs.Exports.Walk

set_option autoImplicit false

/-! # Lazy evaluation of `exports`

Node.js evaluates the entry for a subpath lazily: the first target or `null` that it comes to is
the answer, and what follows is not looked at. `Exports.evaluate` is that evaluation.
`Exports.walk` goes on behind the first target and collects the others too, and still the two tell
the same (`walk_shows_evaluate`), as long as every target that is reached is valid and no `null`
lies under an array. The two conditions are `Exports.Plain`; without them the walk passes over what
Node.js stops at. -/

namespace TypingsAudit

namespace Exports

/-- What a lazy evaluation comes to. -/
inductive Evaluation where
  | hit (target : String)
  | excluded
  /-- No condition is active, or there is nothing below the active ones. -/
  | nothing
  deriving DecidableEq, Repr

mutual

/-- The first target or `null` under a value that the active conditions lead to. -/
def evaluate (active : ConditionSet) (star : Option String) : Exports → Evaluation
  | .target path => .hit (instantiate star path)
  | .excluded => .excluded
  | .fallback items => evaluateItems active star items
  | .conditions entries => evaluateEntries active star entries
  | .subpaths _ => .nothing

/-- The first item that comes to something. -/
def evaluateItems (active : ConditionSet) (star : Option String) : List Exports → Evaluation
  | [] => .nothing
  | e :: es =>
    match evaluate active star e with
    | .nothing => evaluateItems active star es
    | answer => answer

/-- The first entry with an active condition that comes to something. -/
def evaluateEntries (active : ConditionSet) (star : Option String) :
    List (String × Exports) → Evaluation
  | [] => .nothing
  | (condition, e) :: es =>
    if active.isActive condition then
      match evaluate active star e with
      | .nothing => evaluateEntries active star es
      | answer => answer
    else evaluateEntries active star es

end

/-- The evaluation of the entry for a subpath, if there is one. -/
def evaluateSubpath (exports : Exports) (subpath : String) (active : ConditionSet) :
    Option Evaluation :=
  (exports.select? subpath).map fun s => evaluate active s.star s.value

variable {active : ConditionSet} {star : Option String}

/-- A value on whose active branches every target is valid and no exclusion lies under a fallback
    list. -/
structure Plain (active : ConditionSet) (star : Option String) (value : Exports) : Prop where
  valid : ∀ path, value.Reaches active (.target path) → isValidTarget (instantiate star path) = true
  noExclusion : ∀ items, value.Reaches active (.fallback items) →
    ¬ (Exports.fallback items).Reaches active .excluded

theorem plain_target {path : String} (h : isValidTarget (instantiate star path) = true) :
    Plain active star (.target path) :=
  ⟨fun _ hreach => by cases hreach with | here => exact h, nofun⟩

theorem plain_excluded : Plain active star .excluded :=
  ⟨nofun, nofun⟩

theorem plain_fallback_iff {items : List Exports} :
    Plain active star (.fallback items) ↔
      ∀ e ∈ items, Plain active star e ∧ ¬ e.Reaches active .excluded := by
  constructor
  · intro h e hmem
    exact ⟨⟨fun path hreach => h.valid path (.item hmem hreach),
      fun inner hreach => h.noExclusion inner (.item hmem hreach)⟩,
      fun hreach => h.noExclusion items (.here _) (.item hmem hreach)⟩
  · intro h
    refine ⟨fun path hreach => ?_, fun inner hreach hexcluded => ?_⟩
    · cases hreach with
      | item hmem hreach => exact (h _ hmem).1.valid path hreach
    · cases hreach with
      | here =>
          cases hexcluded with
          | item hmem hreach => exact (h _ hmem).2 hreach
      | item hmem hreach => exact (h _ hmem).1.noExclusion inner hreach hexcluded

theorem plain_conditions_iff {entries : List (String × Exports)} :
    Plain active star (.conditions entries) ↔
      ∀ condition e, (condition, e) ∈ entries → active.isActive condition = true →
        Plain active star e := by
  constructor
  · intro h condition e hmem hactive
    exact ⟨fun path hreach => h.valid path (.entry hmem hactive hreach),
      fun items hreach => h.noExclusion items (.entry hmem hactive hreach)⟩
  · intro h
    refine ⟨fun path hreach => ?_, fun items hreach => ?_⟩
    · cases hreach with
      | entry hmem hactive hreach => exact (h _ _ hmem hactive).valid path hreach
    · cases hreach with
      | entry hmem hactive hreach => exact (h _ _ hmem hactive).noExclusion items hreach

mutual

/-- An evaluation is only ever excluded by an exclusion. -/
theorem reaches_excluded_of_evaluate : ∀ (value : Exports),
    evaluate active star value = .excluded → value.Reaches active .excluded
  | .target _, h => absurd h (by simp [evaluate])
  | .excluded, _ => .here _
  | .fallback items, h => reaches_excluded_of_items items (by rwa [evaluate] at h)
  | .conditions entries, h => reaches_excluded_of_entries entries (by rwa [evaluate] at h)
  | .subpaths _, h => absurd h (by simp [evaluate])

theorem reaches_excluded_of_items : ∀ (items : List Exports),
    evaluateItems active star items = .excluded →
    (Exports.fallback items).Reaches active .excluded
  | [], h => absurd h (by simp [evaluateItems])
  | e :: es, h => by
      rw [evaluateItems] at h
      split at h
      · exact (reaches_excluded_of_items es h).fallback_cons.resolve_left (by simp)
      · exact .item (List.mem_cons_self ..) (reaches_excluded_of_evaluate e h)

theorem reaches_excluded_of_entries : ∀ (entries : List (String × Exports)),
    evaluateEntries active star entries = .excluded →
    (Exports.conditions entries).Reaches active .excluded
  | [], h => absurd h (by simp [evaluateEntries])
  | (condition, e) :: es, h => by
      rw [evaluateEntries] at h
      split at h
      · next hactive =>
          split at h
          · exact (reaches_excluded_of_entries es h).conditions_cons.resolve_left (by simp)
          · exact .entry (List.mem_cons_self ..) hactive (reaches_excluded_of_evaluate e h)
      · exact (reaches_excluded_of_entries es h).conditions_cons.resolve_left (by simp)

end

mutual

/-- A walk is only ever invalid by a target that is reached and is not valid. -/
theorem reaches_invalid_of_walk : ∀ (value : Exports), (walk active star value).sawInvalid = true →
    ∃ path, value.Reaches active (.target path) ∧ ¬ isValidTarget (instantiate star path) = true
  | .target path, h => by
      simp only [walk] at h
      split at h
      · exact absurd h (by simp [Walk.nothing])
      · next hinvalid => exact ⟨path, .here _, hinvalid⟩
  | .excluded, h => absurd h (by simp [walk, Walk.nothing])
  | .fallback items, h => reaches_invalid_of_items items (by rwa [walk] at h)
  | .conditions entries, h => reaches_invalid_of_entries entries (by rwa [walk] at h)
  | .subpaths _, h => absurd h (by simp [walk, Walk.nothing])

theorem reaches_invalid_of_items : ∀ (items : List Exports),
    (walkItems active star items).sawInvalid = true →
    ∃ path, (Exports.fallback items).Reaches active (.target path) ∧
      ¬ isValidTarget (instantiate star path) = true
  | [], h => absurd h (by simp [walkItems, Walk.nothing])
  | e :: es, h => by
      rw [walkItems, sawInvalid_append] at h
      rcases h with h | h
      · obtain ⟨path, hreach, hinvalid⟩ := reaches_invalid_of_walk e h
        exact ⟨path, .item (List.mem_cons_self ..) hreach, hinvalid⟩
      · obtain ⟨path, hreach, hinvalid⟩ := reaches_invalid_of_items es h
        exact ⟨path, hreach.fallback_cons.resolve_left (by simp), hinvalid⟩

theorem reaches_invalid_of_entries : ∀ (entries : List (String × Exports)),
    (walkEntries active star entries).sawInvalid = true →
    ∃ path, (Exports.conditions entries).Reaches active (.target path) ∧
      ¬ isValidTarget (instantiate star path) = true
  | [], h => absurd h (by simp [walkEntries, Walk.nothing])
  | (condition, e) :: es, h => by
      by_cases hactive : active.isActive condition = true
      · rw [walkEntries_cons_active hactive] at h
        have hor : (walk active star e).sawInvalid = true ∨
            (walkEntries active star es).sawInvalid = true := by
          split at h
          · exact Or.inl h
          · exact sawInvalid_append.1 h
        rcases hor with h | h
        · obtain ⟨path, hreach, hinvalid⟩ := reaches_invalid_of_walk e h
          exact ⟨path, .entry (List.mem_cons_self ..) hactive hreach, hinvalid⟩
        · obtain ⟨path, hreach, hinvalid⟩ := reaches_invalid_of_entries es h
          exact ⟨path, hreach.conditions_cons.resolve_left (by simp), hinvalid⟩
      · rw [walkEntries_cons_inactive hactive] at h
        obtain ⟨path, hreach, hinvalid⟩ := reaches_invalid_of_entries es h
        exact ⟨path, hreach.conditions_cons.resolve_left (by simp), hinvalid⟩

end

/-! ## The walk and the evaluation -/

/-- What a finished walk looks like when the evaluation comes to the given answer. -/
def Walk.Shows (w : Walk) : Evaluation → Prop
  | .hit t => w.candidates.head? = some t
  | .excluded => w.candidates = [] ∧ w.sawExcluded = true ∧ w.ended = true
  | .nothing => w = .nothing

theorem Walk.nothing_append (w : Walk) : Walk.nothing.append w = w := by
  simp [Walk.append, Walk.nothing]

/-- What follows the first candidate does not change it. -/
theorem Walk.Shows.append_hit {a : Walk} {t : String} (h : a.Shows (.hit t)) (b : Walk) :
    (a.append b).Shows (.hit t) := by
  simp only [Walk.Shows, Walk.append] at h ⊢
  rw [List.head?_append, h]
  rfl

mutual

/-- **The walk of a plain value shows what the evaluation comes to.** -/
theorem walk_shows_evaluate : ∀ (value : Exports), Plain active star value →
    (walk active star value).Shows (evaluate active star value)
  | .target path, h => by
      simp [walk, evaluate, h.valid path (.here _), Walk.Shows]
  | .excluded, _ => by simp [walk, evaluate, Walk.Shows, Walk.nothing]
  | .fallback items, h => by
      rw [walk, evaluate]
      exact walkItems_shows_evaluate items (plain_fallback_iff.1 h)
  | .conditions entries, h => by
      rw [walk, evaluate]
      exact walkEntries_shows_evaluate entries (plain_conditions_iff.1 h)
  | .subpaths _, _ => by simp [walk, evaluate, Walk.Shows]

theorem walkItems_shows_evaluate : ∀ (items : List Exports),
    (∀ e ∈ items, Plain active star e ∧ ¬ e.Reaches active .excluded) →
    (walkItems active star items).Shows (evaluateItems active star items)
  | [], _ => by simp [walkItems, evaluateItems, Walk.Shows]
  | e :: es, h => by
      obtain ⟨hplain, hfree⟩ := h e (List.mem_cons_self ..)
      have hfirst := walk_shows_evaluate e hplain
      have hrest := walkItems_shows_evaluate es (fun e' hmem => h e' (List.mem_cons_of_mem _ hmem))
      rw [walkItems, evaluateItems]
      cases hanswer : evaluate active star e with
      | hit t =>
          rw [hanswer] at hfirst
          exact hfirst.append_hit _
      | excluded => exact absurd (reaches_excluded_of_evaluate e hanswer) hfree
      | nothing =>
          rw [hanswer] at hfirst
          rw [show walk active star e = Walk.nothing from hfirst, Walk.nothing_append]
          exact hrest

theorem walkEntries_shows_evaluate : ∀ (entries : List (String × Exports)),
    (∀ condition e, (condition, e) ∈ entries → active.isActive condition = true →
      Plain active star e) →
    (walkEntries active star entries).Shows (evaluateEntries active star entries)
  | [], _ => by simp [walkEntries, evaluateEntries, Walk.Shows]
  | (condition, e) :: es, h => by
      have hrest := walkEntries_shows_evaluate es
        (fun c e' hmem => h c e' (List.mem_cons_of_mem _ hmem))
      by_cases hactive : active.isActive condition = true
      · have hfirst := walk_shows_evaluate e (h condition e (List.mem_cons_self ..) hactive)
        rw [walkEntries_cons_active hactive, evaluateEntries, if_pos hactive]
        cases hanswer : evaluate active star e with
        | hit t =>
            rw [hanswer] at hfirst
            split
            · exact hfirst
            · exact hfirst.append_hit _
        | excluded =>
            -- The exclusion ends the walk of this object, so no later entry adds anything.
            rw [hanswer] at hfirst
            rw [if_pos hfirst.2.2]
            exact hfirst
        | nothing =>
            rw [hanswer] at hfirst
            rw [show walk active star e = Walk.nothing from hfirst, Walk.nothing_append]
            exact hrest
      · rw [walkEntries_cons_inactive hactive, evaluateEntries, if_neg hactive]
        exact hrest

end

/-- The outcome that tells what an evaluation comes to. -/
def Lookup.Tells (outcome : Lookup) : Evaluation → Prop
  | .hit t => ∃ rest, outcome = .candidates (t :: rest)
  | .excluded => outcome = .notExported
  | .nothing => outcome = .noActiveCondition

theorem outcome_tells_evaluate {value : Exports} (h : Plain active star value) :
    (walk active star value).outcome.Tells (evaluate active star value) := by
  have hshows := walk_shows_evaluate value h
  have hvalid : (walk active star value).sawInvalid = false := by
    rw [← Bool.not_eq_true]
    intro hinvalid
    obtain ⟨path, hreach, hinvalid⟩ := reaches_invalid_of_walk value hinvalid
    exact hinvalid (h.valid path hreach)
  cases hanswer : evaluate active star value with
  | hit t =>
      rw [hanswer] at hshows
      obtain ⟨rest, hrest⟩ := List.head?_eq_some_iff.1 hshows
      exact ⟨rest, outcome_eq_candidates_iff.2 ⟨hrest, by simp⟩⟩
  | excluded =>
      rw [hanswer] at hshows
      simp [Lookup.Tells, Walk.outcome, hshows.1, hshows.2.1, hvalid]
  | nothing =>
      rw [hanswer] at hshows
      rw [show walk active star value = Walk.nothing from hshows]
      simp [Lookup.Tells, Walk.outcome, Walk.nothing]

/-- **A lookup tells what the lazy evaluation of the entry for the subpath comes to.** Its first
    candidate is the target that the evaluation hits, and where it has no candidates its reason is
    the one of the evaluation. -/
theorem lookup_agrees_with_evaluate (exports : Exports) (subpath : String) (active : ConditionSet)
    (h : ∀ s, exports.select? subpath = some s → Plain active s.star s.value) :
    (∀ t, (∃ rest, exports.lookup subpath active = .candidates (t :: rest)) ↔
      exports.evaluateSubpath subpath active = some (.hit t)) ∧
    (exports.lookup subpath active = .notExported ↔
      exports.select? subpath = none ∨ exports.evaluateSubpath subpath active = some .excluded) ∧
    (exports.lookup subpath active = .noActiveCondition ↔
      exports.evaluateSubpath subpath active = some .nothing) := by
  unfold lookup evaluateSubpath
  cases hselect : exports.select? subpath with
  | none => simp
  | some s =>
      have htells := outcome_tells_evaluate (h s hselect)
      simp only [Option.map_some, Option.some.injEq, reduceCtorEq, false_or]
      cases hanswer : evaluate active s.star s.value with
      | hit t =>
          rw [hanswer] at htells
          obtain ⟨rest, hrest⟩ := htells
          simp [hrest]
      | excluded =>
          rw [hanswer] at htells
          simp [show (walk active s.star s.value).outcome = .notExported from htells]
      | nothing =>
          rw [hanswer] at htells
          simp [show (walk active s.star s.value).outcome = .noActiveCondition from htells]

/-- A pattern whose walk goes on behind the first target, through an array and up to a `null`. -/
theorem lookup_pattern_agrees :
    let exports := subpaths [("./*", .conditions
      [("import", .fallback [.target "./lib/*.mjs", .target "./lib/*.js"]), ("node", .excluded)])]
    let active := ConditionSet.ofNames ["import", "node"]
    exports.lookup "./a" active = .candidates ["./lib/a.mjs", "./lib/a.js"] ∧
      exports.evaluateSubpath "./a" active = some (.hit "./lib/a.mjs") := by
  intro exports active
  have hlookup : exports.lookup "./a" active = .candidates ["./lib/a.mjs", "./lib/a.js"] := by
    decide +kernel
  refine ⟨hlookup, ((lookup_agrees_with_evaluate _ _ _ fun s hs => ?_).1 _).1 ⟨_, hlookup⟩⟩
  obtain rfl := Option.some.inj hs
  refine plain_conditions_iff.2 fun condition e hmem _ => ?_
  simp only [List.mem_cons, Prod.mk.injEq, List.not_mem_nil, or_false] at hmem
  rcases hmem with ⟨rfl, rfl⟩ | ⟨rfl, rfl⟩
  · refine plain_fallback_iff.2 fun e hmem => ?_
    simp only [List.mem_cons, List.not_mem_nil, or_false] at hmem
    rcases hmem with rfl | rfl
    · exact ⟨plain_target (by decide), nofun⟩
    · exact ⟨plain_target (by decide), nofun⟩
  · exact plain_excluded

end Exports

end TypingsAudit
