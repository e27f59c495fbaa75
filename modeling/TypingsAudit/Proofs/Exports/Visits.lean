import Mathlib.Data.List.Forall2
import Mathlib.Logic.Relation
import TypingsAudit.Proofs.Exports.Leaves
import TypingsAudit.Proofs.Exports.Walk

set_option autoImplicit false

/-! # The leaves that a walk visits

A walk visits the leaves that are active, less those that an active exclusion cuts off
(`walk_eq_through`), and the outcome of a lookup can be read off them
(`walk_visits_uncut_leaves`).

Entries whose conditions are not active have no active leaves. A field without them leads to the
same (`lookup_of_prunes`). -/

namespace TypingsAudit

namespace Exports

variable {active : ConditionSet} {star : Option String}

/-! ## The walk -/

/-- The walk that comes to the leaves and visits those that are not cut off. -/
def Walk.through (star : Option String) (leaves : List Leaf) : Walk :=
  { candidates := (uncut leaves).filterMap (·.validTarget? star)
    sawInvalid := (uncut leaves).any (·.isInvalid star)
    sawExcluded := (uncut leaves).any (·.isExclusion)
    ended := leaves.any Leaf.endsAll }

/-- A walk goes on behind a step unless it has ended below that step, in an object. -/
theorem Walk.through_map_under_append {step : Step} {first rest : List Leaf}
    (hbehind : ∀ leaf ∈ rest, Behind step leaf) :
    Walk.through star (first.map (Leaf.under step) ++ rest)
      = if step.isEntry && (Walk.through star first).ended then Walk.through star first
        else (Walk.through star first).append (Walk.through star rest) := by
  have hended : (Walk.through star first).ended = first.any Leaf.endsAll := rfl
  have hunder : (first.map (Leaf.under step)).any Leaf.endsAll
      = (step.isEntry && first.any Leaf.endsAll) := by
    cases hstep : step.isEntry <;> simp [List.any_map, Function.comp_def, hstep]
  rw [hended, Walk.through, List.any_append, hunder, uncut_map_under_append hbehind]
  cases hends : step.isEntry && first.any Leaf.endsAll with
  | true =>
      have hfirst : first.any Leaf.endsAll = true := (Bool.and_eq_true_iff.1 hends).2
      simp [Walk.through, List.filterMap_map, List.any_map, Function.comp_def, hfirst]
  | false =>
      simp [Walk.through, Walk.append, List.filterMap_map, List.any_map, Function.comp_def]

/-- Of the leaves below a step all are active that were, or none. -/
theorem filter_isActive_map_under (step : Step) (leaves : List Leaf) :
    (leaves.map (Leaf.under step)).filter (·.isActive active)
      = if step.isActive active then (leaves.filter (·.isActive active)).map (Leaf.under step)
        else [] := by
  rw [List.filter_map]
  split
  · next hstep => simp [Function.comp_def, hstep]
  · next hstep => simp [Function.comp_def, hstep]

mutual

/-- **A walk comes to the active leaves, and visits those that are not cut off.** -/
theorem walk_eq_through : ∀ (value : Exports),
    walk active star value = Walk.through star (activeLeaves active value)
  | .target path => by
      have huncut : uncut [⟨[], some path⟩] = [⟨[], some path⟩] := by
        simp [uncut, IsCut, Leaf.isExclusion]
      have hactive : activeLeaves active (.target path) = [⟨[], some path⟩] := rfl
      rw [hactive, Walk.through, huncut, walk]
      by_cases hvalid : isValidTarget (instantiate star path) = true
      · simp [hvalid, Walk.nothing, Option.filter, Leaf.validTarget?, Leaf.isInvalid,
          Leaf.isExclusion, Leaf.endsAll]
      · simp [hvalid, Walk.nothing, Leaf.validTarget?, Leaf.isInvalid, Leaf.isExclusion,
          Leaf.endsAll]
  | .excluded => by
      have huncut : uncut [⟨[], none⟩] = [⟨[], none⟩] := by
        simp [uncut, IsCut, Cuts, not_part_nil_left]
      have hactive : activeLeaves active .excluded = [⟨[], none⟩] := rfl
      rw [hactive, Walk.through, huncut]
      rfl
  | .fallback items => by
      rw [walk, activeLeaves, leaves]
      exact walkItems_eq_through items 0
  | .conditions entries => by
      rw [walk, activeLeaves, leaves]
      exact walkEntries_eq_through entries 0
  | .subpaths _ => by simp [walk, activeLeaves, leaves, uncut, Walk.through, Walk.nothing]

theorem walkItems_eq_through : ∀ (items : List Exports) (index : Nat),
    walkItems active star items
      = Walk.through star ((leavesOfItems index items).filter (·.isActive active))
  | [], _ => by simp [walkItems, leavesOfItems, uncut, Walk.through, Walk.nothing]
  | e :: es, index => by
      have hbehind : ∀ leaf ∈ (leavesOfItems (index + 1) es).filter (·.isActive active),
          Behind (.item index) leaf := fun leaf hleaf =>
        behind_of_mem_leavesOfItems (List.mem_of_mem_filter hleaf)
      have hactive : (Step.item index).isActive active = true := rfl
      rw [leavesOfItems, List.filter_append, filter_isActive_map_under, if_pos hactive,
        Walk.through_map_under_append hbehind, walkItems, walk_eq_through e,
        walkItems_eq_through es (index + 1)]
      rfl

theorem walkEntries_eq_through : ∀ (entries : List (String × Exports)) (index : Nat),
    walkEntries active star entries
      = Walk.through star ((leavesOfEntries index entries).filter (·.isActive active))
  | [], _ => by simp [walkEntries, leavesOfEntries, uncut, Walk.through, Walk.nothing]
  | (condition, e) :: es, index => by
      have hbehind : ∀ leaf ∈ (leavesOfEntries (index + 1) es).filter (·.isActive active),
          Behind (.entry index condition) leaf := fun leaf hleaf =>
        behind_of_mem_leavesOfEntries (List.mem_of_mem_filter hleaf) condition
      have hstep : (Step.entry index condition).isActive active = active.isActive condition := rfl
      rw [leavesOfEntries, List.filter_append, filter_isActive_map_under, hstep]
      by_cases hactive : active.isActive condition = true
      · rw [if_pos hactive, Walk.through_map_under_append hbehind,
          walkEntries_cons_active hactive, walk_eq_through e, walkEntries_eq_through es (index + 1)]
        rfl
      · rw [if_neg hactive, walkEntries_cons_inactive hactive, List.nil_append,
          walkEntries_eq_through es (index + 1)]

end

/-! ## Outcomes -/

/-- The leaves that a walk of the value visits. -/
def visitedLeaves (active : ConditionSet) (value : Exports) : List Leaf :=
  uncut (activeLeaves active value)

theorem walk_eq_visited (active : ConditionSet) (star : Option String) (value : Exports) :
    (walk active star value).candidates
        = (visitedLeaves active value).filterMap (·.validTarget? star) ∧
      (walk active star value).sawInvalid
        = (visitedLeaves active value).any (·.isInvalid star) ∧
      (walk active star value).sawExcluded
        = (visitedLeaves active value).any (·.isExclusion) := by
  rw [walk_eq_through]
  exact ⟨rfl, rfl, rfl⟩

/-- Where there are active leaves, some are visited. -/
theorem visitedLeaves_eq_nil_iff {value : Exports} :
    visitedLeaves active value = [] ↔ activeLeaves active value = [] := by
  constructor
  · intro h
    have hsorted := (pairwise_leaves value).filter (·.isActive active)
    exact Decidable.not_not.1 fun hne => uncut_ne_nil hne hsorted h
  · intro h
    rw [visitedLeaves, h]
    rfl

/-- A leaf that is neither a valid target nor an invalid one is an exclusion. -/
theorem Leaf.isExclusion_of_no_target {leaf : Leaf} (hvalid : leaf.validTarget? star = none)
    (hinvalid : leaf.isInvalid star = false) : leaf.isExclusion = true := by
  obtain ⟨address, t⟩ := leaf
  cases t with
  | none => rfl
  | some path =>
      simp only [Leaf.isInvalid, Option.any_some, Bool.not_eq_false'] at hinvalid
      simp [Leaf.validTarget?, Option.filter, hinvalid] at hvalid

theorem Walk.outcome_of_no_candidates {w : Walk} (h : w.candidates = []) :
    w.outcome = if w.sawInvalid then .invalidTarget
      else if w.sawExcluded then .notExported else .noActiveCondition := by
  rw [Walk.outcome, if_neg (fun hne => hne h)]

/-- Where no target is valid, the first thing that can be said of the visited leaves is said. -/
theorem outcome_of_no_target {value : Exports}
    (h : (visitedLeaves active value).filterMap (·.validTarget? star) = []) :
    (walk active star value).outcome =
      if (visitedLeaves active value).any (·.isInvalid star) then .invalidTarget
      else if (visitedLeaves active value).any (·.isExclusion) then .notExported
      else .noActiveCondition := by
  obtain ⟨hcandidates, hinvalid, hexcluded⟩ := walk_eq_visited active star value
  rw [Walk.outcome_of_no_candidates (hcandidates.trans h), hinvalid, hexcluded]

/-- Where there is no target, an active exclusion is also one that is visited. -/
theorem any_isExclusion_visitedLeaves {value : Exports}
    (hvalid : (visitedLeaves active value).filterMap (·.validTarget? star) = [])
    (hinvalid : (visitedLeaves active value).any (·.isInvalid star) = false) :
    (visitedLeaves active value).any (·.isExclusion) = !(activeLeaves active value).isEmpty := by
  cases hvisited : visitedLeaves active value with
  | nil => simp [visitedLeaves_eq_nil_iff.1 hvisited]
  | cons leaf rest =>
      have hmem : leaf ∈ visitedLeaves active value := by
        rw [hvisited]
        exact List.mem_cons_self ..
      have hexclusion : leaf.isExclusion = true :=
        Leaf.isExclusion_of_no_target (List.filterMap_eq_nil_iff.1 hvalid leaf hmem)
          (by simpa using List.any_eq_false.1 hinvalid leaf hmem)
      have hactive : activeLeaves active value ≠ [] := fun hnil => by
        rw [visitedLeaves_eq_nil_iff.2 hnil] at hmem
        exact absurd hmem (by simp)
      simp [hexclusion, hactive]

theorem outcome_eq_noActiveCondition_iff {value : Exports} :
    (walk active star value).outcome = .noActiveCondition ↔ activeLeaves active value = [] := by
  by_cases hvalid : (visitedLeaves active value).filterMap (·.validTarget? star) = []
  · rw [outcome_of_no_target hvalid]
    cases hinvalid : (visitedLeaves active value).any (·.isInvalid star) with
    | true =>
        obtain ⟨leaf, hleaf, -⟩ := List.any_eq_true.1 hinvalid
        have hactive : activeLeaves active value ≠ [] :=
          List.ne_nil_of_mem (List.mem_of_mem_filter hleaf)
        simp [hactive]
    | false =>
        rw [any_isExclusion_visitedLeaves hvalid hinvalid]
        cases hactive : activeLeaves active value <;> simp
  · have hactive : activeLeaves active value ≠ [] := fun hnil => by
      rw [visitedLeaves_eq_nil_iff.2 hnil] at hvalid
      exact hvalid rfl
    have hcandidates := outcome_eq_candidates_iff.2 ⟨(walk_eq_visited active star value).1, hvalid⟩
    simp [hcandidates, hactive]

/-! ## Entries that are not active -/

/-- The field without one of its entries, somewhere in it, whose condition is not active. -/
inductive Prunes (active : ConditionSet) : Exports → Exports → Prop where
  | drop (front back : List (String × Exports)) {condition : String} (e : Exports)
      (h : active.isActive condition = false) :
      Prunes active (.conditions (front ++ (condition, e) :: back)) (.conditions (front ++ back))
  | entry (front back : List (String × Exports)) (condition : String) {e e' : Exports}
      (h : Prunes active e e') :
      Prunes active (.conditions (front ++ (condition, e) :: back))
        (.conditions (front ++ (condition, e') :: back))
  | item (front back : List Exports) {e e' : Exports} (h : Prunes active e e') :
      Prunes active (.fallback (front ++ e :: back)) (.fallback (front ++ e' :: back))
  | subpath (front back : List (String × Exports)) (key : String) {e e' : Exports}
      (h : Prunes active e e') :
      Prunes active (.subpaths (front ++ (key, e) :: back)) (.subpaths (front ++ (key, e') :: back))

theorem walkItems_append_congr {es es' : List Exports}
    (h : walkItems active star es' = walkItems active star es) (front : List Exports) :
    walkItems active star (front ++ es') = walkItems active star (front ++ es) := by
  induction front with
  | nil => exact h
  | cons e front ih => rw [List.cons_append, List.cons_append, walkItems, walkItems, ih]

theorem walkEntries_append_congr {es es' : List (String × Exports)}
    (h : walkEntries active star es' = walkEntries active star es)
    (front : List (String × Exports)) :
    walkEntries active star (front ++ es') = walkEntries active star (front ++ es) := by
  induction front with
  | nil => exact h
  | cons entry front ih =>
      rw [List.cons_append, List.cons_append, walkEntries, walkEntries, ih]

/-- A walk passes over what is pruned. -/
theorem walk_of_prunes {e e' : Exports} (h : Prunes active e e') (star : Option String) :
    walk active star e' = walk active star e := by
  induction h with
  | drop front back e h =>
      rw [walk, walk]
      refine walkEntries_append_congr ?_ front
      rw [walkEntries_cons_inactive (by simp [h])]
  | entry front back condition h ih =>
      rw [walk, walk]
      refine walkEntries_append_congr ?_ front
      rw [walkEntries, walkEntries, ih]
  | item front back h ih =>
      rw [walk, walk]
      refine walkItems_append_congr ?_ front
      rw [walkItems, walkItems, ih]
  | subpath front back key h ih => rw [walk, walk]

/-- The two entries have one key and lead a walk to the same. -/
def LeadAlike (active : ConditionSet) (entry entry' : String × Exports) : Prop :=
  entry.1 = entry'.1 ∧ ∀ star, walk active star entry.2 = walk active star entry'.2

/-- The two selections were made alike and lead a walk to the same. -/
structure Selection.Alike (active : ConditionSet) (s s' : Selection) : Prop where
  key : s.key = s'.key
  star : s.star = s'.star
  walk : ∀ star, walk active star s.value = walk active star s'.value

theorem rel_find? {entries entries' : List (String × Exports)}
    (h : List.Forall₂ (LeadAlike active) entries entries') (subpath : String) :
    Option.Rel (LeadAlike active) (entries.find? (·.1 == subpath))
      (entries'.find? (·.1 == subpath)) := by
  induction h with
  | nil => exact .none
  | @cons entry entry' _ _ hfirst _ ih =>
      rw [List.find?_cons, List.find?_cons, ← hfirst.1]
      cases entry.1 == subpath with
      | true => exact .some hfirst
      | false => exact ih

theorem rel_patternMatch? {entry entry' : String × Exports} (h : LeadAlike active entry entry')
    (subpath : String) :
    Option.Rel (Selection.Alike active) (patternMatch? subpath entry)
      (patternMatch? subpath entry') := by
  unfold patternMatch?
  rw [← h.1]
  split
  · split
    · split
      · exact .none
      · exact .some ⟨rfl, rfl, h.2⟩
    · exact .none
  · exact .none

theorem rel_best {found found' : Option Selection} {selections selections' : List Selection}
    (hfound : Option.Rel (Selection.Alike active) found found')
    (h : List.Forall₂ (Selection.Alike active) selections selections') :
    Option.Rel (Selection.Alike active) (best found selections) (best found' selections') := by
  induction h generalizing found found' with
  | nil => simpa only [best] using hfound
  | cons hnext _ ih =>
      cases hfound with
      | none => exact ih (.some hnext)
      | some hbest =>
          rw [best, best, hnext.key, hbest.key]
          split
          · exact ih (.some hnext)
          · exact ih (.some hbest)

/-- Entries that lead alike are selected alike. -/
theorem rel_select? {entries entries' : List (String × Exports)}
    (h : List.Forall₂ (LeadAlike active) entries entries') (subpath : String) :
    Option.Rel (Selection.Alike active) ((Exports.subpaths entries).select? subpath)
      ((Exports.subpaths entries').select? subpath) := by
  have hmatch : Relator.LiftFun (LeadAlike active) (Option.Rel (Selection.Alike active))
      (patternMatch? subpath) (patternMatch? subpath) :=
    fun _ _ hentry => rel_patternMatch? hentry subpath
  have hfind := rel_find? h subpath
  simp only [select?]
  generalize entries.find? (·.1 == subpath) = found at hfind ⊢
  generalize entries'.find? (·.1 == subpath) = found' at hfind ⊢
  cases hfind with
  | none => exact rel_best .none (List.rel_filterMap hmatch h)
  | some halike => exact .some ⟨halike.1, rfl, halike.2⟩

theorem lookup_congr_of_rel {exports exports' : Exports} {subpath : String}
    (h : Option.Rel (Selection.Alike active) (exports.select? subpath)
      (exports'.select? subpath)) :
    exports.lookup subpath active = exports'.lookup subpath active := by
  unfold lookup
  generalize exports.select? subpath = selected at h ⊢
  generalize exports'.select? subpath = selected' at h ⊢
  cases h with
  | none => rfl
  | some halike => simp only [halike.star, halike.walk]

theorem select?_of_ne_subpaths {exports : Exports} (h : ∀ map, exports ≠ .subpaths map)
    (subpath : String) :
    exports.select? subpath
      = if subpath = rootSubpath then some ⟨rootSubpath, exports, none⟩ else none := by
  cases exports with
  | subpaths map => exact absurd rfl (h map)
  | target _ | excluded | fallback _ | conditions _ => rfl

/-- Away from maps of subpaths, a lookup is a walk from the top. -/
theorem lookup_congr_of_walk {exports exports' : Exports} (h : ∀ map, exports ≠ .subpaths map)
    (h' : ∀ map, exports' ≠ .subpaths map)
    (hwalk : ∀ star, walk active star exports = walk active star exports') (subpath : String) :
    exports.lookup subpath active = exports'.lookup subpath active := by
  refine lookup_congr_of_rel ?_
  rw [select?_of_ne_subpaths h, select?_of_ne_subpaths h']
  split
  · exact .some ⟨rfl, rfl, hwalk⟩
  · exact .none

/-- **Pruning does not change a lookup.** -/
theorem lookup_of_prunes {exports pruned : Exports} (h : Prunes active exports pruned)
    (subpath : String) : pruned.lookup subpath active = exports.lookup subpath active := by
  have hwalk := walk_of_prunes h
  cases h with
  | @subpath front back key e e' hvalue =>
      have hsame : ∀ entries, List.Forall₂ (LeadAlike active) entries entries := fun entries =>
        List.forall₂_same.2 fun _ _ => ⟨rfl, fun _ => rfl⟩
      have hentries : List.Forall₂ (LeadAlike active)
          (front ++ (key, e') :: back) (front ++ (key, e) :: back) :=
        List.rel_append (hsame front) (.cons ⟨rfl, walk_of_prunes hvalue⟩ (hsame back))
      exact lookup_congr_of_rel (rel_select? hentries subpath)
  | drop _ _ _ _ | entry _ _ _ _ | item _ _ _ =>
      exact lookup_congr_of_walk (by simp) (by simp) hwalk subpath

/-! ## The leaves of a lookup -/

theorem lookup_of_selected {exports value : Exports} {subpath key : String}
    (h : exports.select? subpath = some ⟨key, value, star⟩) :
    exports.lookup subpath active = (walk active star value).outcome := by
  simp only [lookup, h]

/-- An exclusion that can be reached, by its address. -/
def ExcludedAt (active : ConditionSet) (value : Exports) (address : List Step) : Prop :=
  value.at? address = some .excluded ∧ address.all (·.isActive active) = true

theorem mem_activeLeaves_iff {value : Exports} {leaf : Leaf} :
    leaf ∈ activeLeaves active value ↔
      value.at? leaf.address = some leaf.value ∧ leaf.isActive active = true := by
  rw [activeLeaves, List.mem_filter, mem_leaves_iff]

theorem excludedAt_iff {value : Exports} {address : List Step} :
    ExcludedAt active value address ↔ ⟨address, none⟩ ∈ activeLeaves active value := by
  rw [mem_activeLeaves_iff]
  rfl

theorem isCut_activeLeaves_iff {value : Exports} {leaf : Leaf} :
    IsCut (activeLeaves active value) leaf ↔
      ∃ address, ExcludedAt active value address ∧ Cuts address leaf.address := by
  constructor
  · rintro ⟨⟨address, t⟩, hnull, hexclusion, hcuts⟩
    obtain rfl : t = none := Option.isNone_iff_eq_none.1 hexclusion
    exact ⟨address, excludedAt_iff.2 hnull, hcuts⟩
  · rintro ⟨address, hexcluded, hcuts⟩
    exact ⟨_, excludedAt_iff.1 hexcluded, rfl, hcuts⟩

theorem mem_visitedLeaves_iff {value : Exports} {leaf : Leaf} :
    leaf ∈ visitedLeaves active value ↔
      (value.at? leaf.address = some leaf.value ∧ leaf.isActive active = true) ∧
        ¬ ∃ address, ExcludedAt active value address ∧ Cuts address leaf.address := by
  rw [visitedLeaves, uncut, List.mem_filter, mem_activeLeaves_iff, decide_eq_true_iff,
    isCut_activeLeaves_iff]

/-- **A lookup visits the active leaves that are not cut off**, in the order in which they are written.
    Its candidates are the valid targets among them. Without any, it says that a target is invalid
    if it visited one, or else that the subpath is not exported if an exclusion is active. That no
    condition is active it says just when no leaf is. Entries whose conditions are not active can be
    taken out anywhere in the field. -/
theorem walk_visits_uncut_leaves (active : ConditionSet) (star : Option String) (value : Exports) :
    let visited := visitedLeaves active value
    let targets := visited.filterMap (·.validTarget? star)
    ((∀ leaf, leaf ∈ visited ↔
        (value.at? leaf.address = some leaf.value ∧ leaf.isActive active = true) ∧
          ¬ ∃ address, ExcludedAt active value address ∧ Cuts address leaf.address) ∧
      visited.Pairwise fun a b => Before a.address b.address) ∧
    (walk active star value).candidates = targets ∧
    (∀ exports subpath key, exports.select? subpath = some ⟨key, value, star⟩ →
      let outcome := exports.lookup subpath active
      (targets ≠ [] → outcome = .candidates targets) ∧
      (targets = [] → (∃ leaf ∈ visited, leaf.isInvalid star = true) →
        outcome = .invalidTarget) ∧
      (targets = [] → (∀ leaf ∈ visited, leaf.isInvalid star = false) →
        (∃ address, ExcludedAt active value address) → outcome = .notExported) ∧
      (outcome = .noActiveCondition ↔
        ∀ leaf : Leaf, value.at? leaf.address = some leaf.value → leaf.isActive active = false) ∧
      ∀ pruned, Relation.ReflTransGen (Prunes active) exports pruned →
        pruned.lookup subpath active = outcome) := by
  intro visited targets
  have hcandidates : (walk active star value).candidates = targets :=
    (walk_eq_visited active star value).1
  have hsorted := ((pairwise_leaves value).filter (·.isActive active)).filter
    fun leaf => decide (¬ IsCut (activeLeaves active value) leaf)
  refine ⟨⟨fun leaf => mem_visitedLeaves_iff, hsorted⟩, hcandidates, ?_⟩
  intro exports subpath key hselect outcome
  have houtcome : outcome = (walk active star value).outcome := lookup_of_selected hselect
  refine ⟨fun hne => ?_, fun hnil hinvalid => ?_, fun hnil hvalid hexcluded => ?_, ?_,
    fun pruned hpruned => ?_⟩
  · rw [houtcome]
    exact outcome_eq_candidates_iff.2 ⟨hcandidates, hne⟩
  · rw [houtcome, outcome_of_no_target hnil, if_pos (List.any_eq_true.2 hinvalid)]
  · obtain ⟨address, hexcluded⟩ := hexcluded
    have hnone : (visitedLeaves active value).any (·.isInvalid star) = false :=
      List.any_eq_false.2 fun leaf hleaf => by simp [hvalid leaf hleaf]
    have hactive : activeLeaves active value ≠ [] :=
      List.ne_nil_of_mem (excludedAt_iff.1 hexcluded)
    have hsome : (visitedLeaves active value).any (·.isExclusion) = true := by
      rw [any_isExclusion_visitedLeaves hnil hnone]
      simpa using hactive
    rw [houtcome, outcome_of_no_target hnil, hnone, hsome]
    rfl
  · rw [houtcome, outcome_eq_noActiveCondition_iff, List.eq_nil_iff_forall_not_mem]
    simp only [mem_activeLeaves_iff, not_and, Bool.not_eq_true]
  · induction hpruned with
    | refl => rfl
    | tail _ hstep ih => rw [lookup_of_prunes hstep, ih]

/-- An exclusion in an array cuts nothing off, and one in an object cuts off the entry behind it. -/
theorem array_pattern_visits_uncut_leaves :
    let node (entries : List (String × Exports)) : Exports := .conditions
      [("import", .fallback [.excluded, .target "./lib/*.mjs"]), ("node", .conditions entries),
       ("default", .target "./lib/*.js")]
    let typed : String × Exports := ("types", .target "./lib/*.d.ts")
    let value := node [typed, ("default", .excluded)]
    let exports := subpaths [("./*", value)]
    let pruned := subpaths [("./*", node [("default", .excluded)])]
    let active := ConditionSet.ofNames ["import", "node"]
    exports.select? "./a" = some ⟨"./*", value, some "a"⟩ ∧
    visitedLeaves active value =
      [⟨[.entry 0 "import", .item 0], none⟩, ⟨[.entry 0 "import", .item 1], some "./lib/*.mjs"⟩,
       ⟨[.entry 1 "node", .entry 1 "default"], none⟩] ∧
    exports.lookup "./a" active = .candidates ["./lib/a.mjs"] ∧
    Relation.ReflTransGen (Prunes active) exports pruned ∧
    pruned.lookup "./a" active = exports.lookup "./a" active := by
  intro node typed value exports pruned active
  have hkey : isPatternKey "./*" = true := by decide
  have hmatch : Star.match? "./*" "./a" = some "a" := by decide
  have hselect : exports.select? "./a" = some ⟨"./*", value, some "a"⟩ := by
    simp [exports, select?, patternMatch?, hkey, hmatch, best]
  have hvisited : visitedLeaves active value =
      [⟨[.entry 0 "import", .item 0], none⟩, ⟨[.entry 0 "import", .item 1], some "./lib/*.mjs"⟩,
       ⟨[.entry 1 "node", .entry 1 "default"], none⟩] := by
    decide +kernel
  have htargets : (visitedLeaves active value).filterMap (·.validTarget? (some "a"))
      = ["./lib/a.mjs"] := by
    rw [hvisited]
    decide +kernel
  have hpruned : Relation.ReflTransGen (Prunes active) exports pruned := by
    have hdrop : Prunes active (.conditions [typed, ("default", .excluded)])
        (.conditions [("default", .excluded)]) :=
      .drop [] [("default", .excluded)] _ (by decide +kernel)
    have hvalue : Prunes active value (node [("default", .excluded)]) :=
      .entry [("import", _)] [("default", _)] "node" hdrop
    exact .single (.subpath [] [] "./*" hvalue)
  obtain ⟨-, -, hlookup⟩ := walk_visits_uncut_leaves active (some "a") value
  obtain ⟨hfound, -, -, -, hsame⟩ := hlookup exports "./a" "./*" hselect
  have hcandidates := hfound (by rw [htargets]; simp)
  rw [htargets] at hcandidates
  exact ⟨hselect, hvisited, hcandidates, hpruned, hsame pruned hpruned⟩

end Exports

end TypingsAudit
