import TypingsAudit.Exports.Lookup

set_option autoImplicit false

/-! # What a walk through `exports` comes across

A walk starts at the entry for a subpath, which is a value of the map of subpaths or the whole field
(`value_of_select?`).

`Exports.Reaches` says without a walk which values lie under a value on active branches. A walk
notes nothing else: its candidates are valid targets, and it has an invalid one only where a target
that is reached is invalid. The converse fails, since a walk may end in front of a value. -/

namespace TypingsAudit

namespace Exports

variable {active : ConditionSet} {star : Option String}

/-! ## The entry for a subpath -/

/-- The most specific selection is one of those that were compared. -/
theorem mem_of_best {found : Option Selection} {selections : List Selection} {s : Selection}
    (h : best found selections = some s) : found = some s ∨ s ∈ selections := by
  induction selections generalizing found with
  | nil =>
      rw [best] at h
      exact Or.inl h
  | cons next rest ih =>
      cases found with
      | none =>
          rw [best] at h
          rcases ih h with hfound | hrest
          · obtain rfl := Option.some.inj hfound
            exact Or.inr (List.mem_cons_self ..)
          · exact Or.inr (List.mem_cons_of_mem _ hrest)
      | some b =>
          rw [best] at h
          rcases ih h with hfound | hrest
          · split at hfound
            · obtain rfl := Option.some.inj hfound
              exact Or.inr (List.mem_cons_self ..)
            · exact Or.inl hfound
          · exact Or.inr (List.mem_cons_of_mem _ hrest)

/-- An entry is a match when its key is a pattern, and the `*` stands for something. -/
theorem patternMatch?_eq_some_iff {subpath : String} {entry : String × Exports} {s : Selection} :
    patternMatch? subpath entry = some s ↔
      isPatternKey entry.1 = true ∧
        ∃ star, Star.match? entry.1 subpath = some star ∧ star ≠ "" ∧
          s = ⟨entry.1, entry.2, some star⟩ := by
  unfold patternMatch?
  by_cases hkey : isPatternKey entry.1 = true
  · rw [if_pos hkey]
    cases hmatch : Star.match? entry.1 subpath with
    | none => simp
    | some star => by_cases hstar : star = "" <;> simp [hkey, hstar, @eq_comm _ s]
  · simp [hkey]

/-- The entry for a subpath is a value of the map, or the whole field where that is no map. -/
theorem value_of_select? {exports : Exports} {subpath : String} {s : Selection}
    (h : exports.select? subpath = some s) :
    (∃ entries, exports = .subpaths entries ∧ ∃ entry ∈ entries, s.value = entry.2) ∨
      (∀ entries, exports ≠ .subpaths entries) ∧ s.value = exports := by
  unfold select? at h
  split at h
  · next entries =>
      refine Or.inl ⟨entries, rfl, ?_⟩
      split at h
      · next key value hfind =>
          rw [← Option.some.inj h]
          exact ⟨(key, value), List.mem_of_find?_eq_some hfind, rfl⟩
      · have hmem := (mem_of_best h).resolve_left (by simp)
        obtain ⟨entry, hentry, hmatch⟩ := List.mem_filterMap.1 hmem
        obtain ⟨-, star, -, -, rfl⟩ := patternMatch?_eq_some_iff.1 hmatch
        exact ⟨entry, hentry, rfl⟩
  · next hother =>
      refine Or.inr ⟨fun entries => hother entries, ?_⟩
      split at h
      · rw [← Option.some.inj h]
      · exact absurd h (by simp)

/-! ## What lies on active branches -/

/-- `value.Reaches active other`: the way from `value` down to `other` passes active conditions
    only. -/
inductive Reaches (active : ConditionSet) : Exports → Exports → Prop where
  | here (value : Exports) : Reaches active value value
  | item {items : List Exports} {e other : Exports} (hmem : e ∈ items)
      (hreach : Reaches active e other) : Reaches active (.fallback items) other
  | entry {entries : List (String × Exports)} {condition : String} {e other : Exports}
      (hmem : (condition, e) ∈ entries) (hactive : active.isActive condition = true)
      (hreach : Reaches active e other) : Reaches active (.conditions entries) other

/-- What lies below a fallback list lies below a longer one. -/
theorem Reaches.fallback_cons {e other : Exports} {es : List Exports}
    (h : (Exports.fallback es).Reaches active other) :
    other = .fallback es ∨ (Exports.fallback (e :: es)).Reaches active other := by
  cases h with
  | here => exact Or.inl rfl
  | item hmem hreach => exact Or.inr (.item (List.mem_cons_of_mem _ hmem) hreach)

theorem Reaches.conditions_cons {entry : String × Exports} {other : Exports}
    {es : List (String × Exports)} (h : (Exports.conditions es).Reaches active other) :
    other = .conditions es ∨ (Exports.conditions (entry :: es)).Reaches active other := by
  cases h with
  | here => exact Or.inl rfl
  | entry hmem hactive hreach =>
      exact Or.inr (.entry (List.mem_cons_of_mem _ hmem) hactive hreach)

/-! ## The steps of a walk -/

theorem walkEntries_cons_active {condition : String} {e : Exports} {es : List (String × Exports)}
    (h : active.isActive condition = true) :
    walkEntries active star ((condition, e) :: es) =
      if (walk active star e).ended then walk active star e
      else (walk active star e).append (walkEntries active star es) := by
  rw [walkEntries, if_pos h]

theorem walkEntries_cons_inactive {condition : String} {e : Exports} {es : List (String × Exports)}
    (h : ¬ active.isActive condition = true) :
    walkEntries active star ((condition, e) :: es) = walkEntries active star es := by
  rw [walkEntries, if_neg h]

theorem mem_candidates_append {a b : Walk} {t : String} :
    t ∈ (a.append b).candidates ↔ t ∈ a.candidates ∨ t ∈ b.candidates := by
  simp [Walk.append]

theorem sawInvalid_append {a b : Walk} :
    (a.append b).sawInvalid = true ↔ a.sawInvalid = true ∨ b.sawInvalid = true := by
  simp [Walk.append]

mutual

/-- Only valid targets become candidates. -/
theorem isValidTarget_of_mem_walk : ∀ (value : Exports) {t : String},
    t ∈ (walk active star value).candidates → isValidTarget t = true
  | .target path, t, h => by
      simp only [walk] at h
      split at h
      · next hvalid =>
          obtain rfl : t = instantiate star path := by simpa [Walk.nothing] using h
          exact hvalid
      · simp [Walk.nothing] at h
  | .excluded, _, h => by simp [walk, Walk.nothing] at h
  | .fallback items, _, h => isValidTarget_of_mem_items items (by rwa [walk] at h)
  | .conditions entries, _, h => isValidTarget_of_mem_entries entries (by rwa [walk] at h)
  | .subpaths _, _, h => by simp [walk, Walk.nothing] at h

theorem isValidTarget_of_mem_items : ∀ (items : List Exports) {t : String},
    t ∈ (walkItems active star items).candidates → isValidTarget t = true
  | [], _, h => by simp [walkItems, Walk.nothing] at h
  | e :: es, _, h => by
      rw [walkItems, mem_candidates_append] at h
      exact h.elim (isValidTarget_of_mem_walk e) (isValidTarget_of_mem_items es)

theorem isValidTarget_of_mem_entries : ∀ (entries : List (String × Exports)) {t : String},
    t ∈ (walkEntries active star entries).candidates → isValidTarget t = true
  | [], _, h => by simp [walkEntries, Walk.nothing] at h
  | (condition, e) :: es, _, h => by
      by_cases hactive : active.isActive condition = true
      · rw [walkEntries_cons_active hactive] at h
        split at h
        · exact isValidTarget_of_mem_walk e h
        · rw [mem_candidates_append] at h
          exact h.elim (isValidTarget_of_mem_walk e) (isValidTarget_of_mem_entries es)
      · rw [walkEntries_cons_inactive hactive] at h
        exact isValidTarget_of_mem_entries es h

end

/-! ## Outcomes -/

theorem outcome_eq_candidates_iff {w : Walk} {targets : List String} :
    w.outcome = .candidates targets ↔ w.candidates = targets ∧ targets ≠ [] := by
  unfold Walk.outcome
  constructor
  · intro h
    split at h
    · next hne =>
        obtain rfl : w.candidates = targets := by simpa using h
        exact ⟨rfl, hne⟩
    · split at h
      · exact absurd h (by simp)
      · split at h <;> exact absurd h (by simp)
  · rintro ⟨rfl, hne⟩
    rw [if_pos hne]

/-- A lookup has candidates just when the walk of the entry for the subpath collects them. -/
theorem lookup_eq_candidates_iff {exports : Exports} {subpath : String} {targets : List String} :
    exports.lookup subpath active = .candidates targets ↔
      ∃ s, exports.select? subpath = some s ∧ (walk active s.star s.value).candidates = targets ∧
        targets ≠ [] := by
  unfold lookup
  cases exports.select? subpath with
  | none => simp
  | some s => simp [outcome_eq_candidates_iff]

end Exports

end TypingsAudit
