import TypingsAudit.Proofs.Exports.Walk

set_option autoImplicit false

/-! # The conditions that a lookup asks about

`Exports.conditionNames` lists the conditions that are written in a field, at any depth. A lookup
asks about no others: two sets of conditions that agree on these have the same outcome
(`Exports.lookup_congr`). -/

namespace TypingsAudit

namespace ConditionSet

/-- The two sets agree on whether the condition is active. -/
def AgreeOn (active active' : ConditionSet) (condition : String) : Prop :=
  active.isActive condition = active'.isActive condition

theorem isActive_ofNames {names : List String} {condition : String} :
    (ofNames names).isActive condition = true ↔ condition = always ∨ condition ∈ names := by
  simp [isActive, ofNames, Std.TreeSet.contains_ofList]

end ConditionSet

namespace Exports

mutual

/-- The conditions that occur in a value. -/
def conditionNames : Exports → List String
  | .target _ => []
  | .excluded => []
  | .fallback items => namesInItems items
  | .conditions entries => entries.map (·.1) ++ namesInEntries entries
  | .subpaths entries => namesInEntries entries

/-- The conditions that occur in the items of an array. -/
def namesInItems : List Exports → List String
  | [] => []
  | e :: es => conditionNames e ++ namesInItems es

/-- The conditions that occur in the values of an object, its own keys apart. -/
def namesInEntries : List (String × Exports) → List String
  | [] => []
  | (_, e) :: es => conditionNames e ++ namesInEntries es

end

variable {active active' : ConditionSet} {star : Option String}

/-! ## Walks -/

mutual

/-- A walk asks about the conditions that occur in the value and no others. -/
theorem walk_congr : ∀ (value : Exports), (∀ c ∈ conditionNames value, active.AgreeOn active' c) →
    walk active star value = walk active' star value
  | .target _, _ => by simp only [walk]
  | .excluded, _ => by simp only [walk]
  | .fallback items, h => by
      rw [walk, walk]
      exact walkItems_congr items h
  | .conditions entries, h => by
      rw [conditionNames] at h
      rw [walk, walk]
      exact walkEntries_congr entries
        (fun entry hmem => h entry.1 (List.mem_append_left _ (List.mem_map_of_mem hmem)))
        (fun c hc => h c (List.mem_append_right _ hc))
  -- A map of subpaths inside a value leads nowhere, whatever stands in it.
  | .subpaths _, _ => by simp only [walk]

theorem walkItems_congr : ∀ (items : List Exports),
    (∀ c ∈ namesInItems items, active.AgreeOn active' c) →
    walkItems active star items = walkItems active' star items
  | [], _ => by simp only [walkItems]
  | e :: es, h => by
      rw [namesInItems] at h
      rw [walkItems, walkItems, walk_congr e fun c hc => h c (List.mem_append_left _ hc),
        walkItems_congr es fun c hc => h c (List.mem_append_right _ hc)]

theorem walkEntries_congr : ∀ (entries : List (String × Exports)),
    (∀ entry ∈ entries, active.AgreeOn active' entry.1) →
    (∀ c ∈ namesInEntries entries, active.AgreeOn active' c) →
    walkEntries active star entries = walkEntries active' star entries
  | [], _, _ => by simp only [walkEntries]
  | (condition, e) :: es, hkeys, h => by
      rw [namesInEntries] at h
      have hkey : active.isActive condition = active'.isActive condition :=
        hkeys _ (List.mem_cons_self ..)
      have hfirst := walk_congr e fun c hc => h c (List.mem_append_left _ hc)
      have hrest := walkEntries_congr es
        (fun entry hmem => hkeys entry (List.mem_cons_of_mem _ hmem))
        fun c hc => h c (List.mem_append_right _ hc)
      rw [walkEntries, walkEntries, hkey, hfirst, hrest]

end

/-! ## Lookups -/

theorem namesInEntries_subset {entry : String × Exports} {entries : List (String × Exports)}
    (h : entry ∈ entries) : conditionNames entry.2 ⊆ namesInEntries entries := by
  induction entries with
  | nil => exact absurd h (List.not_mem_nil)
  | cons first rest ih =>
      rw [namesInEntries]
      rcases List.mem_cons.1 h with rfl | h
      · exact List.subset_append_left _ _
      · exact List.subset_append_of_subset_right _ (ih h)

/-- The entry for a subpath has no conditions but those of the field. -/
theorem conditionNames_of_select? {exports : Exports} {subpath : String} {s : Selection}
    (h : exports.select? subpath = some s) : s.value.conditionNames ⊆ exports.conditionNames := by
  rcases value_of_select? h with ⟨entries, rfl, entry, hentry, hvalue⟩ | ⟨-, hvalue⟩
  · rw [hvalue, conditionNames]
    exact namesInEntries_subset hentry
  · rw [hvalue]
    exact List.Subset.refl _

/-- **A lookup asks only about the conditions that occur in the field.** -/
theorem lookup_congr {exports : Exports} (subpath : String)
    (h : ∀ c ∈ exports.conditionNames, active.AgreeOn active' c) :
    exports.lookup subpath active = exports.lookup subpath active' := by
  unfold lookup
  cases hselect : exports.select? subpath with
  | none => rfl
  | some s =>
      simp only
      rw [walk_congr s.value fun c hc => h c (conditionNames_of_select? hselect hc)]

end Exports

end TypingsAudit
