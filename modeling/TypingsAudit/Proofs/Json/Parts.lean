import Mathlib.Logic.Relation
import TypingsAudit.Json.Basic

set_option autoImplicit false

/-! # The parts of a JSON value

An array consists of its items and an object of the values of its members. What a value contains is
what is reached by going from a whole to its parts.

`Json.DistinctKeys` says of all objects in a value that they have no key twice. It comes down to one
value and its parts (`Json.distinctKeys_iff`). -/

namespace TypingsAudit

namespace Json

/-- The items of an array, or the values of the members of an object. -/
def parts : Json → List Json
  | .array items => items
  | .object members => members.map (·.2)
  | .null | .bool _ | .number _ | .string _ => []

/-- `part` occurs in `whole`, perhaps as all of it. -/
def Contains (whole part : Json) : Prop :=
  Relation.ReflTransGen (fun a b => b ∈ a.parts) whole part

/-- `part` occurs in `whole` below the top. -/
def ContainsBelow (whole part : Json) : Prop :=
  Relation.TransGen (fun a b => b ∈ a.parts) whole part

/-! ## Distinct keys -/

/-- No object in the value has two members with one key. -/
def DistinctKeys (v : Json) : Prop :=
  ∀ members, v.Contains (.object members) → (members.map (·.1)).Nodup

theorem distinctKeys_iff {v : Json} :
    v.DistinctKeys ↔
      (∀ members, v = .object members → (members.map (·.1)).Nodup) ∧
        ∀ part ∈ v.parts, part.DistinctKeys := by
  constructor
  · intro h
    constructor
    · rintro members rfl
      exact h members .refl
    · intro part hpart members hcontains
      exact h members (.head hpart hcontains)
  · rintro ⟨hown, hparts⟩ members hcontains
    rcases Relation.ReflTransGen.cases_head hcontains with rfl | ⟨part, hpart, hcontains⟩
    · exact hown members rfl
    · exact hparts part hpart members hcontains

theorem distinctKeys_of_parts_eq_nil {v : Json} (hparts : v.parts = [])
    (hobject : ∀ members, v ≠ .object members) : v.DistinctKeys := by
  rw [distinctKeys_iff, hparts]
  exact ⟨fun members hv => absurd hv (hobject members), by simp⟩

@[simp]
theorem distinctKeys_null : DistinctKeys .null :=
  distinctKeys_of_parts_eq_nil rfl (by simp)

@[simp]
theorem distinctKeys_bool (b : Bool) : DistinctKeys (.bool b) :=
  distinctKeys_of_parts_eq_nil rfl (by simp)

@[simp]
theorem distinctKeys_number (n : JsonNumber) : DistinctKeys (.number n) :=
  distinctKeys_of_parts_eq_nil rfl (by simp)

@[simp]
theorem distinctKeys_string (s : String) : DistinctKeys (.string s) :=
  distinctKeys_of_parts_eq_nil rfl (by simp)

@[simp]
theorem distinctKeys_array {items : List Json} :
    DistinctKeys (.array items) ↔ ∀ item ∈ items, item.DistinctKeys := by
  rw [distinctKeys_iff]
  simp [parts]

@[simp]
theorem distinctKeys_object {members : Members} :
    DistinctKeys (.object members) ↔
      (members.map (·.1)).Nodup ∧ ∀ member ∈ members, member.2.DistinctKeys := by
  rw [distinctKeys_iff]
  simp only [parts, List.forall_mem_map, Json.object.injEq, forall_eq']

/-- A value that is given to a key takes the place of the old one. -/
theorem distinctKeys_insert {members : Members} (h : DistinctKeys (.object members)) (key : String)
    {v : Json} (hv : v.DistinctKeys) : DistinctKeys (.object (members.insert key v)) := by
  rw [distinctKeys_object] at h ⊢
  obtain ⟨hnodup, hvalues⟩ := h
  refine ⟨Members.nodup_keys_insert hnodup key v, fun member hmember => ?_⟩
  unfold Members.insert at hmember
  split at hmember
  · obtain ⟨old, hold, rfl⟩ := List.mem_map.1 hmember
    split
    · exact hv
    · exact hvalues old hold
  · rcases List.mem_append.1 hmember with hold | hnew
    · exact hvalues member hold
    · obtain rfl := List.mem_singleton.1 hnew
      exact hv

end Json

end TypingsAudit
