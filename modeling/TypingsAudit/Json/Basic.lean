import TypingsAudit.Decimal.Shortest

set_option autoImplicit false

/-! # JSON values

A value keeps the members of an object in order. A number is kept as what it denotes: an integer
where it fits 64 bits, a floating-point number otherwise. -/

namespace TypingsAudit

/-- A number of a JSON text. -/
inductive JsonNumber where
  | natural (n : Nat)
  /-- The number `-n`, with `n` positive. -/
  | negative (n : Nat)
  | real (x : Decimal.Binary64)
  deriving DecidableEq, Repr

inductive Json where
  | null
  | bool (b : Bool)
  | number (n : JsonNumber)
  | string (s : String)
  | array (items : List Json)
  | object (members : List (String × Json))
  deriving Repr

namespace Json

/-- The members of an object, in order. -/
abbrev Members := List (String × Json)

namespace Members

/-- The value of the first member with this key. -/
def get? (members : Members) (key : String) : Option Json :=
  (members.find? fun m => m.1 == key).map (·.2)

/-- Give `key` a value. A key that is already there keeps its place and takes the new value. -/
def insert (members : Members) (key : String) (value : Json) : Members :=
  if members.any (·.1 == key) then
    members.map fun m => if m.1 == key then (m.1, value) else m
  else members ++ [(key, value)]

theorem keys_insert (members : Members) (key : String) (value : Json) :
    (members.insert key value).map (·.1) =
      if key ∈ members.map (·.1) then members.map (·.1) else members.map (·.1) ++ [key] := by
  unfold insert
  by_cases h : members.any (·.1 == key) = true
  · have hmem : key ∈ members.map (·.1) := by
      simpa [List.any_eq_true, beq_iff_eq] using h
    rw [if_pos h, if_pos hmem, List.map_map]
    apply List.map_congr_left
    intro m _
    simp only [Function.comp_apply]
    split <;> rfl
  · have hmem : key ∉ members.map (·.1) := by
      simpa [List.any_eq_true, beq_iff_eq] using h
    rw [if_neg h, if_neg hmem]
    simp

/-- The keys of the members stay distinct. -/
theorem nodup_keys_insert {members : Members} (h : (members.map (·.1)).Nodup) (key : String)
    (value : Json) : ((members.insert key value).map (·.1)).Nodup := by
  rw [keys_insert]
  split
  · exact h
  · next hmem =>
    rw [List.nodup_append]
    refine ⟨h, by simp, ?_⟩
    intro a ha b hb hab
    simp only [List.mem_singleton] at hb
    subst hb hab
    exact hmem ha

end Members

/-- The text of a string value, or nothing for any other value. -/
def string? : Json → Option String
  | .string s => some s
  | _ => none

theorem string?_eq_none {value : Json} (h : ∀ s, value ≠ .string s) : value.string? = none := by
  cases value with
  | string s => exact absurd rfl (h s)
  | null | bool _ | number _ | array _ | object _ => rfl

/-- The members of an object, or nothing for any other value. -/
def members? : Json → Option Members
  | .object members => some members
  | _ => none

end Json

end TypingsAudit
