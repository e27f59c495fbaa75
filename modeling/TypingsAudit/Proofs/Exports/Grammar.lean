import Mathlib.Tactic.SplitIfs
import TypingsAudit.Proofs.Data
import TypingsAudit.Proofs.Exports.Walk
import TypingsAudit.Proofs.Json.Parts

set_option autoImplicit false

/-! # The grammar of `exports`

`Json.IsExports` says which JSON values are an `exports` field, and `Exports.WellShaped` what they
are read to; neither of them mentions reading. Between the two, reading and writing are inverse to
each other.

Both descriptions have one pattern: a value fits at the top, and everything below it fits below.
`ShapedAt` is that pattern. It comes down to one value and its parts (`shapedAt_iff`), which is how
reading goes through a value: `read_eq_ok_iff` says what is read, `exists_read_iff` whether anything
is. -/

namespace TypingsAudit

/-! ## Parts -/

namespace Exports

/-- The items of a fallback list, or the values of conditions or subpaths. -/
def parts : Exports → List Exports
  | .fallback items => items
  | .conditions entries | .subpaths entries => entries.map (·.2)
  | .target _ | .excluded => []

@[inherit_doc Json.Contains]
def Contains (whole part : Exports) : Prop :=
  Relation.ReflTransGen (fun a b => b ∈ a.parts) whole part

@[inherit_doc Json.ContainsBelow]
def ContainsBelow (whole part : Exports) : Prop :=
  Relation.TransGen (fun a b => b ∈ a.parts) whole part

end Exports

/-! ## The two descriptions -/

/-- The values that are an `exports` field. -/
structure Json.IsExports (v : Json) : Prop where
  noBool : ∀ b, ¬ v.Contains (.bool b)
  noNumber : ∀ n, ¬ v.Contains (.number n)
  noSubpathKeyBelow : ∀ members, v.ContainsBelow (.object members) →
    ∀ key ∈ members.map (·.1), ¬ Exports.isSubpathKey key = true
  keysAgree : ∀ members, v = .object members →
    (∀ key ∈ members.map (·.1), Exports.isSubpathKey key = true) ∨
      ∀ key ∈ members.map (·.1), ¬ Exports.isSubpathKey key = true

/-- The values that a field is read to. -/
structure Exports.WellShaped (e : Exports) : Prop where
  noSubpathsBelow : ∀ entries, ¬ e.ContainsBelow (.subpaths entries)
  subpathKeys : ∀ entries, e = .subpaths entries →
    entries ≠ [] ∧ ∀ key ∈ entries.map (·.1), Exports.isSubpathKey key = true
  conditionKeys : ∀ entries, e.Contains (.conditions entries) →
    ∀ key ∈ entries.map (·.1), ¬ Exports.isSubpathKey key = true

/-! ## One value and its parts -/

/-- What the grammar asks of a value itself, at the top or below. -/
def Json.Fits (top : Bool) : Json → Prop
  | .bool _ | .number _ => False
  | .object members =>
    (top = true ∧ ∀ key ∈ members.map (·.1), Exports.isSubpathKey key = true) ∨
      ∀ key ∈ members.map (·.1), ¬ Exports.isSubpathKey key = true
  | .null | .string _ | .array _ => True

/-- What the shape asks of a value itself, at the top or below. -/
def Exports.Fits (top : Bool) : Exports → Prop
  | .conditions entries => ∀ key ∈ entries.map (·.1), ¬ isSubpathKey key = true
  | .subpaths entries =>
    top = true ∧ entries ≠ [] ∧ ∀ key ∈ entries.map (·.1), isSubpathKey key = true
  | .target _ | .excluded | .fallback _ => True

/-- The value fits where it stands, and all that lies below it fits below. -/
def Json.ShapedAt (top : Bool) (v : Json) : Prop :=
  v.Fits top ∧ ∀ part, v.ContainsBelow part → part.Fits false

@[inherit_doc Json.ShapedAt]
def Exports.ShapedAt (top : Bool) (e : Exports) : Prop :=
  e.Fits top ∧ ∀ part, e.ContainsBelow part → part.Fits false

theorem Json.shapedAt_iff {top : Bool} {v : Json} :
    v.ShapedAt top ↔ v.Fits top ∧ ∀ part ∈ v.parts, part.ShapedAt false :=
  and_congr_right fun _ => forall_transGen_iff

theorem Exports.shapedAt_iff {top : Bool} {e : Exports} :
    e.ShapedAt top ↔ e.Fits top ∧ ∀ part ∈ e.parts, part.ShapedAt false :=
  and_congr_right fun _ => forall_transGen_iff

/-- The grammar is the pattern at the top. -/
theorem Json.isExports_iff {v : Json} : v.IsExports ↔ v.ShapedAt true := by
  constructor
  · intro h
    refine ⟨?_, fun part hbelow => ?_⟩
    · cases v with
      | bool b => exact h.noBool b .refl
      | number n => exact h.noNumber n .refl
      | object members => exact (h.keysAgree members rfl).imp_left fun hkeys => ⟨rfl, hkeys⟩
      | null | string _ | array _ => trivial
    · cases part with
      | bool b => exact h.noBool b hbelow.to_reflTransGen
      | number n => exact h.noNumber n hbelow.to_reflTransGen
      | object members => exact Or.inr (h.noSubpathKeyBelow members hbelow)
      | null | string _ | array _ => trivial
  · intro h
    have hfits : ∀ part, v.Contains part → ∃ top, part.Fits top := by
      intro part hpart
      rcases Relation.reflTransGen_iff_eq_or_transGen.1 hpart with rfl | hbelow
      · exact ⟨true, h.1⟩
      · exact ⟨false, h.2 part hbelow⟩
    refine ⟨fun b hb => (hfits _ hb).choose_spec, fun n hn => (hfits _ hn).choose_spec,
      fun members hbelow => ?_, fun members hv => ?_⟩
    · exact (h.2 _ hbelow).resolve_left (by simp)
    · subst hv
      exact h.1.imp_left And.right

/-- The shape is the pattern at the top. -/
theorem Exports.wellShaped_iff {e : Exports} : e.WellShaped ↔ e.ShapedAt true := by
  constructor
  · intro h
    refine ⟨?_, fun part hbelow => ?_⟩
    · cases e with
      | conditions entries => exact h.conditionKeys entries .refl
      | subpaths entries => exact ⟨rfl, h.subpathKeys entries rfl⟩
      | target _ | excluded | fallback _ => trivial
    · cases part with
      | conditions entries => exact h.conditionKeys entries hbelow.to_reflTransGen
      | subpaths entries => exact absurd hbelow (h.noSubpathsBelow entries)
      | target _ | excluded | fallback _ => trivial
  · intro h
    refine ⟨fun entries hbelow => ?_, fun entries he => ?_, fun entries hpart => ?_⟩
    · exact absurd (h.2 _ hbelow).1 (by decide)
    · subst he
      exact h.1.2
    · rcases Relation.reflTransGen_iff_eq_or_transGen.1 hpart with rfl | hbelow
      · exact h.1
      · exact h.2 _ hbelow

/-! ## Reading -/

namespace Exports

variable {top : Bool}

/-- The keys of an object are subpaths when there are any and all of them are, and only at the
    top. -/
theorem keysAreSubpaths_eq_ok_true_iff {keys : List String} :
    keysAreSubpaths top keys = .ok true ↔
      top = true ∧ keys ≠ [] ∧ ∀ key ∈ keys, isSubpathKey key = true := by
  constructor
  · intro h
    unfold keysAreSubpaths at h
    split_ifs at h with hany hmixed htop
    · obtain ⟨key, hmem, -⟩ := List.any_eq_true.1 hany
      exact ⟨by simpa using htop, List.ne_nil_of_mem hmem, by simpa using hmixed⟩
    · exact absurd h (by simp)
  · rintro ⟨rfl, hne, hkeys⟩
    obtain ⟨key, hmem⟩ := List.exists_mem_of_ne_nil keys hne
    have hany : keys.any isSubpathKey = true := List.any_eq_true.2 ⟨key, hmem, hkeys key hmem⟩
    have hall : keys.all isSubpathKey = true := List.all_eq_true.2 hkeys
    simp [keysAreSubpaths, hany, hall]

/-- They are conditions when none of them is a subpath. -/
theorem keysAreSubpaths_eq_ok_false_iff {keys : List String} :
    keysAreSubpaths top keys = .ok false ↔ ∀ key ∈ keys, ¬ isSubpathKey key = true := by
  constructor
  · intro h
    unfold keysAreSubpaths at h
    split_ifs at h with hany
    · exact absurd h (by simp)
    · simpa using hany
  · intro hkeys
    have hany : keys.any isSubpathKey = false := by simpa using hkeys
    simp [keysAreSubpaths, hany]

/-- Other keys are refused. -/
theorem exists_keysAreSubpaths_iff {keys : List String} :
    (∃ subpaths, keysAreSubpaths top keys = .ok subpaths) ↔
      (top = true ∧ ∀ key ∈ keys, isSubpathKey key = true) ∨
        ∀ key ∈ keys, ¬ isSubpathKey key = true := by
  rw [Bool.exists_bool, keysAreSubpaths_eq_ok_true_iff, keysAreSubpaths_eq_ok_false_iff, or_comm]
  -- Of no keys, none is a subpath.
  by_cases hne : keys = []
  · simp [hne]
  · simp [hne]

theorem map_fst_toJsonEntries (entries : List (String × Exports)) :
    (toJsonEntries entries).map (·.1) = entries.map (·.1) := by
  induction entries with
  | nil => rfl
  | cons entry rest ih => rw [toJsonEntries, List.map_cons, List.map_cons, ih]

-- One theorem for each function that reads, by cases of the value that is read. What does not write
-- to the same case cannot be what it is read to.
mutual

/-- **What is read is what writes the value**, in the shape for the place of the value. -/
theorem read_eq_ok_iff : ∀ (v : Json) {top : Bool} {e : Exports},
    read top v = .ok e ↔ e.toJson = v ∧ e.ShapedAt top
  | .string s, top, e => by
      rw [shapedAt_iff]
      cases e <;> simp [read, toJson, Fits, parts, @eq_comm _ s]
  | .null, top, e => by
      rw [shapedAt_iff]
      cases e <;> simp [read, toJson, Fits, parts]
  | .bool b, top, e => by cases e <;> simp [read, toJson]
  | .number n, top, e => by cases e <;> simp [read, toJson]
  | .array items, top, e => by
      rw [read, bind_eq_ok_iff, shapedAt_iff]
      constructor
      · rintro ⟨es, hread, h⟩
        obtain rfl := Except.ok.inj h
        obtain ⟨hjson, hparts⟩ := (readItems_eq_ok_iff items).1 hread
        exact ⟨by rw [toJson, hjson], trivial, hparts⟩
      · rintro ⟨hjson, -, hparts⟩
        cases e with
        | fallback es =>
            rw [toJson, Json.array.injEq] at hjson
            exact ⟨es, (readItems_eq_ok_iff items).2 ⟨hjson, hparts⟩, rfl⟩
        | target _ | excluded | conditions _ | subpaths _ => simp [toJson] at hjson
  | .object members, top, e => by
      rw [read, bind_eq_ok_iff, shapedAt_iff]
      constructor
      · rintro ⟨subpaths, hkeys, h⟩
        obtain ⟨entries, hread, h⟩ := bind_eq_ok_iff.1 h
        obtain rfl := Except.ok.inj h
        obtain ⟨hjson, hparts⟩ := (readMembers_eq_ok_iff members).1 hread
        rw [← hjson, map_fst_toJsonEntries] at hkeys
        cases subpaths with
        | true =>
            obtain ⟨htop, hne, hall⟩ := keysAreSubpaths_eq_ok_true_iff.1 hkeys
            exact ⟨congrArg Json.object hjson, ⟨htop, by simpa using hne, hall⟩, hparts⟩
        | false =>
            exact ⟨congrArg Json.object hjson, keysAreSubpaths_eq_ok_false_iff.1 hkeys, hparts⟩
      · rintro ⟨hjson, hfits, hparts⟩
        cases e with
        | conditions entries =>
            rw [toJson, Json.object.injEq] at hjson
            have hread := (readMembers_eq_ok_iff members).2 ⟨hjson, hparts⟩
            rw [← hjson, map_fst_toJsonEntries, hjson]
            exact ⟨false, keysAreSubpaths_eq_ok_false_iff.2 hfits,
              bind_eq_ok_iff.2 ⟨entries, hread, rfl⟩⟩
        | subpaths entries =>
            rw [toJson, Json.object.injEq] at hjson
            have hread := (readMembers_eq_ok_iff members).2 ⟨hjson, hparts⟩
            rw [← hjson, map_fst_toJsonEntries, hjson]
            obtain ⟨htop, hne, hall⟩ := hfits
            exact ⟨true, keysAreSubpaths_eq_ok_true_iff.2 ⟨htop, by simpa using hne, hall⟩,
              bind_eq_ok_iff.2 ⟨entries, hread, rfl⟩⟩
        | target _ | excluded | fallback _ => simp [toJson] at hjson

theorem readItems_eq_ok_iff : ∀ (vs : List Json) {es : List Exports},
    readItems vs = .ok es ↔ toJsonItems es = vs ∧ ∀ e ∈ es, e.ShapedAt false
  | [], es => by cases es <;> simp [readItems, toJsonItems]
  | v :: vs, es => by
      simp only [readItems, bind_eq_ok_iff, read_eq_ok_iff v, readItems_eq_ok_iff vs,
        Except.ok.injEq]
      constructor
      · rintro ⟨e, ⟨rfl, hshape⟩, es, ⟨rfl, hshapes⟩, rfl⟩
        exact ⟨rfl, List.forall_mem_cons.2 ⟨hshape, hshapes⟩⟩
      · rintro ⟨hjson, hshapes⟩
        cases es with
        | nil => exact absurd hjson (by simp [toJsonItems])
        | cons e es =>
            rw [toJsonItems, List.cons.injEq] at hjson
            rw [List.forall_mem_cons] at hshapes
            exact ⟨e, ⟨hjson.1, hshapes.1⟩, es, ⟨hjson.2, hshapes.2⟩, rfl⟩

theorem readMembers_eq_ok_iff : ∀ (ms : List (String × Json)) {es : List (String × Exports)},
    readMembers ms = .ok es ↔ toJsonEntries es = ms ∧ ∀ e ∈ es.map (·.2), e.ShapedAt false
  | [], es => by cases es <;> simp [readMembers, toJsonEntries]
  | (key, v) :: ms, es => by
      simp only [readMembers, bind_eq_ok_iff, read_eq_ok_iff v, readMembers_eq_ok_iff ms,
        Except.ok.injEq]
      constructor
      · rintro ⟨e, ⟨rfl, hshape⟩, es, ⟨rfl, hshapes⟩, rfl⟩
        exact ⟨rfl, List.forall_mem_cons.2 ⟨hshape, hshapes⟩⟩
      · rintro ⟨hjson, hshapes⟩
        cases es with
        | nil => exact absurd hjson (by simp [toJsonEntries])
        | cons entry es =>
            rw [toJsonEntries, List.cons.injEq, Prod.mk.injEq] at hjson
            rw [List.map_cons, List.forall_mem_cons] at hshapes
            exact ⟨entry.2, ⟨hjson.1.2, hshapes.1⟩, es, ⟨hjson.2, hshapes.2⟩,
              by rw [← hjson.1.1]⟩

end

mutual

/-- **A value is read exactly when it fits its place.** -/
theorem exists_read_iff : ∀ (v : Json) {top : Bool},
    (∃ e, read top v = .ok e) ↔ v.ShapedAt top
  | .string s, top => by simp [read, Json.shapedAt_iff (v := .string s), Json.Fits, Json.parts]
  | .null, top => by simp [read, Json.shapedAt_iff (v := .null), Json.Fits, Json.parts]
  | .bool b, top => by simp [read, Json.shapedAt_iff (v := .bool b), Json.Fits]
  | .number n, top => by simp [read, Json.shapedAt_iff (v := .number n), Json.Fits]
  | .array items, top => by
      rw [Json.shapedAt_iff]
      constructor
      · rintro ⟨e, h⟩
        rw [read] at h
        obtain ⟨es, hread, -⟩ := bind_eq_ok_iff.1 h
        exact ⟨trivial, (exists_readItems_iff items).1 ⟨es, hread⟩⟩
      · rintro ⟨-, hparts⟩
        obtain ⟨es, hread⟩ := (exists_readItems_iff items).2 hparts
        exact ⟨.fallback es, by rw [read]; exact bind_eq_ok_iff.2 ⟨es, hread, rfl⟩⟩
  | .object members, top => by
      rw [Json.shapedAt_iff]
      constructor
      · rintro ⟨e, h⟩
        rw [read] at h
        obtain ⟨subpaths, hkeys, h⟩ := bind_eq_ok_iff.1 h
        obtain ⟨entries, hread, -⟩ := bind_eq_ok_iff.1 h
        exact ⟨exists_keysAreSubpaths_iff.1 ⟨subpaths, hkeys⟩,
          (exists_readMembers_iff members).1 ⟨entries, hread⟩⟩
      · rintro ⟨hfits, hparts⟩
        obtain ⟨subpaths, hkeys⟩ := exists_keysAreSubpaths_iff.2 hfits
        obtain ⟨entries, hread⟩ := (exists_readMembers_iff members).2 hparts
        refine ⟨if subpaths then .subpaths entries else .conditions entries, ?_⟩
        rw [read]
        exact bind_eq_ok_iff.2 ⟨subpaths, hkeys, bind_eq_ok_iff.2 ⟨entries, hread, rfl⟩⟩

theorem exists_readItems_iff : ∀ (vs : List Json),
    (∃ es, readItems vs = .ok es) ↔ ∀ v ∈ vs, v.ShapedAt false
  | [] => by simp [readItems]
  | v :: vs => by
      rw [List.forall_mem_cons, ← exists_read_iff v, ← exists_readItems_iff vs]
      simp only [readItems, bind_eq_ok_iff]
      constructor
      · rintro ⟨_, e, he, es, hes, -⟩
        exact ⟨⟨e, he⟩, es, hes⟩
      · rintro ⟨⟨e, he⟩, es, hes⟩
        exact ⟨e :: es, e, he, es, hes, rfl⟩

theorem exists_readMembers_iff : ∀ (ms : List (String × Json)),
    (∃ es, readMembers ms = .ok es) ↔ ∀ v ∈ ms.map (·.2), v.ShapedAt false
  | [] => by simp [readMembers]
  | (key, v) :: ms => by
      rw [List.map_cons, List.forall_mem_cons, ← exists_read_iff v, ← exists_readMembers_iff ms]
      simp only [readMembers, bind_eq_ok_iff]
      constructor
      · rintro ⟨_, e, he, es, hes, -⟩
        exact ⟨⟨e, he⟩, es, hes⟩
      · rintro ⟨⟨e, he⟩, es, hes⟩
        exact ⟨(key, e) :: es, e, he, es, hes, rfl⟩

end

/-! ## Looking up -/

/-- What a walk comes to occurs in the value. -/
theorem Reaches.contains {active : ConditionSet} {value other : Exports}
    (h : value.Reaches active other) : value.Contains other := by
  induction h with
  | here value => exact .refl
  | item hmem _ ih => exact .head hmem ih
  | entry hmem _ _ ih => exact .head (List.mem_map_of_mem hmem) ih

/-- No map of subpaths occurs in the entry for a subpath: the entry lies below one or is none. -/
theorem WellShaped.noSubpaths_of_select? {e : Exports} (h : e.WellShaped) {subpath : String}
    {s : Selection} (hselect : e.select? subpath = some s) (entries : List (String × Exports)) :
    ¬ s.value.Contains (.subpaths entries) := by
  intro hpart
  rcases value_of_select? hselect with ⟨map, rfl, entry, hentry, hvalue⟩ | ⟨hnomap, hvalue⟩
  · rw [hvalue] at hpart
    have hbelow : (Exports.subpaths map).ContainsBelow (.subpaths entries) :=
      .head' (List.mem_map_of_mem hentry) hpart
    exact h.noSubpathsBelow entries hbelow
  · rw [hvalue] at hpart
    rcases Relation.reflTransGen_iff_eq_or_transGen.1 hpart with heq | hbelow
    · exact hnomap entries heq.symm
    · exact h.noSubpathsBelow entries hbelow

/-- Reading takes what a well-shaped value is written as, and gives that value. -/
theorem ofJson_eq_ok_iff {v : Json} {e : Exports} :
    ofJson v = .ok e ↔ e.toJson = v ∧ e.WellShaped := by
  rw [wellShaped_iff]
  exact read_eq_ok_iff v

/-- **Reading accepts exactly the grammar and loses nothing.** What is accepted is read to a value
    of the right shape, and writing that value gives it back, with the same keys in the same order.
    Every value of that shape is read from what it writes. Keys may even repeat. In a field that was
    read no lookup comes to a map of subpaths, since none occurs where a lookup begins to walk. -/
theorem ofJson_reads_grammar :
    (∀ v, (∃ e, ofJson v = .ok e) ↔ v.IsExports) ∧
    (∀ v e, ofJson v = .ok e → e.toJson = v ∧ e.WellShaped) ∧
    (∀ e : Exports, e.WellShaped → ofJson e.toJson = .ok e) ∧
    (∀ v e, ofJson v = .ok e → ∀ subpath s, e.select? subpath = some s →
      ∀ entries, ¬ s.value.Contains (.subpaths entries) ∧
        ∀ active, ¬ s.value.Reaches active (.subpaths entries)) := by
  refine ⟨fun v => ?_, fun v e => ofJson_eq_ok_iff.1,
    fun e hshape => ofJson_eq_ok_iff.2 ⟨rfl, hshape⟩, fun v e hv subpath s hselect entries => ?_⟩
  · rw [Json.isExports_iff]
    exact exists_read_iff v
  · have hnone := (ofJson_eq_ok_iff.1 hv).2.noSubpaths_of_select? hselect entries
    exact ⟨hnone, fun active hreach => hnone hreach.contains⟩

/-- A map of subpaths with everything that may stand in one. -/
theorem ofJson_reads_subpaths :
    let v : Json := .object
      [(".", .object
        [("types", .string "./a.d.ts"), ("default", .array [.null, .string "./a.js"])]),
       ("./internal/*", .null)]
    let value : Exports := .conditions
      [("types", .target "./a.d.ts"), ("default", .fallback [.excluded, .target "./a.js"])]
    let e : Exports := .subpaths [(".", value), ("./internal/*", .excluded)]
    v.IsExports ∧ ofJson v = .ok e ∧ (e.WellShaped ∧ e.toJson = v) ∧
    e.select? "." = some ⟨".", value, none⟩ ∧
    ∀ entries, ¬ value.Reaches (ConditionSet.ofNames ["types"]) (.subpaths entries) := by
  intro v value e
  obtain ⟨haccepts, hreads, hwrites, hlookup⟩ := ofJson_reads_grammar
  have hread : ofJson v = .ok e := rfl
  have hselect : e.select? "." = some ⟨".", value, none⟩ := rfl
  obtain ⟨hjson, hshape⟩ := hreads v e hread
  exact ⟨(haccepts v).1 ⟨e, hread⟩, hwrites e hshape, ⟨hshape, hjson⟩, hselect, fun entries =>
    (hlookup v e hread "." _ hselect entries).2 _⟩

end Exports

end TypingsAudit
