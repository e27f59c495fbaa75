import Mathlib.Logic.Relation
import TypingsAudit.Manifest
import TypingsAudit.Proofs.Json.Keys

set_option autoImplicit false

/-! # What a manifest is read for

A manifest is refused only for what it is as a whole and for its `exports` field
(`Manifest.Rejected`). Everything else in it may be malformed, which is as good as leaving it out.

`Manifest.Edits` lists what may be done to the members of an object without a change in what is
read: putting them in another order, leaving out one that says nothing (`Manifest.SaysNothing`), and
changing `typesVersions` where nobody looks (`TypesVersions.Trims`). Two objects are
`Manifest.Alike` when such edits lead from one to the other, in both directions and any number of
them.

The proofs go through lookups. Every field is read by looking its key up and taking what can be made
of the value, and neither half of that sees an edit: where keys are distinct, the order of the
members does not matter to a lookup (`Json.Members.get?_perm`), and what is left out is something of
which nothing can be made. -/

namespace TypingsAudit

/-! ## Members with distinct keys -/

namespace Json.Members

variable {members others front back : Members} {key field : String} {value value' : Json}

theorem get?_eq_none_iff : members.get? key = none ↔ key ∉ members.map (·.1) := by
  simp only [get?, Option.map_eq_none_iff, List.find?_eq_none, beq_iff_eq, List.mem_map, not_exists,
    not_and]

/-- A key that occurs once has the value it stands with. -/
theorem get?_eq_some_iff (hnodup : (members.map (·.1)).Nodup) :
    members.get? key = some value ↔ (key, value) ∈ members := by
  induction members with
  | nil => simp [get?]
  | cons member rest ih =>
      obtain ⟨other, v⟩ := member
      rw [List.map_cons, List.nodup_cons] at hnodup
      obtain ⟨hnew, hrest⟩ := hnodup
      by_cases hkey : other = key
      · subst hkey
        have hold : (other, value) ∉ rest := fun hmem => hnew (List.mem_map.2 ⟨_, hmem, rfl⟩)
        simp [get?, hold, @eq_comm _ v]
      · have hnot : ((key, value) : String × Json) ≠ (other, v) := fun h =>
          hkey (Prod.mk.inj h).1.symm
        rw [List.mem_cons, or_iff_right hnot, ← ih hrest]
        simp [get?, hkey]

/-- The order of the members does not matter to a lookup. -/
theorem get?_perm (hnodup : (members.map (·.1)).Nodup) (h : members.Perm others) (key : String) :
    members.get? key = others.get? key := by
  have hnodup' : (others.map (·.1)).Nodup := (h.map _).nodup_iff.1 hnodup
  ext value
  rw [get?_eq_some_iff hnodup, get?_eq_some_iff hnodup', h.mem_iff]

theorem get?_append (front back : Members) (key : String) :
    get? (front ++ back) key = (front.get? key).or (back.get? key) := by
  rw [get?, List.find?_append, Option.map_or]
  rfl

/-- A member in the middle is what a lookup of its key comes to, and of no other. -/
theorem get?_append_cons (hnodup : ((front ++ (key, value) :: back).map (·.1)).Nodup)
    (field : String) :
    get? (front ++ (key, value) :: back) field
      = if key = field then some value else get? (front ++ back) field := by
  split
  · next hkey =>
      subst hkey
      exact (get?_eq_some_iff hnodup).2 (by simp)
  · next hkey =>
      rw [get?_append, get?_append]
      simp [get?, hkey]

/-- Leaving the member out leaves its key without a value. -/
theorem get?_append_of_nodup (hnodup : ((front ++ (key, value) :: back).map (·.1)).Nodup) :
    get? (front ++ back) key = none := by
  have hmiddle : ((key, value) :: (front ++ back)).map (·.1)
      |>.Nodup := ((List.perm_middle.map _).nodup_iff.1 hnodup)
  rw [List.map_cons, List.nodup_cons] at hmiddle
  exact get?_eq_none_iff.2 hmiddle.1

section
variable {α : Type} {read : Json → Option α}

/-- Leaving out a member of which a field can make nothing leaves the field as it is. -/
theorem bind_get?_drop (hnodup : ((front ++ (key, value) :: back).map (·.1)).Nodup)
    (h : key = field → read value = none) :
    (get? (front ++ (key, value) :: back) field).bind read
      = (get? (front ++ back) field).bind read := by
  rw [get?_append_cons hnodup]
  split
  · next hkey =>
      subst hkey
      rw [get?_append_of_nodup hnodup, Option.bind_some, Option.bind_none, h rfl]
  · rfl

/-- Another value of which a field makes the same leaves the field as it is. -/
theorem bind_get?_replace (hnodup : ((front ++ (key, value) :: back).map (·.1)).Nodup)
    (h : key = field → read value = read value') :
    (get? (front ++ (key, value) :: back) field).bind read
      = (get? (front ++ (key, value') :: back) field).bind read := by
  have hnodup' : ((front ++ (key, value') :: back).map (·.1)).Nodup := by simpa using hnodup
  rw [get?_append_cons hnodup, get?_append_cons hnodup']
  split
  · next hkey => exact h hkey
  · rfl

end

end Json.Members

/-! ## The value of `typesVersions` -/

namespace TypesVersions

/-- What may be done to the value of `typesVersions`: leave out an entry of the first range whose
    targets are neither a text nor an array, leave out an item of an array that is no text, and
    change all that is behind the first range. -/
inductive Trims : Json → Json → Prop
  | entry {range pattern : String} {targets : Json} {front back later : Json.Members}
      (hstring : ∀ s, targets ≠ .string s) (harray : ∀ items, targets ≠ .array items) :
      Trims (.object ((range, .object (front ++ (pattern, targets) :: back)) :: later))
        (.object ((range, .object (front ++ back)) :: later))
  | item {range pattern : String} {item : Json} {before after : List Json}
      {front back later : Json.Members} (hitem : ∀ s, item ≠ .string s) :
      Trims
        (.object ((range, .object
          (front ++ (pattern, .array (before ++ item :: after)) :: back)) :: later))
        (.object ((range, .object
          (front ++ (pattern, .array (before ++ after)) :: back)) :: later))
  | later {range : String} {mapping : Json} {later later' : Json.Members} :
      Trims (.object ((range, mapping) :: later)) (.object ((range, mapping) :: later'))

theorem targets?_eq_none {targets : Json} (hstring : ∀ s, targets ≠ .string s)
    (harray : ∀ items, targets ≠ .array items) : targets? targets = none := by
  cases targets with
  | string s => exact absurd rfl (hstring s)
  | array items => exact absurd rfl (harray items)
  | null | bool _ | number _ | object _ => rfl

/-- The same is read before and after. -/
theorem Trims.ofJson?_eq {value value' : Json} (h : Trims value value') :
    ofJson? value = ofJson? value' := by
  cases h with
  | entry hstring harray => simp [ofJson?, targets?_eq_none hstring harray]
  | item hitem => simp [ofJson?, targets?, Json.string?_eq_none hitem]
  | @later range mapping later later' => cases mapping <;> rfl

theorem ofJson?_eq_none {value : Json}
    (h : ∀ range mapping later, value ≠ .object ((range, .object mapping) :: later)) :
    ofJson? value = none := by
  unfold ofJson?
  split
  · next range mapping later => exact absurd rfl (h range mapping later)
  · rfl

end TypesVersions

theorem PackageType.ofJson?_eq_none {value : Json} (hmodule : value ≠ .string "module")
    (hcommonjs : value ≠ .string "commonjs") : ofJson? value = none := by
  cases value with
  | string s =>
      show ofName? s = none
      unfold ofName?
      split
      · exact absurd rfl hmodule
      · exact absurd rfl hcommonjs
      · rfl
  | null | bool _ | number _ | array _ | object _ => rfl

/-! ## Members that say nothing -/

namespace Manifest

/-- The fields whose value is a text. -/
def textFields : List String :=
  ["name", "version", "main", "module", "types", "typings"]

/-- All fields that are read. -/
def fields : List String :=
  ["type", "typesVersions", "exports"] ++ textFields

/-- The member says nothing: there is no field of its name, or its value is malformed. -/
inductive SaysNothing : String × Json → Prop
  | unknown {key : String} {value : Json} (h : key ∉ fields) : SaysNothing (key, value)
  | text {key : String} {value : Json} (hkey : key ∈ textFields)
      (h : ∀ s, value ≠ .string s) : SaysNothing (key, value)
  | type {value : Json} (hmodule : value ≠ .string "module")
      (hcommonjs : value ≠ .string "commonjs") : SaysNothing ("type", value)
  | typesVersions {value : Json}
      (h : ∀ range mapping later, value ≠ .object ((range, .object mapping) :: later)) :
      SaysNothing ("typesVersions", value)

namespace SaysNothing

variable {key : String} {value : Json} (h : SaysNothing (key, value))
include h

theorem string?_eq_none (hkey : key ∈ textFields) : value.string? = none := by
  cases h with
  | unknown hunknown => exact absurd (List.mem_append_right _ hkey) hunknown
  | text _ htext => exact Json.string?_eq_none htext
  | type => exact absurd hkey (by decide)
  | typesVersions => exact absurd hkey (by decide)

theorem packageType?_eq_none (hkey : key = "type") : PackageType.ofJson? value = none := by
  cases h with
  | unknown hunknown => exact absurd (hkey ▸ by decide) hunknown
  | text htext _ => exact absurd (hkey ▸ htext) (by decide)
  | type hmodule hcommonjs => exact PackageType.ofJson?_eq_none hmodule hcommonjs
  | typesVersions => exact absurd hkey (by decide)

theorem typesVersions?_eq_none (hkey : key = "typesVersions") :
    TypesVersions.ofJson? value = none := by
  cases h with
  | unknown hunknown => exact absurd (hkey ▸ by decide) hunknown
  | text htext _ => exact absurd (hkey ▸ htext) (by decide)
  | type => exact absurd hkey (by decide)
  | typesVersions hmapping => exact TypesVersions.ofJson?_eq_none hmapping

/-- `exports` always says something. -/
theorem ne_exports : key ≠ "exports" := by
  intro hkey
  cases h with
  | unknown hunknown => exact hunknown (hkey ▸ by decide)
  | text htext _ => exact absurd (hkey ▸ htext) (by decide)
  | type => exact absurd hkey (by decide)
  | typesVersions => exact absurd hkey (by decide)

end SaysNothing

/-! ## Edits -/

/-- An edit of the members of a manifest. -/
inductive Edits : Json.Members → Json.Members → Prop
  | reorder {members others : Json.Members} (h : members.Perm others) : Edits members others
  | drop {member : String × Json} {front back : Json.Members} (h : SaysNothing member) :
      Edits (front ++ member :: back) (front ++ back)
  | trim {value value' : Json} {front back : Json.Members} (h : TypesVersions.Trims value value') :
      Edits (front ++ ("typesVersions", value) :: back) (front ++ ("typesVersions", value') :: back)

/-- Edits, made or taken back, lead from one object to the other. All objects on the way have
    distinct keys. -/
def Alike : Json.Members → Json.Members → Prop :=
  Relation.EqvGen fun members others => (members.map (·.1)).Nodup ∧ Edits members others

/-- A field is read alike: what `read` makes of its value in one object it makes of the value in the
    other. -/
def ReadsAlike {α : Type} (read : Json → Option α) (field : String)
    (members others : Json.Members) : Prop :=
  (members.get? field).bind read = (others.get? field).bind read

/-- All fields are read alike. -/
structure SameFields (members others : Json.Members) : Prop where
  texts : ∀ field ∈ textFields, ReadsAlike Json.string? field members others
  type : ReadsAlike PackageType.ofJson? "type" members others
  exports : ReadsAlike some "exports" members others
  typesVersions : ReadsAlike TypesVersions.ofJson? "typesVersions" members others

variable {members others : Json.Members}

/-- A manifest is no more than its fields. -/
theorem SameFields.ofJson_eq (h : SameFields members others) :
    ofJson (.object members) = ofJson (.object others) := by
  have htext : ∀ field ∈ textFields, text? members field = text? others field := h.texts
  have hexports : readExports members = readExports others := by
    have hget : members.get? "exports" = others.get? "exports" := by
      simpa [ReadsAlike] using h.exports
    rw [readExports, readExports, hget]
  have htype : _ = _ := h.type
  have hversions : _ = _ := h.typesVersions
  simp only [ofJson, hexports, htype, hversions, htext "name" (by decide),
    htext "version" (by decide), htext "main" (by decide), htext "module" (by decide),
    htext "types" (by decide), htext "typings" (by decide)]

/-- Whatever the reader, an edit that it does not see in any value is one that it does not see. -/
theorem Edits.readsAlike {α : Type} {read : Json → Option α} {field : String}
    (h : Edits members others) (hnodup : (members.map (·.1)).Nodup)
    (hdrop : ∀ value, SaysNothing (field, value) → read value = none)
    (htrim : ∀ value value', field = "typesVersions" → TypesVersions.Trims value value' →
      read value = read value') : ReadsAlike read field members others := by
  cases h with
  | reorder hperm => rw [ReadsAlike, Json.Members.get?_perm hnodup hperm]
  | @drop member front back hnothing =>
      obtain ⟨key, value⟩ := member
      exact Json.Members.bind_get?_drop hnodup fun hkey => hdrop value (hkey ▸ hnothing)
  | trim hvalue =>
      exact Json.Members.bind_get?_replace hnodup fun hkey => htrim _ _ hkey.symm hvalue

/-- One edit changes no field. -/
theorem Edits.sameFields (h : Edits members others) (hnodup : (members.map (·.1)).Nodup) :
    SameFields members others where
  texts field hfield :=
    h.readsAlike hnodup (fun _ hnothing => hnothing.string?_eq_none hfield)
      fun _ _ hkey => absurd (hkey ▸ hfield) (by decide)
  type :=
    h.readsAlike hnodup (fun _ hnothing => hnothing.packageType?_eq_none rfl)
      fun _ _ hkey => absurd hkey (by decide)
  exports :=
    h.readsAlike hnodup (fun _ hnothing => absurd rfl hnothing.ne_exports)
      fun _ _ hkey => absurd hkey (by decide)
  typesVersions :=
    h.readsAlike hnodup (fun _ hnothing => hnothing.typesVersions?_eq_none rfl)
      fun _ _ _ hvalue => hvalue.ofJson?_eq

/-- Any number of edits changes nothing of what is read. -/
theorem Alike.ofJson_eq (h : Alike members others) :
    ofJson (.object members) = ofJson (.object others) := by
  induction h with
  | rel _ _ hedit => exact (hedit.2.sameFields hedit.1).ofJson_eq
  | refl _ => rfl
  | symm _ _ _ ih => exact ih.symm
  | trans _ _ _ _ _ ihfirst ihsecond => exact ihfirst.trans ihsecond

/-! ## Refused manifests -/

/-- Why a value is refused. -/
inductive Rejected : Json → Error → Prop
  | notAnObject {v : Json} (h : ∀ members, v ≠ .object members) : Rejected v .notAnObject
  | badExports {members : Json.Members} {value : Json} {error : Exports.ShapeError}
      (hmember : ("exports", value) ∈ members) (h : Exports.ofJson value = .error error) :
      Rejected (.object members) (.badExports error)

theorem readExports_eq_error_iff {error : Error} :
    readExports members = .error error ↔
      ∃ value cause, members.get? "exports" = some value ∧ Exports.ofJson value = .error cause ∧
        error = .badExports cause := by
  unfold readExports
  cases members.get? "exports" with
  | none => simp
  | some value =>
      cases hexports : Exports.ofJson value with
      | ok e => simp [hexports]
      | error cause => simp [hexports, eq_comm]

/-- An object is refused for its `exports` and for nothing else. -/
theorem ofJson_object_eq_error_iff {error : Error} :
    ofJson (.object members) = .error error ↔ readExports members = .error error := by
  simp only [ofJson, bind, Except.bind]
  cases readExports members <;> simp

theorem ofJson_eq_error_iff {v : Json} (hkeys : v.DistinctKeys) {error : Error} :
    ofJson v = .error error ↔ Rejected v error := by
  constructor
  · intro h
    cases v with
    | object members =>
        rw [ofJson_object_eq_error_iff, readExports_eq_error_iff] at h
        obtain ⟨value, cause, hget, hcause, rfl⟩ := h
        have hnodup := (Json.distinctKeys_object.1 hkeys).1
        exact .badExports ((Json.Members.get?_eq_some_iff hnodup).1 hget) hcause
    | null | bool _ | number _ | string _ | array _ =>
        obtain rfl := Except.error.inj h
        exact .notAnObject (by simp)
  · rintro (h | ⟨hmember, hcause⟩)
    · cases v with
      | object members => exact absurd rfl (h members)
      | null | bool _ | number _ | string _ | array _ => rfl
    · rw [ofJson_object_eq_error_iff, readExports_eq_error_iff]
      have hnodup := (Json.distinctKeys_object.1 hkeys).1
      exact ⟨_, _, (Json.Members.get?_eq_some_iff hnodup).2 hmember, hcause, rfl⟩

/-- **Malformed fields are as good as absent.** A value is refused when it is no object or when its
    `exports` cannot be read, and not for anything else. What is read of an object, or the reason to
    refuse it, stays what it is when its members are put in another order, when members that say
    nothing are added or left out, and when the value of `typesVersions` is changed where nothing is
    read of it. -/
theorem malformed_as_good_as_absent :
    (∀ v : Json, v.DistinctKeys → ∀ error, ofJson v = .error error ↔ Rejected v error) ∧
    ∀ members others, Alike members others →
      ofJson (.object members) = ofJson (.object others) :=
  ⟨fun _ hkeys _ => ofJson_eq_error_iff hkeys, fun _ _ h => h.ofJson_eq⟩

/-- A manifest with a broken field of every sort reads like a clean one in another order, and an
    `exports` that is neither a path nor a choice of paths is refused. -/
theorem broken_fields_read_as_absent :
    ofJson (.object [("main", .string "m.js"), ("types", .null), ("type", .string "esm"),
        ("keywords", .array []), ("typings", .string "a.d.ts"),
        ("typesVersions", .object
          [(">=4", .object [("a", .null), ("b", .array [.string "x", .null])]), ("*", .null)])])
      = .ok
        { name := none, version := none, type := none, main := some "m.js", module := none
          types := some "a.d.ts", exports := none
          typesVersions := some { range := ">=4", paths := [("b", ["x"])] } } ∧
    ofJson (.object [("exports", .bool true)])
      = .error (.badExports (.unsupported (.bool true))) := by
  constructor
  · have hedit {members others : Json.Members} (hnodup : (members.map (·.1)).Nodup)
        (h : Edits members others) : Alike members others := .rel _ _ ⟨hnodup, h⟩
    have hclean : ofJson (.object [("typings", .string "a.d.ts"), ("main", .string "m.js"),
        ("typesVersions", .object [(">=4", .object [("b", .array [.string "x"])])])]) = .ok _ := rfl
    refine (malformed_as_good_as_absent.2 _ _ ?_).trans hclean
    refine .trans _ _ _ (hedit (by decide) (@Edits.drop _ [_] _ (.text (by decide) (by simp)))) ?_
    refine .trans _ _ _ (hedit (by decide) (@Edits.drop _ [_] _ (.type (by simp) (by simp)))) ?_
    refine .trans _ _ _ (hedit (by decide) (@Edits.drop _ [_] _ (.unknown (by decide)))) ?_
    refine .trans _ _ _ (hedit (by decide) (@Edits.trim _ _ [_, _] _
      (@TypesVersions.Trims.entry _ _ _ [] _ _ (by simp) (by simp)))) ?_
    refine .trans _ _ _ (hedit (by decide) (@Edits.trim _ _ [_, _] _
      (@TypesVersions.Trims.item _ _ _ [_] _ [] _ _ (by simp)))) ?_
    refine .trans _ _ _ (hedit (by decide) (@Edits.trim _ _ [_, _] _
      (@TypesVersions.Trims.later _ _ _ []))) ?_
    exact hedit (by decide) (.reorder (.swap _ _ _))
  · refine (malformed_as_good_as_absent.1 _ (by simp) _).2 ?_
    exact .badExports (List.mem_singleton.2 rfl) rfl

end Manifest

end TypingsAudit
