import TypingsAudit.EntryPoint
import TypingsAudit.Proofs.Data
import TypingsAudit.Proofs.Exports.Grammar
import TypingsAudit.Proofs.Json.Keys

set_option autoImplicit false

/-! # Listing and looking up

`EntryPoint.ofManifest` lists what a package exports, and `Exports.lookup` finds it. The two go
through the map of subpaths on their own: one by the keys and whether a value is excluded, the other
by an equal key first and then by patterns. `Exports.enumeration_agrees_with_lookup` says that they
agree.

All of it rests on the keys of an object being distinct (`Json.DistinctKeys`), which they are in all
that is parsed (`Manifest.exists_json_of_parse`): were a key there twice, the value that is listed
need not be the one that is found. -/

namespace TypingsAudit

namespace Exports

variable {e value : Exports} {entries : List (String × Exports)} {subpath : String}
  {active : ConditionSet}

/-! ## The entry for a subpath -/

/-- The entry for a key is the one with that key: no pattern comes before it. -/
theorem select?_of_mem_subpaths (hnodup : (entries.map (·.1)).Nodup)
    (hmem : (subpath, value) ∈ entries) :
    (Exports.subpaths entries).select? subpath = some ⟨subpath, value, none⟩ := by
  have hfind : entries.find? (·.1 == subpath) = some (subpath, value) :=
    find?_fst_of_nodup hnodup hmem
  simp only [select?, hfind]

/-- The entry for a subpath has that key, or else its key is a pattern for the subpath. -/
theorem mem_of_select?_subpaths {s : Selection}
    (h : (Exports.subpaths entries).select? subpath = some s) :
    (s.key, s.value) ∈ entries ∧
      (s.key = subpath ∨
        isPatternKey s.key = true ∧ (Star.match? s.key subpath).isSome = true) := by
  simp only [select?] at h
  split at h
  · next key value hfind =>
      obtain rfl := Option.some.inj h
      have hkey : key = subpath := by simpa using List.find?_some hfind
      exact ⟨List.mem_of_find?_eq_some hfind, Or.inl hkey⟩
  · have hmem := (mem_of_best h).resolve_left (by simp)
    obtain ⟨entry, hentry, hmatch⟩ := List.mem_filterMap.1 hmem
    obtain ⟨hpattern, star, hstar, -, rfl⟩ := patternMatch?_eq_some_iff.1 hmatch
    exact ⟨hentry, Or.inr ⟨hpattern, by simp only [hstar, Option.isSome_some]⟩⟩

theorem lookup_of_select? {s : Selection} (h : e.select? subpath = some s) :
    e.lookup subpath active = (walk active s.star s.value).outcome := by
  simp only [lookup, h]

/-- An excluded entry is as good as none. -/
theorem lookup_of_isExcluded {s : Selection} (h : e.select? subpath = some s)
    (hvalue : s.value.isExcluded = true) : e.lookup subpath active = .notExported := by
  rw [lookup_of_select? h]
  cases hshape : s.value with
  | excluded => rfl
  | target _ | fallback _ | conditions _ | subpaths _ =>
      rw [hshape] at hvalue
      exact absurd hvalue (by simp [isExcluded])

/-- What is no map of subpaths is the entry for the package root. -/
theorem select?_rootSubpath (h : ∀ map, value ≠ .subpaths map) :
    value.select? rootSubpath = some ⟨rootSubpath, value, none⟩ := by
  cases value with
  | subpaths map => exact absurd rfl (h map)
  | target _ | excluded | fallback _ | conditions _ => rfl

/-! ## Keys that were read -/

/-- The subpaths that a field names are distinct. -/
theorem nodup_subpathEntries {v : Json} (hkeys : v.DistinctKeys) (hread : ofJson v = .ok e) :
    (e.subpathEntries.map (·.1)).Nodup := by
  obtain ⟨rfl, -⟩ := ofJson_eq_ok_iff.1 hread
  cases e with
  | subpaths entries =>
      rw [toJson, Json.distinctKeys_object, map_fst_toJsonEntries] at hkeys
      exact hkeys.1
  | target _ | excluded | fallback _ | conditions _ => exact List.nodup_singleton _

/-- The values at the subpaths of a field are no maps of subpaths themselves. -/
theorem WellShaped.value_ne_subpaths (h : e.WellShaped)
    (hmem : (subpath, value) ∈ e.subpathEntries) (map : List (String × Exports)) :
    value ≠ .subpaths map := by
  rintro rfl
  cases e with
  | subpaths entries =>
      have hpart : Exports.subpaths map ∈ (Exports.subpaths entries).parts :=
        List.mem_map_of_mem hmem
      exact h.noSubpathsBelow map (.single hpart)
  | target _ | excluded | fallback _ | conditions _ => simp [subpathEntries] at hmem

end Exports

/-- The field of a manifest that was parsed was read from a value with distinct keys. -/
theorem Manifest.exists_json_of_parse {text : Bytes} {manifest : Manifest} {e : Exports}
    (hparse : Manifest.parse text = .ok manifest) (hexports : manifest.exports = some e) :
    ∃ v : Json, v.DistinctKeys ∧ Exports.ofJson v = .ok e := by
  unfold Manifest.parse at hparse
  split at hparse
  · next value hvalue =>
      have hkeys := Json.distinctKeys_of_parse hvalue
      cases value with
      | object members =>
          obtain ⟨field, hfield, hmanifest⟩ := bind_eq_ok_iff.1 hparse
          rw [← Except.ok.inj hmanifest] at hexports
          rw [show field = some e from hexports] at hfield
          unfold readExports at hfield
          split at hfield
          · exact absurd hfield (by simp)
          · next v hmember =>
              obtain ⟨member, hfind, rfl⟩ := Option.map_eq_some_iff.1 hmember
              have hown := (Json.distinctKeys_object.1 hkeys).2 member
                (List.mem_of_find?_eq_some hfind)
              split at hfield
              · next e' hread =>
                  obtain rfl : e' = e := Option.some.inj (Except.ok.inj hfield)
                  exact ⟨member.2, hown, hread⟩
              · exact absurd hfield (by simp)
      | null | bool _ | number _ | string _ | array _ => exact absurd hparse (by simp [ofJson])
  · exact absurd hparse (by simp)

/-! ## Entry points -/

namespace EntryPoint

theorem mem_exportedSubpaths_iff {entries : List (String × Exports)} {subpath : String} :
    subpath ∈ exportedSubpaths entries ↔
      subpath ≠ manifestSubpath ∧
        ∃ value, (subpath, value) ∈ entries ∧ value.isExcluded = false := by
  constructor
  · intro h
    obtain ⟨⟨key, value⟩, hentry, rfl⟩ := List.mem_map.1 h
    obtain ⟨hmem, hkept⟩ := List.mem_filter.1 hentry
    simp only [Bool.and_eq_true, bne_iff_ne, Bool.not_eq_true'] at hkept
    exact ⟨hkept.1, value, hmem, hkept.2⟩
  · rintro ⟨hne, value, hmem, hvalue⟩
    refine List.mem_map.2 ⟨(subpath, value), List.mem_filter.2 ⟨hmem, ?_⟩, rfl⟩
    simp [hne, hvalue]

/-- The listed subpaths are those that the field names, some of them left out. -/
theorem subpaths_sublist {manifest : Manifest} {e : Exports} (h : manifest.exports = some e) :
    (subpaths manifest).Sublist (e.subpathEntries.map (·.1)) := by
  simp only [subpaths, h]
  cases e with
  | subpaths entries => exact (List.filter_sublist ..).map _
  | target _ | excluded | fallback _ | conditions _ => exact List.Sublist.refl _

/-- Where nothing is named twice, every subpath is an entry point as it is. -/
theorem map_subpath_ofManifest {manifest : Manifest} (h : (subpaths manifest).Nodup)
    (kinds : List ResolutionKind) :
    (ofManifest manifest kinds).map (·.subpath) = subpaths manifest := by
  have hsubpath : EntryPoint.subpath ∘ ofSubpath kinds = id := rfl
  rw [ofManifest, List.map_map, hsubpath, List.map_id, eraseDups_of_nodup h]

end EntryPoint

namespace Exports

/-- Every listed subpath has its own value as the entry, with no pattern in between. -/
theorem select?_of_mem_listed {e : Exports} (hnodup : (e.subpathEntries.map (·.1)).Nodup)
    {manifest : Manifest} (hexports : manifest.exports = some e) {subpath : String}
    (h : subpath ∈ EntryPoint.subpaths manifest) :
    ∃ value, (subpath, value) ∈ e.subpathEntries ∧
      e.select? subpath = some ⟨subpath, value, none⟩ := by
  simp only [EntryPoint.subpaths, hexports] at h
  cases e with
  | subpaths entries =>
      obtain ⟨-, value, hmem, -⟩ := EntryPoint.mem_exportedSubpaths_iff.1 h
      exact ⟨value, hmem, select?_of_mem_subpaths hnodup hmem⟩
  | target _ | excluded | fallback _ | conditions _ =>
      obtain rfl := List.mem_singleton.1 h
      exact ⟨_, List.mem_singleton_self _, select?_rootSubpath (by simp)⟩

/-- What is neither listed nor matched by what is listed is not exported, but for the manifest. -/
theorem lookup_of_not_listed {e : Exports} {manifest : Manifest}
    (hexports : manifest.exports = some e) {subpath : String} {active : ConditionSet}
    (hlisted : subpath ∉ EntryPoint.subpaths manifest)
    (hmanifest : subpath ≠ EntryPoint.manifestSubpath)
    (hmatch : ∀ key ∈ EntryPoint.subpaths manifest, Star.match? key subpath = none) :
    e.lookup subpath active = .notExported := by
  simp only [EntryPoint.subpaths, hexports] at hlisted hmatch
  cases hselect : e.select? subpath with
  | none => simp only [lookup, hselect]
  | some s =>
      cases e with
      | subpaths entries =>
          obtain ⟨hmem, hkey⟩ := mem_of_select?_subpaths hselect
          cases hvalue : s.value.isExcluded with
          | true => exact lookup_of_isExcluded hselect hvalue
          | false =>
              -- Then the key of the entry would be listed.
              have hkeyListed : s.key ≠ EntryPoint.manifestSubpath →
                  s.key ∈ EntryPoint.exportedSubpaths entries := fun hne =>
                EntryPoint.mem_exportedSubpaths_iff.2 ⟨hne, s.value, hmem, hvalue⟩
              rcases hkey with rfl | ⟨hpattern, hsome⟩
              · exact absurd (hkeyListed hmanifest) hlisted
              · have hne : s.key ≠ EntryPoint.manifestSubpath := by
                  intro heq
                  rw [heq] at hpattern
                  exact absurd hpattern (by decide)
                rw [hmatch s.key (hkeyListed hne)] at hsome
                exact absurd hsome (by simp)
      | target _ | excluded | fallback _ | conditions _ =>
          simp only [select?] at hselect
          split at hselect
          · next heq => exact absurd (List.mem_singleton.2 heq) hlisted
          · exact absurd hselect (by simp)

/-- **What is listed is what is found.** For a field that was read, each listed subpath, a pattern
    or not, is looked up by the value at its own key and without a `*` (by the whole field where that
    is no map), as that value would be at the package root; other patterns do not come into it. The
    listed subpaths are distinct and in the order of the keys. Any other subpath that no listed key
    matches is not exported, but for the manifest, which is never listed. -/
theorem enumeration_agrees_with_lookup {v : Json} (hkeys : v.DistinctKeys) {e : Exports}
    (hread : ofJson v = .ok e) {manifest : Manifest} (hexports : manifest.exports = some e)
    (kinds : List ResolutionKind) (active : ConditionSet) :
    let listed := (EntryPoint.ofManifest manifest kinds).map (·.subpath)
    (∀ subpath ∈ listed, ∃ value, (subpath, value) ∈ e.subpathEntries ∧
      e.select? subpath = some ⟨subpath, value, none⟩ ∧
      e.lookup subpath active = value.lookup rootSubpath active ∧
      e.lookup subpath active = (subpaths [(rootSubpath, value)]).lookup rootSubpath active) ∧
    (listed.Nodup ∧ listed.Sublist (e.subpathEntries.map (·.1))) ∧
    (∀ subpath, subpath ∉ listed → subpath ≠ EntryPoint.manifestSubpath →
      (∀ key ∈ listed, Star.match? key subpath = none) →
      e.lookup subpath active = .notExported) := by
  intro listed
  have hnodup := nodup_subpathEntries hkeys hread
  have hshape := (ofJson_eq_ok_iff.1 hread).2
  have hsub := EntryPoint.subpaths_sublist hexports
  have hlisted : listed = EntryPoint.subpaths manifest :=
    EntryPoint.map_subpath_ofManifest (hnodup.sublist hsub) kinds
  rw [hlisted]
  refine ⟨fun subpath hsubpath => ?_, ⟨hnodup.sublist hsub, hsub⟩,
    fun subpath hother hmanifest hmatch => lookup_of_not_listed hexports hother hmanifest hmatch⟩
  obtain ⟨value, hmem, hselect⟩ := select?_of_mem_listed hnodup hexports hsubpath
  have hroot : value.select? rootSubpath = some ⟨rootSubpath, value, none⟩ :=
    select?_rootSubpath (hshape.value_ne_subpaths hmem)
  have hmap : (subpaths [(rootSubpath, value)]).select? rootSubpath
      = some ⟨rootSubpath, value, none⟩ :=
    select?_of_mem_subpaths (List.nodup_singleton _) (List.mem_singleton_self _)
  refine ⟨value, hmem, hselect, ?_, ?_⟩
  · rw [lookup_of_select? hselect, lookup_of_select? hroot]
  · rw [lookup_of_select? hselect, lookup_of_select? hmap]

/-- A map with keys of every sort: a literal one, patterns that overlap with it, excluded ones and
    the manifest. -/
theorem overlapping_keys_agree :
    let v : Json := .object
      [("./*", .string "./lib/*.js"), ("./a", .object [("node", .string "./a.js")]),
       ("./internal", .null), ("./internal/*", .null),
       ("./package.json", .string "./package.json")]
    let value : Exports := .conditions [("node", .target "./a.js")]
    let e : Exports := .subpaths
      [("./*", .target "./lib/*.js"), ("./a", value), ("./internal", .excluded),
       ("./internal/*", .excluded), ("./package.json", .target "./package.json")]
    let manifest : Manifest := ⟨none, none, none, none, none, none, some e, none⟩
    let listed := (EntryPoint.ofManifest manifest ResolutionKind.all).map (·.subpath)
    let active := ConditionSet.ofNames ["node"]
    v.DistinctKeys ∧ ofJson v = .ok e ∧ manifest.exports = some e ∧
    listed = ["./*", "./a"] ∧ listed.Nodup ∧
    e.select? "./a" = some ⟨"./a", value, none⟩ ∧ e.lookup "./a" active = value.lookup "." active ∧
    e.lookup "." active = .notExported := by
  intro v value e manifest listed active
  have hkeys : v.DistinctKeys := by simp [v]
  have hread : ofJson v = .ok e := rfl
  have hexports : manifest.exports = some e := rfl
  have hlisted : listed = ["./*", "./a"] := by decide +kernel
  have hself : "./a" ∈ listed := by rw [hlisted]; decide
  have hroot : "." ∉ listed := by rw [hlisted]; decide
  have hmatch : ∀ key ∈ listed, Star.match? key "." = none := by rw [hlisted]; decide
  obtain ⟨hfound, ⟨hnodup, -⟩, hother⟩ :=
    enumeration_agrees_with_lookup hkeys hread hexports ResolutionKind.all active
  obtain ⟨own, hmem, hselect, hlookup, -⟩ := hfound "./a" hself
  have hown : e.select? "./a" = some ⟨"./a", value, none⟩ := rfl
  obtain ⟨rfl⟩ : own = value := congrArg Selection.value (Option.some.inj (hselect.symm.trans hown))
  exact ⟨hkeys, hread, hexports, hlisted, hnodup, hown, hlookup,
    hother "." hroot (by decide) hmatch⟩

end Exports

end TypingsAudit
