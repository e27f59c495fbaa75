import TypingsAudit.Proofs.Path

set_option autoImplicit false

/-! # What the ending of a path stands for

Three questions look at the ending of a path, each in its own way: which kind of file it is, whether
it is a declaration, and which declaration goes with it. `FileKind.endings` is one table for all of
them. No ending of the table ends with another one, so a path has at most one, and every question is
answered by the row of that one (`FileKind.ofPath_eq_iff`, `Path.counterpart?_eq_some_iff`).

The declaration that goes with a script differs from it in the ending alone. So it is of the kind that
goes with the kind of the script, and it lies in the same directory. -/

namespace TypingsAudit

namespace FileKind

/-- The endings that stand for a kind of file, each with its kind. -/
def endings : List (FileKind × String) :=
  [(.dmts, ".d.mts"), (.dcts, ".d.cts"), (.dts, ".d.ts"),
    (.js, ".js"), (.mjs, ".mjs"), (.cjs, ".cjs"), (.json, ".json")]

/-- The kind of the declarations that go with scripts of a kind. -/
def counterpart? : FileKind → Option FileKind
  | .js => some .dts
  | .mjs => some .dmts
  | .cjs => some .dcts
  | _ => none

theorem isDeclaration_of_counterpart? {kind declared : FileKind}
    (h : kind.counterpart? = some declared) : kind.isDeclaration = false := by
  cases kind with
  | js | mjs | cjs | json | other => rfl
  | dts | dmts | dcts => cases h

/-! ## One ending at most -/

theorem endings_suffix_free : ∀ row ∈ endings, ∀ other ∈ endings,
    row.2.toList <:+ other.2.toList → row = other := by
  decide

theorem eq_of_kind_eq : ∀ row ∈ endings, ∀ other ∈ endings, row.1 = other.1 → row = other := by
  decide

theorem ne_other_of_mem : ∀ row ∈ endings, row.1 ≠ .other := by
  decide

/-- A path ends with one ending of the table at most. -/
theorem eq_of_append_eq {row other : FileKind × String} (hrow : row ∈ endings)
    (hother : other ∈ endings) {stem rest : String} (h : stem ++ row.2 = rest ++ other.2) :
    row = other ∧ stem = rest := by
  have htext : stem.toList ++ row.2.toList = rest.toList ++ other.2.toList := by
    simpa using congrArg String.toList h
  have hsame : row = other := by
    rcases List.suffix_or_suffix_of_suffix ⟨stem.toList, htext⟩ ⟨rest.toList, rfl⟩ with hend | hend
    · exact endings_suffix_free row hrow other hother hend
    · exact (endings_suffix_free other hother row hrow hend).symm
  subst hsame
  exact ⟨rfl, String.toList_inj.1 (List.append_cancel_right htext)⟩

theorem endsWith_append_iff {row : FileKind × String} (hrow : row ∈ endings) (stem : String)
    (other : FileKind × String) (hother : other ∈ endings) :
    Text.endsWith other.2 (stem ++ row.2) = true ↔ row = other := by
  rw [Text.endsWith_iff]
  constructor
  · rintro ⟨rest, hrest⟩
    exact (eq_of_append_eq hrow hother hrest).1
  · rintro rfl
    exact ⟨stem, rfl⟩

/-! ## The kind of a path -/

/-- A path with an ending of the table is of its kind. -/
theorem ofPath_append {row : FileKind × String} (h : row ∈ endings) (stem : String) :
    ofPath (stem ++ row.2) = row.1 := by
  have hmts := endsWith_append_iff h stem (.dmts, ".d.mts") (by decide)
  have hcts := endsWith_append_iff h stem (.dcts, ".d.cts") (by decide)
  have hts := endsWith_append_iff h stem (.dts, ".d.ts") (by decide)
  simp only [endings, List.mem_cons, List.not_mem_nil, or_false] at h
  rw [ofPath]
  rcases h with rfl | rfl | rfl | rfl | rfl | rfl | rfl
  · simp [hmts]
  · simp [hmts, hcts]
  · simp [hmts, hcts, hts]
  all_goals simp [hmts, hcts, hts, Text.cutLast_append_cons]

/-- The ending behind the last dot of a path, with the dot. -/
theorem eq_append_of_cutLast {path ending : String} {stem name : List Char}
    (h : Text.cutLast '.' path.toList = some (stem, name)) (hending : ending.toList = '.' :: name) :
    ∃ stem, path = stem ++ ending :=
  ⟨String.ofList stem, String.toList_inj.1 (by simp [(Text.cutLast_eq_some h).1, hending])⟩

/-- A path of a known kind has an ending of the table. -/
theorem ofPath_cases (path : String) :
    ofPath path = .other ∨
      ∃ ending, (ofPath path, ending) ∈ endings ∧ ∃ stem, path = stem ++ ending := by
  fun_cases ofPath path with
  | case1 hmts => exact Or.inr ⟨".d.mts", by decide, Text.endsWith_iff.1 hmts⟩
  | case2 _ hcts => exact Or.inr ⟨".d.cts", by decide, Text.endsWith_iff.1 hcts⟩
  | case3 _ _ hts => exact Or.inr ⟨".d.ts", by decide, Text.endsWith_iff.1 hts⟩
  | case4 => exact Or.inl rfl
  | case5 _ _ _ stem hcut => exact Or.inr ⟨".js", by decide, eq_append_of_cutLast hcut rfl⟩
  | case6 _ _ _ stem hcut => exact Or.inr ⟨".mjs", by decide, eq_append_of_cutLast hcut rfl⟩
  | case7 _ _ _ stem hcut => exact Or.inr ⟨".cjs", by decide, eq_append_of_cutLast hcut rfl⟩
  | case8 _ _ _ stem hcut => exact Or.inr ⟨".json", by decide, eq_append_of_cutLast hcut rfl⟩
  | case9 => exact Or.inl rfl

/-- **The kind of a path is that of its ending.** -/
theorem ofPath_eq_iff {kind : FileKind} {ending : String} (h : (kind, ending) ∈ endings)
    {path : String} : ofPath path = kind ↔ ∃ stem, path = stem ++ ending := by
  constructor
  · intro hkind
    rcases ofPath_cases path with hother | ⟨found, hfound, hpath⟩
    · exact absurd (hkind.symm.trans hother) (ne_other_of_mem _ h)
    · rw [hkind] at hfound
      have hrow := eq_of_kind_eq _ hfound _ h rfl
      exact (Prod.mk.inj hrow).2 ▸ hpath
  · rintro ⟨stem, rfl⟩
    exact ofPath_append h stem

end FileKind

namespace Path

/-! ## The declaration that goes with a script -/

/-- The two endings of a pair are those of a kind of scripts and of the kind that goes with it. -/
theorem exists_kinds_of_pair {pair : String × String} (h : pair ∈ pairedEndings) :
    ∃ kind declared, (kind, pair.1) ∈ FileKind.endings ∧ (declared, pair.2) ∈ FileKind.endings ∧
      kind.counterpart? = some declared := by
  simp only [pairedEndings, List.mem_cons, List.not_mem_nil, or_false] at h
  rcases h with rfl | rfl | rfl
  · exact ⟨.mjs, .dmts, by decide, by decide, rfl⟩
  · exact ⟨.cjs, .dcts, by decide, by decide, rfl⟩
  · exact ⟨.js, .dts, by decide, by decide, rfl⟩

/-- Every kind that declarations go with has its pair of endings. -/
theorem exists_pair_of_kind {kind declared : FileKind} (h : kind.counterpart? = some declared) :
    ∃ pair ∈ pairedEndings, (kind, pair.1) ∈ FileKind.endings := by
  cases kind with
  | js => exact ⟨(".js", ".d.ts"), by decide, by decide⟩
  | mjs => exact ⟨(".mjs", ".d.mts"), by decide, by decide⟩
  | cjs => exact ⟨(".cjs", ".d.cts"), by decide, by decide⟩
  | dts | dmts | dcts | json | other => cases h

theorem pairedEndings_unique : ∀ pair ∈ pairedEndings, ∀ other ∈ pairedEndings,
    pair.1 = other.1 ∨ pair.2 = other.2 → pair = other := by
  decide

/-- A pair of endings of which the path has one makes the declaration from it. -/
theorem eq_append_of_findSome? {path declaration : String}
    (h : (pairedEndings.findSome? fun (script, declared) =>
      (Text.dropTail? script path).map (· ++ declared)) = some declaration) :
    ∃ pair ∈ pairedEndings, ∃ stem, path = stem ++ pair.1 ∧ declaration = stem ++ pair.2 := by
  obtain ⟨pair, hpair, h⟩ := List.exists_of_findSome?_eq_some h
  obtain ⟨stem, hstem, rfl⟩ := Option.map_eq_some_iff.1 h
  exact ⟨pair, hpair, stem, Text.dropTail?_eq_some_iff.1 hstem, rfl⟩

theorem counterpart?_append {pair : String × String} (hpair : pair ∈ pairedEndings)
    (stem : String) : counterpart? (stem ++ pair.1) = some (stem ++ pair.2) := by
  obtain ⟨kind, declared, hkind, -, hcounterpart⟩ := exists_kinds_of_pair hpair
  have hscript : isDeclaration (stem ++ pair.1) = false := by
    rw [← FileKind.isDeclaration_ofPath, FileKind.ofPath_append hkind]
    exact FileKind.isDeclaration_of_counterpart? hcounterpart
  rw [counterpart?, if_neg (by simp [hscript])]
  cases hfind : pairedEndings.findSome? fun (script, declared) =>
      (Text.dropTail? script (stem ++ pair.1)).map (· ++ declared) with
  | none =>
      have hnone := List.findSome?_eq_none_iff.1 hfind pair hpair
      have hdrop := Text.dropTail?_eq_some_iff.2 (rfl : stem ++ pair.1 = stem ++ pair.1)
      simp [hdrop] at hnone
  | some declaration =>
      -- Another pair would give the path another ending.
      obtain ⟨other, hother, rest, hpath, rfl⟩ := eq_append_of_findSome? hfind
      obtain ⟨_, _, hotherKind, -, -⟩ := exists_kinds_of_pair hother
      obtain ⟨hrow, rfl⟩ := FileKind.eq_of_append_eq hkind hotherKind hpath
      obtain rfl := pairedEndings_unique pair hpair other hother (Or.inl (Prod.mk.inj hrow).2)
      rfl

/-- **The declaration of a script is the script with the other ending of a pair.** -/
theorem counterpart?_eq_some_iff {path declaration : String} :
    counterpart? path = some declaration ↔
      ∃ pair ∈ pairedEndings, ∃ stem, path = stem ++ pair.1 ∧ declaration = stem ++ pair.2 := by
  constructor
  · intro h
    rw [counterpart?] at h
    split at h
    · cases h
    · exact eq_append_of_findSome? h
  · rintro ⟨pair, hpair, stem, rfl, rfl⟩
    exact counterpart?_append hpair stem

/-- The kind of the declaration is the one that goes with the kind of the script. -/
theorem ofPath_counterpart? (path : String) :
    (counterpart? path).map FileKind.ofPath = (FileKind.ofPath path).counterpart? := by
  cases hpath : counterpart? path with
  | some declaration =>
      obtain ⟨pair, hpair, stem, rfl, rfl⟩ := counterpart?_eq_some_iff.1 hpath
      obtain ⟨kind, declared, hkind, hdeclared, hcounterpart⟩ := exists_kinds_of_pair hpair
      rw [Option.map_some, FileKind.ofPath_append hkind, FileKind.ofPath_append hdeclared,
        hcounterpart]
  | none =>
      cases hkind : (FileKind.ofPath path).counterpart? with
      | none => rfl
      | some declared =>
          obtain ⟨pair, hpair, hending⟩ := exists_pair_of_kind hkind
          obtain ⟨stem, rfl⟩ := (FileKind.ofPath_eq_iff hending).1 rfl
          rw [counterpart?_append hpair] at hpath
          cases hpath

/-- No two scripts have one declaration. -/
theorem eq_of_counterpart?_eq {path other declaration : String}
    (hpath : counterpart? path = some declaration)
    (hother : counterpart? other = some declaration) : path = other := by
  obtain ⟨pair, hpair, stem, rfl, rfl⟩ := counterpart?_eq_some_iff.1 hpath
  obtain ⟨pair', hpair', stem', rfl, hdeclaration⟩ := counterpart?_eq_some_iff.1 hother
  obtain ⟨_, _, -, hdeclared, -⟩ := exists_kinds_of_pair hpair
  obtain ⟨_, _, -, hdeclared', -⟩ := exists_kinds_of_pair hpair'
  obtain ⟨hrow, rfl⟩ := FileKind.eq_of_append_eq hdeclared hdeclared' hdeclaration
  obtain rfl := pairedEndings_unique pair hpair pair' hpair' (Or.inr (Prod.mk.inj hrow).2)
  rfl

/-! ## The directory of a path -/

/-- An ending can stand behind the last slash of a path. -/
def IsLastPart (ending : String) : Prop :=
  ending ≠ "" ∧ '/' ∉ ending.toList

instance (ending : String) : Decidable (IsLastPart ending) :=
  inferInstanceAs (Decidable (_ ∧ _))

/-- Another ending does not change the directory. -/
theorem parent?_append_congr {ending other : String} (hending : IsLastPart ending)
    (hother : IsLastPart other) (stem : String) :
    parent? (stem ++ ending) = parent? (stem ++ other) := by
  rw [parent?, parent?, if_neg (by simp [hending.1]), if_neg (by simp [hother.1]),
    String.toList_append, String.toList_append, Text.cutLast_append hending.2,
    Text.cutLast_append hother.2]
  cases Text.cutLast '/' stem.toList <;> rfl

theorem pairedEndings_isLastPart : ∀ pair ∈ pairedEndings,
    IsLastPart pair.1 ∧ IsLastPart pair.2 := by
  decide

/-- The declaration of a script lies in the directory of the script. -/
theorem parent?_counterpart? {path declaration : String}
    (h : counterpart? path = some declaration) : parent? declaration = parent? path := by
  obtain ⟨pair, hpair, stem, rfl, rfl⟩ := counterpart?_eq_some_iff.1 h
  obtain ⟨hscript, hdeclared⟩ := pairedEndings_isLastPart pair hpair
  exact parent?_append_congr hdeclared hscript stem

/-- Paths in one directory have the same directories above them. -/
theorem ancestors_congr {path other : String} (h : parent? path = parent? other) :
    ancestors path = ancestors other := by
  cases hparent : parent? path with
  | none =>
      rw [hparent] at h
      rw [parent?_eq_none_iff.1 hparent, parent?_eq_none_iff.1 h.symm]
  | some dir => rw [ancestors_of_parent? hparent, ancestors_of_parent? (h.symm.trans hparent)]

end Path

end TypingsAudit
