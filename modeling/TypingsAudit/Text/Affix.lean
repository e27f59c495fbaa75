set_option autoImplicit false

/-! # Affixes of a text

Taking known text off the front or the end of a text, and cutting a text at a character. All of it
works on lists of characters, where each operation is characterised by one equation on `++`. -/

namespace TypingsAudit.Text

/-- What follows the characters `front` in `s`, when `s` starts with them. -/
def afterFront? : List Char → List Char → Option (List Char)
  | [], s => some s
  | _ :: _, [] => none
  | c :: front, d :: s => if c = d then afterFront? front s else none

/-- What precedes the characters `tail` in `s`, when `s` ends with them. -/
def beforeTail? (tail s : List Char) : Option (List Char) :=
  (afterFront? tail.reverse s.reverse).map List.reverse

/-- What follows `front` in `s`, when `s` starts with it. -/
def dropFront? (front s : String) : Option String :=
  (afterFront? front.toList s.toList).map String.ofList

/-- What precedes `tail` in `s`, when `s` ends with it. -/
def dropTail? (tail s : String) : Option String :=
  (beforeTail? tail.toList s.toList).map String.ofList

/-- Whether `s` ends with `tail`. -/
def endsWith (tail s : String) : Bool :=
  tail.toList.isSuffixOf s.toList

/-- Whether `s` starts with `front`. -/
def startsWith (front s : String) : Bool :=
  front.toList.isPrefixOf s.toList

/-- The characters before and after the first `c`. -/
def cutFirst (c : Char) : List Char → Option (List Char × List Char)
  | [] => none
  | d :: ds => if d = c then some ([], ds) else (cutFirst c ds).map fun (a, b) => (d :: a, b)

/-- The characters before and after the last `c`. -/
def cutLast (c : Char) : List Char → Option (List Char × List Char)
  | [] => none
  | d :: ds =>
    match cutLast c ds with
    | some (a, b) => some (d :: a, b)
    | none => if d = c then some ([], ds) else none

/-- Every `c` of the text replaced by the characters `by`. -/
def replaceChar (c : Char) (with_ : List Char) (s : List Char) : List Char :=
  s.flatMap fun d => if d = c then with_ else [d]

/-- The number of bytes the characters take in UTF-8. -/
def utf8Length (s : List Char) : Nat :=
  s.foldr (fun c size => c.utf8Size + size) 0

theorem afterFront?_eq_some_iff {front s t : List Char} :
    afterFront? front s = some t ↔ s = front ++ t := by
  induction front generalizing s with
  | nil => simp [afterFront?, eq_comm]
  | cons x xs ih =>
    cases s with
    | nil => simp [afterFront?]
    | cons y ys =>
      simp only [afterFront?, List.cons_append, List.cons.injEq]
      split
      · next h => simp [h, ih]
      · next h => simp [Ne.symm h]

theorem startsWith_iff {front s : String} :
    startsWith front s = true ↔ ∃ rest, s = front ++ rest := by
  rw [startsWith, List.isPrefixOf_iff_prefix]
  constructor
  · rintro ⟨rest, hrest⟩
    exact ⟨String.ofList rest, String.toList_inj.1 (by simp [hrest])⟩
  · rintro ⟨rest, rfl⟩
    exact ⟨rest.toList, by simp⟩

theorem dropFront?_eq_some_iff {front s rest : String} :
    dropFront? front s = some rest ↔ s = front ++ rest := by
  rw [dropFront?, Option.map_eq_some_iff]
  constructor
  · rintro ⟨chars, hchars, rfl⟩
    exact String.toList_inj.1 (by simp [afterFront?_eq_some_iff.1 hchars])
  · rintro rfl
    exact ⟨rest.toList, afterFront?_eq_some_iff.2 (by simp), by simp⟩

theorem beforeTail?_eq_some_iff {tail s t : List Char} :
    beforeTail? tail s = some t ↔ s = t ++ tail := by
  simp only [beforeTail?, Option.map_eq_some_iff, afterFront?_eq_some_iff]
  constructor
  · rintro ⟨r, hr, rfl⟩
    have := congrArg List.reverse hr
    simpa using this
  · rintro rfl
    exact ⟨t.reverse, by simp, by simp⟩

theorem dropTail?_eq_some_iff {tail s stem : String} :
    dropTail? tail s = some stem ↔ s = stem ++ tail := by
  rw [dropTail?, Option.map_eq_some_iff]
  constructor
  · rintro ⟨chars, hchars, rfl⟩
    exact String.toList_inj.1 (by simp [beforeTail?_eq_some_iff.1 hchars])
  · rintro rfl
    exact ⟨stem.toList, beforeTail?_eq_some_iff.2 (by simp), by simp⟩

theorem endsWith_iff {tail s : String} : endsWith tail s = true ↔ ∃ stem, s = stem ++ tail := by
  rw [endsWith, List.isSuffixOf_iff_suffix]
  constructor
  · rintro ⟨stem, hstem⟩
    exact ⟨String.ofList stem, String.toList_inj.1 (by simp [hstem])⟩
  · rintro ⟨stem, rfl⟩
    exact ⟨stem.toList, by simp⟩

theorem cutFirst_eq_some {c : Char} {s a b : List Char} (h : cutFirst c s = some (a, b)) :
    s = a ++ c :: b ∧ c ∉ a := by
  induction s generalizing a with
  | nil => simp [cutFirst] at h
  | cons d ds ih =>
    simp only [cutFirst] at h
    split at h
    · next hd => simp_all
    · next hd =>
      simp only [Option.map_eq_some_iff, Prod.exists, Prod.mk.injEq] at h
      obtain ⟨a', b', hab, rfl, rfl⟩ := h
      obtain ⟨rfl, hn⟩ := ih hab
      simp [hn, Ne.symm hd]

/-- The first occurrence cuts. -/
theorem cutFirst_append_cons {c : Char} {a : List Char} (h : c ∉ a) (b : List Char) :
    cutFirst c (a ++ c :: b) = some (a, b) := by
  induction a with
  | nil => simp [cutFirst]
  | cons d a ih =>
      rw [List.mem_cons, not_or] at h
      rw [List.cons_append, cutFirst, if_neg (Ne.symm h.1), ih h.2]
      rfl

theorem cutFirst_eq_none_iff {c : Char} {s : List Char} : cutFirst c s = none ↔ c ∉ s := by
  induction s with
  | nil => simp [cutFirst]
  | cons d ds ih =>
    simp only [cutFirst]
    split
    · next hd => simp [hd]
    · next hd => simp [ih, Ne.symm hd]

theorem cutLast_eq_none_iff {c : Char} {s : List Char} : cutLast c s = none ↔ c ∉ s := by
  induction s with
  | nil => simp [cutLast]
  | cons d ds ih =>
    simp only [cutLast, List.mem_cons]
    cases hds : cutLast c ds with
    | some p =>
      have : c ∈ ds := Decidable.not_not.1 fun hn => by simp [ih.2 hn] at hds
      simp [this]
    | none =>
      by_cases hd : d = c
      · simp [hd]
      · simp [hd, ih.1 hds, Ne.symm hd]

theorem cutLast_eq_some {c : Char} {s a b : List Char} (h : cutLast c s = some (a, b)) :
    s = a ++ c :: b ∧ c ∉ b := by
  induction s generalizing a with
  | nil => simp [cutLast] at h
  | cons d ds ih =>
    simp only [cutLast] at h
    cases hds : cutLast c ds with
    | some p =>
      obtain ⟨a', b'⟩ := p
      simp only [hds, Option.some.injEq, Prod.mk.injEq] at h
      obtain ⟨rfl, rfl⟩ := h
      obtain ⟨rfl, hn⟩ := ih hds
      simp [hn]
    | none =>
      simp only [hds] at h
      split at h
      · next hd =>
        simp only [Option.some.injEq, Prod.mk.injEq] at h
        obtain ⟨rfl, rfl⟩ := h
        simp [hd, cutLast_eq_none_iff.1 hds]
      · simp at h

/-- The last `c` is the one behind which there is no other. -/
theorem cutLast_append_cons {c : Char} {b : List Char} (h : c ∉ b) (a : List Char) :
    cutLast c (a ++ c :: b) = some (a, b) := by
  induction a with
  | nil => simp [cutLast, cutLast_eq_none_iff.2 h]
  | cons d ds ih => simp [cutLast, ih]

/-- A text without `c` does not move the last one. -/
theorem cutLast_append {c : Char} {tail : List Char} (h : c ∉ tail) (s : List Char) :
    cutLast c (s ++ tail) = (cutLast c s).map fun (a, b) => (a, b ++ tail) := by
  induction s with
  | nil => simp [cutLast, cutLast_eq_none_iff.2 h]
  | cons d ds ih =>
    simp only [List.cons_append, cutLast, ih]
    cases cutLast c ds with
    | some p => simp
    | none => by_cases hd : d = c <;> simp [hd]

end TypingsAudit.Text
