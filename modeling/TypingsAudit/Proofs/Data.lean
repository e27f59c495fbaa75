import Mathlib.Data.List.Nodup
import Mathlib.Logic.Relation

set_option autoImplicit false

/-! # Results, lists and texts

Facts that are not about packages: about results that may be missing or an error, about relations,
lists and the sizes of texts. -/

namespace TypingsAudit

/-! ## Results -/

theorem bind_eq_ok_iff {ε α β : Type} {x : Except ε α} {step : α → Except ε β} {b : β} :
    (x >>= step) = .ok b ↔ ∃ a, x = .ok a ∧ step a = .ok b := by
  cases x <;> simp [bind, Except.bind]

theorem mapError_eq_ok_iff {ε ε' α : Type} {x : Except ε α} {f : ε → ε'} {a : α} :
    x.mapError f = .ok a ↔ x = .ok a := by
  cases x <;> simp [Except.mapError]

/-- What is the same with either of two defaults is the same without. -/
theorem eq_of_getD_eq {α : Type} {a b : Option α} {x y : α} (hne : x ≠ y)
    (hx : a.getD x = b.getD x) (hy : a.getD y = b.getD y) : a = b := by
  cases a <;> cases b <;> simp_all

/-! ## Relations -/

/-- What is reached is reached in one step, or behind one. -/
theorem forall_transGen_iff {α : Type} {r : α → α → Prop} {P : α → Prop} {a : α} :
    (∀ x, Relation.TransGen r a x → P x) ↔
      ∀ b, r a b → P b ∧ ∀ x, Relation.TransGen r b x → P x := by
  constructor
  · intro h b hab
    exact ⟨h b (.single hab), fun x hbx => h x (.head hab hbx)⟩
  · intro h x hax
    obtain ⟨b, hab, hbx⟩ := Relation.TransGen.head'_iff.1 hax
    rcases Relation.reflTransGen_iff_eq_or_transGen.1 hbx with rfl | hbx
    · exact (h x hab).1
    · exact (h b hab).2 x hbx

/-! ## Lists -/

theorem exists_prefix_cons {α : Type} {first : α} {rest : List α} {P : List α → Prop} :
    (∃ front, front <+: first :: rest ∧ P front) ↔
      P [] ∨ ∃ front, front <+: rest ∧ P (first :: front) := by
  constructor
  · rintro ⟨front, hfront, h⟩
    rcases List.prefix_cons_iff.1 hfront with rfl | ⟨more, rfl, hmore⟩
    · exact Or.inl h
    · exact Or.inr ⟨more, hmore, h⟩
  · rintro (h | ⟨front, hfront, h⟩)
    · exact ⟨[], List.nil_prefix, h⟩
    · exact ⟨first :: front, List.prefix_cons_iff.2 (Or.inr ⟨front, rfl, hfront⟩), h⟩

/-- Where a list with one more element is cut in front of an element, this is the new one or the cut
    is in the old list. -/
theorem concat_eq_append_cons_iff {α : Type} {list front back : List α} {last x : α} :
    list ++ [last] = front ++ x :: back ↔
      back = [] ∧ list = front ∧ last = x ∨
        ∃ between, back = between ++ [last] ∧ list = front ++ x :: between := by
  constructor
  · intro h
    rcases List.eq_nil_or_concat back with rfl | ⟨between, other, rfl⟩
    · obtain ⟨hlist, hlast⟩ := List.append_inj' h rfl
      exact Or.inl ⟨rfl, hlist, by simpa using hlast⟩
    · rw [List.concat_eq_append, ← List.cons_append, ← List.append_assoc] at h
      obtain ⟨hlist, hlast⟩ := List.append_inj' h rfl
      obtain rfl : last = other := by simpa using hlast
      exact Or.inr ⟨between, List.concat_eq_append .., hlist⟩
  · rintro (⟨rfl, rfl, rfl⟩ | ⟨between, rfl, rfl⟩)
    · rfl
    · simp

/-- An item that stands in the outcome of a selective map comes from one item of the list. -/
theorem filterMap_eq_append_cons_iff {α β : Type} {f : α → Option β} {items : List α} {y : β}
    {front back : List β} :
    items.filterMap f = front ++ y :: back ↔
      ∃ before item after, items = before ++ item :: after ∧ before.filterMap f = front ∧
        f item = some y ∧ after.filterMap f = back := by
  constructor
  · intro h
    obtain ⟨before, rest, rfl, hfront, hrest⟩ := List.filterMap_eq_append_iff.1 h
    obtain ⟨skipped, item, after, rfl, hskipped, hitem, hback⟩ := List.filterMap_eq_cons_iff.1 hrest
    refine ⟨before ++ skipped, item, after, by simp, ?_, hitem, hback⟩
    rw [List.filterMap_append, hfront, List.filterMap_eq_nil_iff.2 hskipped, List.append_nil]
  · rintro ⟨before, item, after, rfl, rfl, hitem, rfl⟩
    rw [List.filterMap_append, List.filterMap_cons_some hitem]

/-- What is written one by one is read back one by one. -/
theorem mapM_map_eq_some {α β : Type} {read : β → Option α} {write : α → β} (items : List α)
    (h : ∀ a, read (write a) = some a) : (items.map write).mapM read = some items := by
  induction items with
  | nil => rfl
  | cons a as ih => simp [List.mapM_cons, h, ih]

/-- Where the keys are distinct, the first entry with the key of an entry is that entry. -/
theorem find?_fst_of_nodup {κ α : Type} [BEq κ] [LawfulBEq κ] {entries : List (κ × α)}
    {entry : κ × α} (hnodup : (entries.map (·.1)).Nodup) (hmem : entry ∈ entries) :
    entries.find? (·.1 == entry.1) = some entry := by
  cases hfind : entries.find? (·.1 == entry.1) with
  | none => exact absurd (List.find?_eq_none.1 hfind entry hmem) (by simp)
  | some other =>
      have hkey : other.1 = entry.1 := by simpa using List.find?_some hfind
      rw [List.inj_on_of_nodup_map hnodup (List.mem_of_find?_eq_some hfind) hmem hkey]

theorem nodup_eraseDups {α : Type} [BEq α] [LawfulBEq α] (items : List α) :
    items.eraseDups.Nodup := by
  match items with
  | [] => simp
  | a :: rest =>
      rw [List.eraseDups_cons, List.nodup_cons, List.mem_eraseDups]
      refine ⟨fun hmem => ?_, nodup_eraseDups _⟩
      simp at hmem
  termination_by items.length
  decreasing_by
    exact Nat.lt_succ_of_le (List.length_filter_le ..)

theorem eraseDups_of_nodup {α : Type} [BEq α] [LawfulBEq α] {items : List α} (h : items.Nodup) :
    items.eraseDups = items := by
  induction items with
  | nil => rfl
  | cons item rest ih =>
      obtain ⟨hitem, hrest⟩ := List.nodup_cons.1 h
      have hkept : rest.filter (fun other => !other == item) = rest := by
        refine List.filter_eq_self.2 fun other hother => ?_
        have hne : other ≠ item := fun heq => hitem (heq ▸ hother)
        simpa using hne
      rw [List.eraseDups_cons, hkept, ih hrest]

/-! ## A stable sort of a sorted list and one more item -/

section Sorting

variable {α : Type} {le : α → α → Bool} (trans : ∀ a b c, le a b → le b c → le a c)
  (total : ∀ a b, le a b || le b a)
include trans total

/-- An item that may come before all others stays at the front. -/
theorem mergeSort_cons_of_le {a : α} {items : List α} (h : ∀ b ∈ items, le a b) :
    (a :: items).mergeSort le = a :: items.mergeSort le := by
  obtain ⟨front, back, hcons, hitems, hfront⟩ := List.mergeSort_cons trans total a items
  cases front with
  | nil => rw [hcons, hitems, List.nil_append, List.nil_append]
  | cons b front =>
      have hmem : b ∈ items.mergeSort le := by
        rw [hitems]
        exact List.mem_append_left _ (List.mem_cons_self ..)
      have hb := hfront b (List.mem_cons_self ..)
      rw [h b (List.mem_mergeSort.1 hmem)] at hb
      exact absurd hb (by decide)

/-- The last item goes to the front of a sorted list when no other one may come before it. -/
theorem mergeSort_concat_of_not_le {u : α} {items : List α} (hsorted : items.Pairwise (le · ·))
    (h : ∀ x ∈ items, ¬ le x u) : (items ++ [u]).mergeSort le = u :: items := by
  induction items with
  | nil => simp
  | cons x rest ih =>
      obtain ⟨front, back, hcons, hrest, hfront⟩ :=
        List.mergeSort_cons trans total x (rest ++ [u])
      rw [List.pairwise_cons] at hsorted
      rw [ih hsorted.2 fun y hy => h y (List.mem_cons_of_mem _ hy)] at hrest
      have hx : ¬ le x u := h x (List.mem_cons_self ..)
      rw [List.cons_append, hcons]
      cases front with
      | nil =>
          -- Then `x` would be in front of `u` in a sorted list.
          have hle := List.pairwise_mergeSort trans total (x :: (rest ++ [u]))
          rw [List.nil_append] at hrest
          rw [hcons, List.nil_append, List.pairwise_cons, ← hrest] at hle
          exact absurd (hle.1 u (List.mem_cons_self ..)) hx
      | cons b front =>
          obtain ⟨rfl, hback⟩ := List.cons.inj hrest
          cases front with
          | nil => rw [hback]; rfl
          | cons c front =>
              have hc := hfront c (List.mem_cons_of_mem _ (List.mem_cons_self ..))
              rw [hsorted.1 c (hback ▸ List.mem_cons_self ..)] at hc
              exact absurd hc (by decide)

/-- **A stable sort moves the last item of an otherwise sorted list and nothing else.** It comes to
    stand in front of the first item that may not come before it. -/
theorem mergeSort_append_singleton {u : α} {front back : List α}
    (hsorted : (front ++ back).Pairwise (le · ·)) (hfront : ∀ x ∈ front, le x u)
    (hback : ∀ x ∈ back, ¬ le x u) :
    (front ++ back ++ [u]).mergeSort le = front ++ u :: back := by
  induction front with
  | nil => exact mergeSort_concat_of_not_le trans total hsorted hback
  | cons a front ih =>
      rw [List.cons_append, List.pairwise_cons] at hsorted
      have hle : ∀ b ∈ front ++ back ++ [u], le a b := by
        intro b hb
        rcases List.mem_append.1 hb with hb | hb
        · exact hsorted.1 b hb
        · rw [List.mem_singleton.1 hb]
          exact hfront a (List.mem_cons_self ..)
      rw [List.cons_append, List.cons_append, mergeSort_cons_of_le trans total hle,
        ih hsorted.2 fun x hx => hfront x (List.mem_cons_of_mem _ hx), List.cons_append]

end Sorting

/-! ## Texts -/

/-- A text is taken apart by the size of its first part. -/
theorem Text.eq_of_append_eq {a b c d : String} (h : a ++ b = c ++ d)
    (hsize : a.utf8ByteSize = c.utf8ByteSize) : a = c ∧ b = d := by
  have hempty : ∀ {s t : String} {more : List Char}, t = s ++ String.ofList more →
      s.utf8ByteSize = t.utf8ByteSize → more = [] := by
    intro s t more ht hst
    rw [ht, String.utf8ByteSize_append] at hst
    have hzero : String.ofList more = "" := String.utf8ByteSize_eq_zero_iff.1 (by omega)
    simpa using congrArg String.toList hzero
  have hlists : a.toList ++ b.toList = c.toList ++ d.toList := by
    rw [← String.toList_append, h, String.toList_append]
  rcases List.append_eq_append_iff.1 hlists with ⟨more, hc, hb⟩ | ⟨more, ha, hd⟩
  · have hmore : more = [] :=
      hempty (String.toList_inj.1 (by rw [hc, String.toList_append, String.toList_ofList])) hsize
    rw [hmore] at hc hb
    exact ⟨String.toList_inj.1 (by simpa using hc.symm), String.toList_inj.1 (by simpa using hb)⟩
  · have hmore : more = [] :=
      hempty (String.toList_inj.1 (by rw [ha, String.toList_append, String.toList_ofList]))
        hsize.symm
    rw [hmore] at ha hd
    exact ⟨String.toList_inj.1 (by simpa using ha), String.toList_inj.1 (by simpa using hd.symm)⟩

end TypingsAudit
