import TypingsAudit.Json.Parser
import TypingsAudit.Proofs.Data
import TypingsAudit.Proofs.Json.Parts

set_option autoImplicit false

/-! # Keys of the objects that are read

An object of a JSON text may write a key twice. Its value is then the last one that was written, in
the place of the first, so that what is read has no key twice in one object
(`Json.distinctKeys_of_parse`). Everything that goes by the keys of an object relies on this. -/

namespace TypingsAudit

namespace Json

namespace Reader

/-- What is read by `item` has distinct keys. -/
def ReadsDistinct (item : Bytes → Except Failure (Json × Bytes)) : Prop :=
  ∀ bs v rest, item bs = .ok (v, rest) → v.DistinctKeys

variable {item : Bytes → Except Failure (Json × Bytes)}

theorem distinctKeys_of_items (hitem : ReadsDistinct item) {fuel : Nat} {first : Bool}
    {acc : List Json} {bs : Bytes} {v : Json} {rest : Bytes} (hacc : ∀ a ∈ acc, a.DistinctKeys)
    (h : items item fuel first acc bs = .ok (v, rest)) : v.DistinctKeys := by
  induction fuel generalizing first acc bs with
  | zero => exact absurd h (by simp [items, broken])
  | succ fuel ih =>
      -- After one more item, the rest of the array is read as before.
      have hnext : ∀ {bs : Bytes},
          (item bs >>= fun read => items item fuel false (read.1 :: acc) read.2) = .ok (v, rest) →
            v.DistinctKeys := by
        intro bs h
        obtain ⟨⟨a, after⟩, ha, h⟩ := bind_eq_ok_iff.1 h
        refine ih (fun b hb => ?_) h
        rcases List.mem_cons.1 hb with rfl | hb
        · exact hitem bs b after ha
        · exact hacc b hb
      unfold items at h
      split at h
      · exact absurd h (by simp [expected])
      · next b more _ =>
          split_ifs at h
          · obtain ⟨rfl, -⟩ := Prod.mk.inj (Except.ok.inj h)
            rw [distinctKeys_array]
            simpa using hacc
          · exact hnext h
          · split at h
            · exact absurd h (by simp [expected])
            · split_ifs at h
              · exact absurd h (by simp [expected])
              · exact hnext h
          · exact absurd h (by simp [expected])

theorem distinctKeys_of_member (hitem : ReadsDistinct item) {bs : Bytes} {m : String × Json}
    {rest : Bytes} (h : member item bs = .ok (m, rest)) : m.2.DistinctKeys := by
  unfold member at h
  obtain ⟨⟨key, after⟩, -, h⟩ := bind_eq_ok_iff.1 h
  dsimp only at h
  split at h
  · exact absurd h (by simp [expected])
  · next b more _ =>
      split_ifs at h
      · obtain ⟨⟨v, end_⟩, hv, h⟩ := bind_eq_ok_iff.1 h
        obtain ⟨rfl, -⟩ := Prod.mk.inj (Except.ok.inj h)
        exact hitem more v end_ hv
      · exact absurd h (by simp [expected])

theorem distinctKeys_of_members (hitem : ReadsDistinct item) {fuel : Nat} {first : Bool}
    {acc : Members} {bs : Bytes} {v : Json} {rest : Bytes} (hacc : DistinctKeys (.object acc))
    (h : members item fuel first acc bs = .ok (v, rest)) : v.DistinctKeys := by
  induction fuel generalizing first acc bs with
  | zero => exact absurd h (by simp [members, broken])
  | succ fuel ih =>
      have hnext : ∀ {bs : Bytes},
          (member item bs >>= fun read =>
            members item fuel false (acc.insert read.1.1 read.1.2) read.2) = .ok (v, rest) →
          v.DistinctKeys := by
        intro bs h
        obtain ⟨⟨⟨key, a⟩, after⟩, ha, h⟩ := bind_eq_ok_iff.1 h
        exact ih (distinctKeys_insert hacc key (distinctKeys_of_member hitem ha)) h
      unfold members at h
      split at h
      · exact absurd h (by simp [expected])
      · next b more _ =>
          split_ifs at h
          · obtain ⟨rfl, -⟩ := Prod.mk.inj (Except.ok.inj h)
            exact hacc
          · exact hnext h
          · exact absurd h (by simp [expected])
          · split at h
            · exact absurd h (by simp [expected])
            · split_ifs at h
              · exact hnext h
              · exact absurd h (by simp [expected])
              · exact absurd h (by simp [expected])
          · exact absurd h (by simp [expected])

/-- A word stands for one value. -/
theorem eq_of_word {a v : Json} {letters bs rest : Bytes} (h : word a letters bs = .ok (v, rest)) :
    v = a := by
  induction letters generalizing bs with
  | nil =>
      obtain ⟨rfl, -⟩ := Prod.mk.inj (Except.ok.inj h)
      rfl
  | cons letter letters ih =>
      cases bs with
      | nil => exact absurd h (by simp [word, broken])
      | cons b bs =>
          rw [word] at h
          split at h
          · exact ih h
          · exact absurd h (by simp [broken])

/-- Whatever the depth, the values that are read have distinct keys. -/
theorem readsDistinct_value (depth : Nat) : ReadsDistinct (value depth) := by
  induction depth with
  | zero => exact fun bs v rest h => absurd h (by simp [value, expected])
  | succ depth ih =>
      intro bs v rest h
      -- A value without parts is read by a reader of its own and wrapped.
      have hplain : ∀ {α : Type} {x : Except Failure (α × Bytes)} {wrap : α → Json},
          (∀ a, (wrap a).DistinctKeys) →
          (x >>= fun read => .ok (wrap read.1, read.2)) = .ok (v, rest) → v.DistinctKeys := by
        intro α x wrap hwrap h
        obtain ⟨⟨a, after⟩, -, h⟩ := bind_eq_ok_iff.1 h
        obtain ⟨rfl, -⟩ := Prod.mk.inj (Except.ok.inj h)
        exact hwrap a
      unfold value at h
      split at h
      · exact absurd h (by simp [expected])
      · next b more _ =>
          split_ifs at h
          · exact eq_of_word h ▸ distinctKeys_null
          · exact eq_of_word h ▸ distinctKeys_bool true
          · exact eq_of_word h ▸ distinctKeys_bool false
          · exact hplain distinctKeys_number h
          · exact hplain distinctKeys_number h
          · exact hplain distinctKeys_string h
          · exact absurd h (by simp [expected])
          · exact distinctKeys_of_items ih (by simp) h
          · exact absurd h (by simp [expected])
          · exact distinctKeys_of_members ih (by simp) h
          · exact absurd h (by simp [expected])

end Reader

/-- **No object that is read has a key twice.** -/
theorem distinctKeys_of_parse {text : Bytes} {v : Json} (h : parse text = .ok v) :
    v.DistinctKeys := by
  obtain ⟨⟨a, after⟩, hread, h⟩ := bind_eq_ok_iff.1 (mapError_eq_ok_iff.1 h)
  obtain rfl : a = v := by
    dsimp only at h
    split at h
    · exact Except.ok.inj h
    · exact absurd h (by simp [Reader.expected])
  exact Reader.readsDistinct_value depthLimit text a after hread

end Json

end TypingsAudit
