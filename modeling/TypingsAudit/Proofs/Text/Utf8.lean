import TypingsAudit.Text.Utf8

set_option autoImplicit false

/-! # Texts and their bytes

The bytes of a text are those of its characters, one after the other (`Bytes.ofString_ofList`), and
strict reading takes them apart again: one step reads back the bytes of one character
(`Utf8.step_encode`), so reading the bytes of a text gives the text (`Utf8.decode?_ofString`).

The ranges that a leading byte sets for the second one are met because a character has the shortest
form and is no surrogate. -/

namespace TypingsAudit

namespace Bytes

/-- Collecting the bytes of an array from an index on. -/
theorem toList_loop (bytes : ByteArray) (i : Nat) (acc : List UInt8) :
    ByteArray.toList.loop bytes i acc = acc.reverse ++ bytes.data.toList.drop i := by
  fun_induction ByteArray.toList.loop bytes i acc with
  | case1 i acc hlt ih =>
      have hi : i < bytes.data.toList.length := by simpa using hlt
      rw [ih, List.drop_eq_getElem_cons hi]
      simp [ByteArray.get!, hlt]
  | case2 i acc hge =>
      rw [List.drop_of_length_le (by simpa using hge), List.append_nil]

theorem ofString_ofList (cs : List Char) :
    ofString (String.ofList cs) = cs.flatMap String.utf8EncodeChar := by
  rw [ofString, String.toUTF8, ByteArray.toList, toList_loop, String.toByteArray_ofList,
    List.utf8Encode, List.data_toByteArray]
  simp

theorem ofString_eq_flatMap (s : String) :
    ofString s = s.toList.flatMap String.utf8EncodeChar := by
  rw [← ofString_ofList, String.ofList_toList]

@[simp]
theorem ofString_append (s t : String) : ofString (s ++ t) = ofString s ++ ofString t := by
  simp [ofString_eq_flatMap]

end Bytes

namespace Utf8

/-! ## One character -/

theorem toNat_add {x y : Nat} (h : x + y < 256) : (UInt8.ofNat (x + y)).toNat = x + y :=
  UInt8.toNat_ofNat_of_lt' h

theorem continuation_cons {n acc x : Nat} (hx : x < 64) (bs : Bytes) :
    continuation (n + 1) acc (UInt8.ofNat (x + 128) :: bs) = continuation n (acc * 64 + x) bs := by
  simp only [continuation, UInt8.le_iff_toNat_le, toNat_add (show x + 128 < 256 by omega),
    UInt8.reduceToNat]
  rw [if_pos (by omega), Nat.add_sub_cancel]

theorem narrowed_cons {low high : UInt8} {n acc x : Nat} (hx : x < 64)
    (hlow : low.toNat ≤ x + 128) (hhigh : x + 128 ≤ high.toNat) (bs : Bytes) :
    narrowed low high n acc (UInt8.ofNat (x + 128) :: bs) = continuation n (acc * 64 + x) bs := by
  simp only [narrowed, UInt8.le_iff_toNat_le, toNat_add (show x + 128 < 256 by omega)]
  rw [if_pos ⟨hlow, hhigh⟩, Nat.add_sub_cancel]

theorem step_one {x : Nat} (hx : x < 128) (bs : Bytes) : step (UInt8.ofNat x) bs = (some x, bs) := by
  have hb : (UInt8.ofNat x).toNat = x := toNat_add (y := 0) (by omega)
  simp only [step, UInt8.le_iff_toNat_le, hb, UInt8.reduceToNat]
  rw [if_pos (by omega)]

/-- A character of two bytes. -/
theorem step_two {x y : Nat} (hlow : 2 ≤ x) (hx : x < 32) (hy : y < 64) (bs : Bytes) :
    step (UInt8.ofNat (x + 192)) (UInt8.ofNat (y + 128) :: bs) = (some (x * 64 + y), bs) := by
  simp only [step, UInt8.le_iff_toNat_le, toNat_add (show x + 192 < 256 by omega),
    UInt8.reduceToNat]
  rw [if_neg (by omega), if_pos (by omega), Nat.add_sub_cancel, continuation_cons hy, continuation]

/-- A character of three bytes that has no shorter form and is no surrogate. -/
theorem step_three {x y z : Nat} (hx : x < 16) (hy : y < 64) (hz : z < 64) (hlong : x = 0 → 32 ≤ y)
    (hplain : x = 13 → y < 32) (bs : Bytes) :
    step (UInt8.ofNat (x + 224)) (UInt8.ofNat (y + 128) :: UInt8.ofNat (z + 128) :: bs)
      = (some ((x * 64 + y) * 64 + z), bs) := by
  have hb : (UInt8.ofNat (x + 224)).toNat = x + 224 := toNat_add (by omega)
  simp only [step, UInt8.le_iff_toNat_le, ← UInt8.toNat_inj, hb, UInt8.reduceToNat]
  rw [if_neg (by omega), if_neg (by omega)]
  split
  · next h =>
    obtain rfl : x = 0 := by omega
    rw [narrowed_cons hy (by simp; omega) (by simp; omega), continuation_cons hz, continuation]
  · split
    · next h =>
      obtain rfl : x = 13 := by omega
      rw [narrowed_cons hy (by simp) (by simp; omega), continuation_cons hz, continuation]
    · rw [if_pos (by omega), narrowed_cons hy (by simp) (by simp; omega), continuation_cons hz,
        continuation, Nat.add_sub_cancel]

/-- A character of four bytes that has no shorter form and is in range. -/
theorem step_four {w x y z : Nat} (hx : x < 64) (hy : y < 64) (hz : z < 64)
    (hlong : w = 0 → 16 ≤ x) (hrange : w < 4 ∨ w = 4 ∧ x < 16) (bs : Bytes) :
    step (UInt8.ofNat (w + 240))
        (UInt8.ofNat (x + 128) :: UInt8.ofNat (y + 128) :: UInt8.ofNat (z + 128) :: bs)
      = (some (((w * 64 + x) * 64 + y) * 64 + z), bs) := by
  have hb : (UInt8.ofNat (w + 240)).toNat = w + 240 := toNat_add (by omega)
  simp only [step, UInt8.le_iff_toNat_le, ← UInt8.toNat_inj, hb, UInt8.reduceToNat]
  rw [if_neg (by omega), if_neg (by omega), if_neg (by omega), if_neg (by omega),
    if_neg (by omega)]
  split
  · next h =>
    obtain rfl : w = 0 := by omega
    rw [narrowed_cons hx (by simp; omega) (by simp; omega), continuation_cons hy,
      continuation_cons hz, continuation]
  · split
    · rw [narrowed_cons hx (by simp) (by simp; omega), continuation_cons hy, continuation_cons hz,
        continuation, Nat.add_sub_cancel]
    · obtain rfl : w = 4 := by omega
      rw [if_pos rfl, narrowed_cons hx (by simp) (by simp; omega), continuation_cons hy,
        continuation_cons hz, continuation]

/-- **One step reads back the bytes of one character.** -/
theorem step_encode (c : Char) :
    ∃ b bs, String.utf8EncodeChar c = b :: bs ∧
      ∀ rest, step b (bs ++ rest) = (some c.toNat, rest) := by
  -- A code point is out of the range of the surrogates, and below `0x110000`.
  have hvalid : c.toNat < 0xD800 ∨ 0xDFFF < c.toNat ∧ c.toNat < 0x110000 := c.valid
  have hval : c.val.toNat = c.toNat := rfl
  simp only [String.utf8EncodeChar, hval]
  split
  · exact ⟨_, _, rfl, fun rest => step_one (by omega) rest⟩
  split
  · refine ⟨_, _, rfl, fun rest => (step_two (by omega) (by omega) (by omega) rest).trans ?_⟩
    congr 2
    omega
  split
  · refine ⟨_, _, rfl, fun rest =>
      (step_three (by omega) (by omega) (by omega) (by omega) (by omega) rest).trans ?_⟩
    congr 2
    omega
  · refine ⟨_, _, rfl, fun rest =>
      (step_four (by omega) (by omega) (by omega) (by omega) (by omega) rest).trans ?_⟩
    congr 2
    omega

/-! ## A whole text -/

theorem decodeChars?_cons {b : UInt8} {bs rest : Bytes} {code : Nat}
    (h : step b bs = (some code, rest)) :
    decodeChars? (b :: bs) = (decodeChars? rest).map (Char.ofNat code :: ·) := by
  rw [decodeChars?]
  split
  · next heq _ =>
    rw [h] at heq
    obtain ⟨hcode, rfl⟩ := Prod.mk.inj heq
    rw [Option.some.inj hcode]
  · next heq _ => exact absurd (h.symm.trans heq) (by simp)

theorem decodeChars?_encode (cs : List Char) :
    decodeChars? (cs.flatMap String.utf8EncodeChar) = some cs := by
  induction cs with
  | nil => simp [decodeChars?]
  | cons c cs ih =>
      obtain ⟨b, bs, hbytes, hstep⟩ := step_encode c
      rw [List.flatMap_cons, hbytes, List.cons_append, decodeChars?_cons (hstep _), ih,
        Option.map_some, Char.ofNat_toNat]

/-- **Reading the bytes of a text gives the text.** -/
theorem decode?_ofString (s : String) : decode? (Bytes.ofString s) = some s := by
  rw [decode?, Bytes.ofString_eq_flatMap, decodeChars?_encode, Option.map_some,
    String.ofList_toList]

end Utf8

end TypingsAudit
