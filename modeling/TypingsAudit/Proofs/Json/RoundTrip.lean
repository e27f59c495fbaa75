import TypingsAudit.Json.Parser
import TypingsAudit.Json.Printer
import TypingsAudit.Proofs.Text.Utf8

set_option autoImplicit false

/-! # Reading what was written

A value without numbers is read back from its layout over several lines (`Json.parse_pretty`). The
reader takes the layout apart piece by piece, so each piece is read back whatever stands behind it:
a character of a string (`Reader.stringBytes_escaped`), a string (`Reader.string_escaped`), the items
of an array (`Reader.items_more`), the members of an object (`Reader.members_more`), a value
(`Reader.value_prettyAt`).

Fuel only bounds rounds that read a byte each, and a layout has more bytes than it needs rounds. -/

namespace TypingsAudit.Json

/-- Values that a text can hold: without numbers, each key of an object once, and at most `depth`
    containers inside each other. -/
inductive Textual : Nat → Json → Prop
  | null {depth : Nat} : Textual depth .null
  | bool {depth : Nat} (b : Bool) : Textual depth (.bool b)
  | string {depth : Nat} (s : String) : Textual depth (.string s)
  | array {depth : Nat} {items : List Json} (hitems : ∀ v ∈ items, Textual depth v) :
      Textual (depth + 1) (.array items)
  | object {depth : Nat} {members : Members} (hkeys : (members.map (·.1)).Nodup)
      (hmembers : ∀ m ∈ members, Textual depth m.2) : Textual (depth + 1) (.object members)

theorem Textual.mono {depth deeper : Nat} {v : Json} (h : Textual depth v) (hle : depth ≤ deeper) :
    Textual deeper v := by
  induction h generalizing deeper with
  | null => exact .null
  | bool b => exact .bool b
  | string s => exact .string s
  | array hitems ih =>
      obtain ⟨deeper, rfl⟩ : ∃ n, deeper = n + 1 := ⟨deeper - 1, by omega⟩
      exact .array fun v hv => ih v hv (by omega)
  | object hkeys hmembers ih =>
      obtain ⟨deeper, rfl⟩ : ∃ n, deeper = n + 1 := ⟨deeper - 1, by omega⟩
      exact .object hkeys fun m hm => ih m hm (by omega)

namespace Reader

/-! ## Strings -/

/-- The bytes of a character of a string, escaped where it has to be. -/
def escapedBytes (c : Char) : Bytes :=
  (escapeChar c).flatMap String.utf8EncodeChar

/-- A byte of a string that stands for itself. -/
def IsPlain (b : UInt8) : Prop :=
  b ≠ 0x22 ∧ b ≠ 0x5C ∧ ¬ b < 0x20

theorem stringBytes_plain {bs : Bytes} (h : ∀ b ∈ bs, IsPlain b) (fuel : Nat) (acc rest : Bytes) :
    stringBytes (bs.length + fuel) acc (bs ++ rest) = stringBytes fuel (bs.reverse ++ acc) rest := by
  induction bs generalizing acc with
  | nil => simp
  | cons b bs ih =>
      obtain ⟨hquote, hescape, hcontrol⟩ := h b (by simp)
      have hfuel : (b :: bs).length + fuel = bs.length + fuel + 1 := by simp; omega
      rw [hfuel, List.cons_append, stringBytes, if_neg hquote, if_neg hescape, if_neg hcontrol,
        ih fun c hc => h c (by simp [hc])]
      simp

theorem stringBytes_escape {bs more rest : Bytes} (h : escape bs = .ok (more, rest)) (fuel : Nat)
    (acc : Bytes) :
    stringBytes (fuel + 1) acc (0x5C :: bs) = stringBytes fuel (more.reverse ++ acc) rest := by
  rw [stringBytes, if_neg (by decide), if_pos rfl, h]
  rfl

/-- Each byte of a character is its code point or lies beyond ASCII. -/
theorem toNat_of_mem_encode {c : Char} {b : UInt8} (h : b ∈ String.utf8EncodeChar c) :
    b.toNat = c.toNat ∨ 128 ≤ b.toNat := by
  have hbeyond : ∀ {x y : Nat}, x + y < 256 → 128 ≤ y → b = UInt8.ofNat (x + y) →
      128 ≤ b.toNat := by
    rintro x y hlt hle rfl
    rw [Utf8.toNat_add hlt]
    omega
  have hval : c.val.toNat = c.toNat := rfl
  simp only [String.utf8EncodeChar, hval] at h
  split at h
  · rw [List.mem_singleton.1 h]
    exact .inl (Utf8.toNat_add (x := c.toNat) (y := 0) (by omega))
  right
  split at h
  · simp only [List.mem_cons, List.not_mem_nil, or_false] at h
    rcases h with h | h
    all_goals exact hbeyond (by omega) (by omega) h
  split at h
  · simp only [List.mem_cons, List.not_mem_nil, or_false] at h
    rcases h with h | h | h
    all_goals exact hbeyond (by omega) (by omega) h
  · simp only [List.mem_cons, List.not_mem_nil, or_false] at h
    rcases h with h | h | h | h
    all_goals exact hbeyond (by omega) (by omega) h

theorem isPlain_of_mem_encode {c : Char} (hquote : c ≠ '"') (hescape : c ≠ '\\')
    (hcontrol : ¬ c.toNat < 0x20) {b : UInt8} (h : b ∈ String.utf8EncodeChar c) : IsPlain b := by
  have hquote : c.toNat ≠ 0x22 := fun heq => hquote (Char.toNat_inj.1 heq)
  have hescape : c.toNat ≠ 0x5C := fun heq => hescape (Char.toNat_inj.1 heq)
  have hb := toNat_of_mem_encode h
  simp only [IsPlain, ne_eq, ← UInt8.toNat_inj, UInt8.lt_iff_toNat_lt, UInt8.reduceToNat]
  omega

/-- A hexadecimal digit is one byte and is read as its value. -/
theorem hexDigit?_digitChar {n : Nat} (h : n < 16) :
    ∃ b, String.utf8EncodeChar (Nat.digitChar n) = [b] ∧ hexDigit? b = some n := by
  refine ⟨UInt8.ofNat (Nat.digitChar n).toNat, ?_⟩
  revert n
  decide

/-- A control character comes back from its four digits. -/
theorem codePointEscape_hex4 {n : Nat} (hn : n < 0x20) (rest : Bytes) :
    codePointEscape ((hex4 n).flatMap String.utf8EncodeChar ++ rest) = .ok (Char.ofNat n, rest) := by
  obtain ⟨high, hhigh, hhigh'⟩ := hexDigit?_digitChar (n := n / 16) (by omega)
  obtain ⟨low, hlow, hlow'⟩ := hexDigit?_digitChar (n := n % 16) (by omega)
  have hzero : String.utf8EncodeChar '0' = [0x30] := by decide
  have hzero' : hexDigit? 0x30 = some 0 := by decide
  have hdigits : hexEscape ((hex4 n).flatMap String.utf8EncodeChar ++ rest) = .ok (n, rest) := by
    simp only [hex4, List.flatMap_cons, List.flatMap_nil, hhigh, hlow, hzero,
      List.cons_append, List.nil_append, hexEscape, hhigh', hlow', hzero']
    congr 2
    omega
  rw [codePointEscape, hdigits]
  show (if _ then _ else _) = _
  rw [if_neg (by omega), if_pos (by omega)]

theorem escape_control {c : Char} (hc : c.toNat < 0x20) (rest : Bytes) :
    escape (0x75 :: ((hex4 c.toNat).flatMap String.utf8EncodeChar ++ rest))
      = .ok (String.utf8EncodeChar c, rest) := by
  have hread := codePointEscape_hex4 hc rest
  rw [escape, if_neg (by decide), if_neg (by decide), if_neg (by decide), if_neg (by decide),
    if_neg (by decide), if_neg (by decide), if_pos rfl, hread, Char.ofNat_toNat]
  show Except.ok _ = _
  rw [Bytes.ofString_eq_flatMap]
  simp

/-- **A character of a string is read back from its escaped form.** -/
theorem stringBytes_escapedBytes (c : Char) :
    ∃ rounds ≤ (escapedBytes c).length, ∀ fuel acc rest,
      stringBytes (rounds + fuel) acc (escapedBytes c ++ rest)
        = stringBytes fuel ((String.utf8EncodeChar c).reverse ++ acc) rest := by
  -- An escape is one round, whatever its length.
  have hescape : ∀ written : Bytes, escapedBytes c = 0x5C :: written →
      (∀ rest, escape (written ++ rest) = .ok (String.utf8EncodeChar c, rest)) →
      ∃ rounds ≤ (escapedBytes c).length, ∀ fuel acc rest,
        stringBytes (rounds + fuel) acc (escapedBytes c ++ rest)
          = stringBytes fuel ((String.utf8EncodeChar c).reverse ++ acc) rest := by
    intro written hwritten hread
    refine ⟨1, by simp [hwritten], fun fuel acc rest => ?_⟩
    rw [hwritten, Nat.add_comm, List.cons_append, stringBytes_escape (hread rest)]
  by_cases hnamed : c ∈ ['"', '\\', '\x08', '\t', '\n', '\x0c', '\r']
  · simp only [List.mem_cons, List.not_mem_nil, or_false] at hnamed
    rcases hnamed with rfl | rfl | rfl | rfl | rfl | rfl | rfl
    all_goals exact hescape _ rfl fun _ => rfl
  simp only [List.mem_cons, List.not_mem_nil, or_false, not_or] at hnamed
  obtain ⟨hquote, hbackslash, hb, ht, hn, hf, hr⟩ := hnamed
  by_cases hcontrol : c.toNat < 0x20
  · have hu : String.utf8EncodeChar '\\' = [0x5C] ∧ String.utf8EncodeChar 'u' = [0x75] := by decide
    refine hescape (0x75 :: (hex4 c.toNat).flatMap String.utf8EncodeChar) ?_
      (escape_control hcontrol)
    simp [escapedBytes, escapeChar, hquote, hbackslash, hb, ht, hn, hf, hr, hcontrol, hu]
  · have hself : escapedBytes c = String.utf8EncodeChar c := by
      simp [escapedBytes, escapeChar, hquote, hbackslash, hb, ht, hn, hf, hr, hcontrol]
    rw [hself]
    exact ⟨_, Nat.le_refl _, stringBytes_plain fun _ =>
      isPlain_of_mem_encode hquote hbackslash hcontrol⟩

/-- The bytes of a string up to its closing quotation mark, with more fuel than bytes. -/
theorem stringBytes_escaped (cs : List Char) {fuel : Nat} (acc rest : Bytes)
    (hfuel : (cs.flatMap escapedBytes).length < fuel) :
    stringBytes fuel acc (cs.flatMap escapedBytes ++ 0x22 :: rest)
      = .ok (acc.reverse ++ cs.flatMap String.utf8EncodeChar, rest) := by
  induction cs generalizing fuel acc with
  | nil =>
      obtain ⟨fuel, rfl⟩ : ∃ n, fuel = n + 1 := ⟨fuel - 1, by simp at hfuel; omega⟩
      simp [stringBytes]
  | cons c cs ih =>
      obtain ⟨rounds, hrounds, hread⟩ := stringBytes_escapedBytes c
      rw [List.flatMap_cons, List.length_append] at hfuel
      obtain ⟨left, rfl⟩ : ∃ n, fuel = rounds + n := ⟨fuel - rounds, by omega⟩
      rw [List.flatMap_cons, List.append_assoc, hread, ih _ (by omega)]
      simp

/-- **A string is read back, whatever follows it.** -/
theorem string_quote (s : String) (rest : Bytes) :
    string (s.toList.flatMap escapedBytes ++ 0x22 :: rest) = .ok (s, rest) := by
  have hdecode : Utf8.decode? (s.toList.flatMap String.utf8EncodeChar) = some s := by
    rw [← Bytes.ofString_eq_flatMap, Utf8.decode?_ofString]
  rw [string, stringBytes_escaped _ _ _ (by rw [List.length_append, List.length_cons]; omega)]
  simp only [List.reverse_nil, List.nil_append, hdecode, Except.bind, bind]

/-! ## Space between the pieces -/

/-- Bytes that the reader passes over. -/
def IsSpace (bs : Bytes) : Prop :=
  ∀ b ∈ bs, isSpace b = true

theorem isSpace_nil : IsSpace [] := by
  simp [IsSpace]

theorem skipSpace_append {space : Bytes} (h : IsSpace space) (bs : Bytes) :
    skipSpace (space ++ bs) = skipSpace bs :=
  List.dropWhile_append_of_pos h

theorem skipSpace_cons {b : UInt8} (h : isSpace b = false) (bs : Bytes) :
    skipSpace (b :: bs) = b :: bs :=
  List.dropWhile_cons_of_neg (by simp [h])

/-- The space in front of an entry, inside `indent` containers. -/
def gapBytes (indent : Nat) : Bytes :=
  Bytes.ofString (newline indent)

theorem isSpace_gapBytes (indent : Nat) : IsSpace (gapBytes indent) := by
  have hbreak : String.utf8EncodeChar '\n' = [0x0A] := by decide
  have hblank : String.utf8EncodeChar ' ' = [0x20] := by decide
  intro b hb
  rw [gapBytes, newline, Bytes.ofString_ofList, List.flatMap_cons, hbreak] at hb
  simp only [List.mem_append, List.mem_singleton, List.mem_flatMap, List.mem_replicate] at hb
  rcases hb with rfl | ⟨c, ⟨-, rfl⟩, hb⟩
  · decide
  · rw [hblank, List.mem_singleton] at hb
    subst hb
    decide

/-- A value may stand behind space. -/
theorem value_append_space {space : Bytes} (h : IsSpace space) (depth : Nat) (bs : Bytes) :
    value (depth + 1) (space ++ bs) = value (depth + 1) bs := by
  rw [value, value, skipSpace_append h]

/-! ## Containers -/

section Containers

variable {item : Bytes → Except Failure (Json × Bytes)} {write : Json → Bytes} {gap close : Bytes}

/-- What is written for a value is read back by `item`, whatever follows it, and cannot be taken for
    space or for the end of an array. -/
structure ReadBack (item : Bytes → Except Failure (Json × Bytes)) (written : Bytes) (v : Json) :
    Prop where
  read : ∀ rest, item (written ++ rest) = .ok (v, rest)
  starts : ∃ b more, written = b :: more ∧ isSpace b = false ∧ b ≠ 0x5D

theorem items_end (hclose : IsSpace close) (fuel : Nat) (first : Bool) (acc : List Json)
    (rest : Bytes) :
    items item (fuel + 1) first acc (close ++ 0x5D :: rest) = .ok (.array acc.reverse, rest) := by
  rw [items, skipSpace_append hclose, skipSpace_cons (by decide)]
  rfl

theorem items_first (hgap : IsSpace gap) {written : Bytes} {v : Json} (h : ReadBack item written v)
    (fuel : Nat) (acc : List Json) (rest : Bytes) :
    items item (fuel + 1) true acc (gap ++ (written ++ rest))
      = items item fuel false (v :: acc) rest := by
  obtain ⟨b, more, rfl, hspace, hend⟩ := h.starts
  have hread := h.read rest
  rw [List.cons_append] at hread ⊢
  rw [items, skipSpace_append hgap, skipSpace_cons hspace]
  simp only [if_neg hend, if_true, hread]
  rfl

theorem items_next (hgap : IsSpace gap) {written : Bytes} {v : Json} (h : ReadBack item written v)
    (fuel : Nat) (acc : List Json) (rest : Bytes) :
    items item (fuel + 1) false acc (0x2C :: (gap ++ (written ++ rest)))
      = items item fuel false (v :: acc) rest := by
  obtain ⟨b, more, rfl, hspace, hend⟩ := h.starts
  have hread := h.read rest
  rw [List.cons_append] at hread ⊢
  rw [items, skipSpace_cons (by decide)]
  simp only [skipSpace_append hgap, skipSpace_cons hspace, if_neg hend, hread]
  rfl

/-- The items behind the first one, and the end of the array. -/
theorem items_more (hgap : IsSpace gap) (hclose : IsSpace close) {vs : List Json}
    (h : ∀ v ∈ vs, ReadBack item (write v) v) {fuel : Nat} (acc : List Json) (rest : Bytes)
    (hfuel : vs.length < fuel) :
    items item fuel false acc
        (vs.flatMap (fun v => 0x2C :: (gap ++ write v)) ++ (close ++ 0x5D :: rest))
      = .ok (.array (acc.reverse ++ vs), rest) := by
  induction vs generalizing fuel acc with
  | nil =>
      obtain ⟨fuel, rfl⟩ : ∃ n, fuel = n + 1 := ⟨fuel - 1, by simp at hfuel; omega⟩
      rw [List.flatMap_nil, List.nil_append, items_end hclose, List.append_nil]
  | cons v vs ih =>
      obtain ⟨fuel, rfl⟩ : ∃ n, fuel = n + 1 := ⟨fuel - 1, by simp at hfuel; omega⟩
      rw [List.flatMap_cons, List.cons_append, List.cons_append, List.append_assoc,
        List.append_assoc, items_next hgap (h v (by simp)),
        ih (fun w hw => h w (by simp [hw])) (v :: acc) (by simpa using hfuel)]
      simp

/-! ## Members -/

/-- What is written for a member: its key and its value. -/
def writtenMember (write : Json → Bytes) (m : String × Json) : Bytes :=
  0x22 :: (m.1.toList.flatMap escapedBytes ++ 0x22 :: 0x3A :: 0x20 :: write m.2)

theorem member_written {m : String × Json}
    (h : ∀ rest, item (0x20 :: (write m.2 ++ rest)) = .ok (m.2, rest)) (rest : Bytes) :
    member item (writtenMember write m ++ rest) = .ok (m, rest) := by
  have hcolon : isSpace 0x3A = false := by decide
  simp only [member, writtenMember, List.cons_append, List.append_assoc, List.drop_succ_cons,
    List.drop_zero, string_quote, bind, Except.bind, skipSpace_cons hcolon, if_true, h]

theorem insert_of_new {members : Members} {key : String} (h : key ∉ members.map (·.1))
    (value : Json) : members.insert key value = members ++ [(key, value)] := by
  have hnew : (members.any fun m => m.1 == key) = false :=
    List.any_eq_false.2 fun m hm heq => h (List.mem_map.2 ⟨m, hm, beq_iff_eq.1 heq⟩)
  rw [Members.insert, hnew]
  rfl

theorem members_end (hclose : IsSpace close) (fuel : Nat) (first : Bool) (acc : Members)
    (rest : Bytes) :
    members item (fuel + 1) first acc (close ++ 0x7D :: rest) = .ok (.object acc, rest) := by
  rw [members, skipSpace_append hclose, skipSpace_cons (by decide)]
  rfl

theorem members_first (hgap : IsSpace gap) {m : String × Json}
    (h : ∀ rest, item (0x20 :: (write m.2 ++ rest)) = .ok (m.2, rest)) (fuel : Nat) (acc : Members)
    (rest : Bytes) :
    members item (fuel + 1) true acc (gap ++ (writtenMember write m ++ rest))
      = members item fuel false (acc.insert m.1 m.2) rest := by
  have hread := member_written h rest
  rw [writtenMember, List.cons_append] at hread ⊢
  rw [members, skipSpace_append hgap, skipSpace_cons (by decide)]
  simp only [if_neg (show ¬ (0x22 : UInt8) = 0x7D by decide), if_true, hread]
  rfl

theorem members_next (hgap : IsSpace gap) {m : String × Json}
    (h : ∀ rest, item (0x20 :: (write m.2 ++ rest)) = .ok (m.2, rest)) (fuel : Nat) (acc : Members)
    (rest : Bytes) :
    members item (fuel + 1) false acc (0x2C :: (gap ++ (writtenMember write m ++ rest)))
      = members item fuel false (acc.insert m.1 m.2) rest := by
  have hread := member_written h rest
  have hquote : isSpace 0x22 = false := by decide
  rw [writtenMember, List.cons_append] at hread ⊢
  rw [members, skipSpace_cons (by decide)]
  simp only [skipSpace_append hgap, skipSpace_cons hquote,
    if_neg (show ¬ (0x2C : UInt8) = 0x7D by decide), if_true, hread]
  rfl

/-- The members behind the first one, and the end of the object. -/
theorem members_more (hgap : IsSpace gap) (hclose : IsSpace close) {ms : Members}
    (h : ∀ m ∈ ms, ∀ rest, item (0x20 :: (write m.2 ++ rest)) = .ok (m.2, rest)) {fuel : Nat}
    (acc : Members) (hkeys : ((acc ++ ms).map (·.1)).Nodup) (rest : Bytes)
    (hfuel : ms.length < fuel) :
    members item fuel false acc
        (ms.flatMap (fun m => 0x2C :: (gap ++ writtenMember write m)) ++ (close ++ 0x7D :: rest))
      = .ok (.object (acc ++ ms), rest) := by
  induction ms generalizing fuel acc with
  | nil =>
      obtain ⟨fuel, rfl⟩ : ∃ n, fuel = n + 1 := ⟨fuel - 1, by simp at hfuel; omega⟩
      rw [List.flatMap_nil, List.nil_append, members_end hclose, List.append_nil]
  | cons m ms ih =>
      obtain ⟨fuel, rfl⟩ : ∃ n, fuel = n + 1 := ⟨fuel - 1, by simp at hfuel; omega⟩
      have hnew : m.1 ∉ acc.map (·.1) := by
        intro hmem
        rw [List.map_append, List.nodup_append] at hkeys
        exact hkeys.2.2 _ hmem _ (by simp) rfl
      rw [List.flatMap_cons, List.cons_append, List.cons_append, List.append_assoc,
        List.append_assoc, members_next hgap (h m (by simp)), insert_of_new hnew,
        ih (fun n hn => h n (by simp [hn])) _ (by simpa using hkeys) (by simpa using hfuel)]
      simp

end Containers

/-! ## Values -/

/-- The bytes of a value in its layout inside `indent` containers. -/
def prettyBytes (indent : Nat) (v : Json) : Bytes :=
  Bytes.ofString (prettyAt indent v)

theorem ofString_quote (s : String) :
    Bytes.ofString (quote s) = 0x22 :: (s.toList.flatMap escapedBytes ++ [0x22]) := by
  have hquote : String.utf8EncodeChar '"' = [0x22] := by decide
  rw [quote, Bytes.ofString_ofList]
  simp only [List.cons_append, List.flatMap_cons, List.flatMap_append, List.flatMap_nil, hquote,
    List.flatMap_assoc, List.append_nil, List.nil_append]
  rfl

/-- Entries joined by a separator: the first, and each other one behind the separator. -/
theorem ofString_intercalate (separator first : String) (more : List String) :
    Bytes.ofString (separator.intercalate (first :: more))
      = Bytes.ofString first ++
        more.flatMap fun s => Bytes.ofString separator ++ Bytes.ofString s := by
  induction more generalizing first with
  | nil => simp
  | cons second more ih =>
      rw [String.intercalate_cons_cons, Bytes.ofString_append, Bytes.ofString_append, ih]
      simp

theorem prettyItems_eq_map (indent : Nat) (items : List Json) :
    prettyItems indent items = items.map (prettyAt indent) := by
  induction items with
  | nil => rw [prettyItems, List.map_nil]
  | cons v vs ih => rw [prettyItems, ih, List.map_cons]

theorem prettyMembers_eq_map (indent : Nat) (members : Members) :
    prettyMembers indent members
      = members.map fun m => quote m.1 ++ ": " ++ prettyAt indent m.2 := by
  induction members with
  | nil => rw [prettyMembers, List.map_nil]
  | cons m ms ih =>
      obtain ⟨k, v⟩ := m
      rw [prettyMembers, ih, List.map_cons]

/-- The entries of a container, each behind space, and the space in front of its end. -/
theorem ofString_lines (indent : Nat) (first : String) (more : List String) :
    Bytes.ofString (lines indent (first :: more))
      = gapBytes (indent + 1) ++ (Bytes.ofString first ++
        (more.flatMap (fun s => 0x2C :: (gapBytes (indent + 1) ++ Bytes.ofString s)) ++
          gapBytes indent)) := by
  have hcomma : Bytes.ofString "," = [0x2C] := by
    rw [Bytes.ofString_eq_flatMap]
    decide
  rw [lines, if_neg (by simp), Bytes.ofString_append, Bytes.ofString_append, ofString_intercalate,
    Bytes.ofString_append, hcomma]
  simp [gapBytes]

theorem prettyBytes_array (indent : Nat) (v : Json) (vs : List Json) :
    prettyBytes indent (.array (v :: vs))
      = 0x5B :: (gapBytes (indent + 1) ++ (prettyBytes (indent + 1) v ++
        (vs.flatMap (fun w => 0x2C :: (gapBytes (indent + 1) ++ prettyBytes (indent + 1) w)) ++
          (gapBytes indent ++ [0x5D])))) := by
  have hopen : Bytes.ofString "[" = [0x5B] := by
    rw [Bytes.ofString_eq_flatMap]
    decide
  have hclose : Bytes.ofString "]" = [0x5D] := by
    rw [Bytes.ofString_eq_flatMap]
    decide
  rw [prettyBytes, prettyAt, brackets, prettyItems_eq_map, List.map_cons, Bytes.ofString_append,
    Bytes.ofString_append, ofString_lines, hopen, hclose]
  simp [prettyBytes, List.flatMap_map]

theorem prettyBytes_object (indent : Nat) (m : String × Json) (ms : Members) :
    prettyBytes indent (.object (m :: ms))
      = 0x7B :: (gapBytes (indent + 1) ++ (writtenMember (prettyBytes (indent + 1)) m ++
        (ms.flatMap (fun n => 0x2C :: (gapBytes (indent + 1) ++
            writtenMember (prettyBytes (indent + 1)) n)) ++
          (gapBytes indent ++ [0x7D])))) := by
  have hopen : Bytes.ofString "\x7b" = [0x7B] := by
    rw [Bytes.ofString_eq_flatMap]
    decide
  have hclose : Bytes.ofString "\x7d" = [0x7D] := by
    rw [Bytes.ofString_eq_flatMap]
    decide
  have hcolon : Bytes.ofString ": " = [0x3A, 0x20] := by
    rw [Bytes.ofString_eq_flatMap]
    decide
  have hmember : ∀ n : String × Json,
      Bytes.ofString (quote n.1 ++ ": " ++ prettyAt (indent + 1) n.2)
        = writtenMember (prettyBytes (indent + 1)) n := by
    intro n
    rw [Bytes.ofString_append, Bytes.ofString_append, ofString_quote, hcolon]
    simp [writtenMember, prettyBytes]
  rw [prettyBytes, prettyAt, braces, prettyMembers_eq_map, List.map_cons, Bytes.ofString_append,
    Bytes.ofString_append, ofString_lines, hopen, hclose, hmember]
  simp [List.flatMap_map, hmember]

theorem value_quote (depth : Nat) (bs : Bytes) {s : String} {rest : Bytes}
    (h : string bs = .ok (s, rest)) : value (depth + 1) (0x22 :: bs) = .ok (.string s, rest) := by
  rw [value, skipSpace_cons (by decide)]
  show (string bs >>= fun p => Except.ok (Json.string p.1, p.2)) = _
  rw [h]
  rfl

theorem value_bracket (depth : Nat) (bs : Bytes) :
    value (depth + 2) (0x5B :: bs) = items (value (depth + 1)) (bs.length + 1) true [] bs := by
  rw [value, skipSpace_cons (by decide)]
  rfl

theorem value_brace (depth : Nat) (bs : Bytes) :
    value (depth + 2) (0x7B :: bs) = members (value (depth + 1)) (bs.length + 1) true [] bs := by
  rw [value, skipSpace_cons (by decide)]
  rfl

/-- There are at least as many bytes as entries that start with a comma. -/
theorem length_le_flatMap {α : Type} (entries : List α) (written : α → Bytes) :
    entries.length ≤ (entries.flatMap fun e => 0x2C :: written e).length := by
  induction entries with
  | nil => simp
  | cons e es ih =>
      rw [List.flatMap_cons, List.length_append, List.length_cons, List.length_cons]
      omega

/-- The bytes of a value that is written as one word. -/
theorem prettyBytes_word {indent : Nat} {v : Json} {bytes : Bytes} (word : String)
    (h : prettyAt indent v = word) (hbytes : word.toList.flatMap String.utf8EncodeChar = bytes) :
    prettyBytes indent v = bytes := by
  rw [prettyBytes, h, Bytes.ofString_eq_flatMap, hbytes]

theorem readBack_null (depth indent : Nat) :
    ReadBack (value (depth + 1)) (prettyBytes indent .null) .null := by
  have hbytes : prettyBytes indent .null = [0x6E, 0x75, 0x6C, 0x6C] :=
    prettyBytes_word "null" (by rw [prettyAt]) (by decide)
  rw [hbytes]
  exact ⟨fun rest => rfl, _, _, rfl, by decide, by decide⟩

theorem readBack_bool (depth indent : Nat) (b : Bool) :
    ReadBack (value (depth + 1)) (prettyBytes indent (.bool b)) (.bool b) := by
  cases b with
  | true =>
      have hbytes : prettyBytes indent (.bool true) = [0x74, 0x72, 0x75, 0x65] :=
        prettyBytes_word "true" (by rw [prettyAt, if_pos rfl]) (by decide)
      rw [hbytes]
      exact ⟨fun rest => rfl, _, _, rfl, by decide, by decide⟩
  | false =>
      have hbytes : prettyBytes indent (.bool false) = [0x66, 0x61, 0x6C, 0x73, 0x65] :=
        prettyBytes_word "false" (by rw [prettyAt, if_neg (by decide)]) (by decide)
      rw [hbytes]
      exact ⟨fun rest => rfl, _, _, rfl, by decide, by decide⟩

theorem readBack_string (depth indent : Nat) (s : String) :
    ReadBack (value (depth + 1)) (prettyBytes indent (.string s)) (.string s) := by
  rw [prettyBytes, prettyAt, ofString_quote]
  refine ⟨fun rest => ?_, _, _, rfl, by decide, by decide⟩
  rw [List.cons_append, List.append_assoc]
  exact value_quote _ _ (string_quote s rest)

theorem readBack_array {depth indent : Nat} {vs : List Json}
    (h : ∀ v ∈ vs, ReadBack (value (depth + 1)) (prettyBytes (indent + 1) v) v) :
    ReadBack (value (depth + 2)) (prettyBytes indent (.array vs)) (.array vs) := by
  cases vs with
  | nil =>
      have hbytes : prettyBytes indent (.array []) = [0x5B, 0x5D] :=
        prettyBytes_word "[]" (by rw [prettyAt, prettyItems]; rfl) (by decide)
      rw [hbytes]
      refine ⟨fun rest => ?_, _, _, rfl, by decide, by decide⟩
      rw [List.cons_append, value_bracket]
      exact items_end isSpace_nil _ _ _ _
  | cons v vs =>
      rw [prettyBytes_array]
      refine ⟨fun rest => ?_, _, _, rfl, by decide, by decide⟩
      have hlength := length_le_flatMap vs
        fun w => gapBytes (indent + 1) ++ prettyBytes (indent + 1) w
      simp only [List.cons_append, List.append_assoc]
      rw [value_bracket, items_first (isSpace_gapBytes _) (h v (by simp))]
      refine items_more (isSpace_gapBytes _) (isSpace_gapBytes _) (fun w hw => h w (by simp [hw]))
        _ _ ?_
      simp only [List.length_append, List.length_cons]
      omega

theorem readBack_object {depth indent : Nat} {ms : Members} (hkeys : (ms.map (·.1)).Nodup)
    (h : ∀ m ∈ ms, ReadBack (value (depth + 1)) (prettyBytes (indent + 1) m.2) m.2) :
    ReadBack (value (depth + 2)) (prettyBytes indent (.object ms)) (.object ms) := by
  -- A value stands one blank behind the colon.
  have hread : ∀ m ∈ ms, ∀ rest, value (depth + 1)
      (0x20 :: (prettyBytes (indent + 1) m.2 ++ rest)) = .ok (m.2, rest) := by
    intro m hm rest
    have hblank : IsSpace [0x20] := by simp [IsSpace, isSpace]
    exact (value_append_space hblank depth _).trans ((h m hm).read rest)
  cases ms with
  | nil =>
      have hbytes : prettyBytes indent (.object []) = [0x7B, 0x7D] :=
        prettyBytes_word "\x7b\x7d" (by rw [prettyAt, prettyMembers]; rfl) (by decide)
      rw [hbytes]
      refine ⟨fun rest => ?_, _, _, rfl, by decide, by decide⟩
      rw [List.cons_append, value_brace]
      exact members_end isSpace_nil _ _ _ _
  | cons m ms =>
      rw [prettyBytes_object]
      refine ⟨fun rest => ?_, _, _, rfl, by decide, by decide⟩
      have hlength := length_le_flatMap ms
        fun n => gapBytes (indent + 1) ++ writtenMember (prettyBytes (indent + 1)) n
      simp only [List.cons_append, List.append_assoc]
      rw [value_brace, members_first (isSpace_gapBytes _) (hread m (by simp))]
      refine members_more (isSpace_gapBytes _) (isSpace_gapBytes _)
        (fun n hn => hread n (by simp [hn])) [m] hkeys _ ?_
      simp only [List.length_append, List.length_cons]
      omega

/-- **A value is read back from its layout, whatever follows it.** -/
theorem readBack_prettyBytes {depth : Nat} {v : Json} (h : Textual depth v) (indent : Nat) :
    ReadBack (value (depth + 1)) (prettyBytes indent v) v := by
  induction h generalizing indent with
  | null => exact readBack_null _ indent
  | bool b => exact readBack_bool _ indent b
  | string s => exact readBack_string _ indent s
  | array hitems ih => exact readBack_array fun v hv => ih v hv _
  | object hkeys hmembers ih => exact readBack_object hkeys fun m hm => ih m hm _

end Reader

/-- **The layout of a value over several lines is one JSON text**, which stands for that value, and
    space behind it changes nothing. -/
theorem parse_pretty {depth : Nat} {v : Json} (h : Textual depth v) (hdepth : depth < depthLimit)
    {space : Bytes} (hspace : Reader.IsSpace space) :
    parse (Bytes.ofString v.pretty ++ space) = .ok v := by
  have hread := (Reader.readBack_prettyBytes (h.mono (Nat.le_sub_one_of_lt hdepth)) 0).read space
  have hend : Reader.skipSpace space = [] := by
    rw [← List.append_nil space, Reader.skipSpace_append hspace]
    rfl
  simp only [Reader.prettyBytes, depthLimit] at hread
  simp only [parse, pretty, depthLimit, hread, bind, Except.bind, hend]
  rfl

end TypingsAudit.Json
