set_option autoImplicit false

/-! # UTF-8

Two readings of a sequence of bytes as text. `Utf8.decode?` accepts well-formed UTF-8 and nothing
else; `Utf8.decodeLossy` reads anything, putting U+FFFD for every maximal ill-formed part: the
longest run of bytes that could have started a character, or a single byte where none could.

Both walk the bytes with `Utf8.step`, which takes one character or one ill-formed part off the
front. A leading byte fixes how many bytes follow it and, for `E0`, `ED`, `F0` and `F4`, a narrower
range for the second one, which is what excludes overlong forms, surrogates and code points above
U+10FFFF. -/

namespace TypingsAudit

/-- The contents of a file. -/
abbrev Bytes := List UInt8

/-- The UTF-8 bytes of a text. -/
def Bytes.ofString (s : String) : Bytes :=
  s.toUTF8.toList

namespace Utf8

/-- The character put for an ill-formed part. -/
def replacement : Char := '\uFFFD'

/-- Take `n` continuation bytes off the front, appending six bits each to `acc`. Stops in front of
    the first byte that continues nothing. -/
def continuation : Nat → Nat → Bytes → Option Nat × Bytes
  | 0, acc, bs => (some acc, bs)
  | _ + 1, _, [] => (none, [])
  | n + 1, acc, b :: bs =>
    if 0x80 ≤ b ∧ b ≤ 0xBF then continuation n (acc * 64 + (b.toNat - 0x80)) bs
    else (none, b :: bs)

/-- Take a second byte between `low` and `high` and then `n` continuation bytes. -/
def narrowed (low high : UInt8) (n acc : Nat) : Bytes → Option Nat × Bytes
  | [] => (none, [])
  | b :: bs =>
    if low ≤ b ∧ b ≤ high then continuation n (acc * 64 + (b.toNat - 0x80)) bs
    else (none, b :: bs)

/-- Read the character that starts with byte `b`: its code point, or `none` for an ill-formed
    part, and the bytes after it. -/
def step (b : UInt8) (bs : Bytes) : Option Nat × Bytes :=
  if b ≤ 0x7F then (some b.toNat, bs)
  else if 0xC2 ≤ b ∧ b ≤ 0xDF then continuation 1 (b.toNat - 0xC0) bs
  else if b = 0xE0 then narrowed 0xA0 0xBF 1 0 bs
  else if b = 0xED then narrowed 0x80 0x9F 1 0xD bs
  else if 0xE1 ≤ b ∧ b ≤ 0xEF then narrowed 0x80 0xBF 1 (b.toNat - 0xE0) bs
  else if b = 0xF0 then narrowed 0x90 0xBF 2 0 bs
  else if 0xF1 ≤ b ∧ b ≤ 0xF3 then narrowed 0x80 0xBF 2 (b.toNat - 0xF0) bs
  else if b = 0xF4 then narrowed 0x80 0x8F 2 4 bs
  else (none, bs)

theorem continuation_length_le (n acc : Nat) (bs : Bytes) :
    (continuation n acc bs).2.length ≤ bs.length := by
  induction bs generalizing n acc with
  | nil => cases n <;> simp [continuation]
  | cons b bs ih =>
    cases n with
    | zero => simp [continuation]
    | succ n =>
      simp only [continuation]
      split
      · exact Nat.le_trans (ih _ _) (by simp)
      · simp

theorem narrowed_length_le (low high : UInt8) (n acc : Nat) (bs : Bytes) :
    (narrowed low high n acc bs).2.length ≤ bs.length := by
  cases bs with
  | nil => simp [narrowed]
  | cons b bs =>
    simp only [narrowed]
    split
    · exact Nat.le_trans (continuation_length_le _ _ _) (by simp)
    · simp

/-- A step never gives back more bytes than followed the leading one. -/
theorem step_length_le (b : UInt8) (bs : Bytes) : (step b bs).2.length ≤ bs.length := by
  unfold step
  repeat' split
  all_goals first
    | exact continuation_length_le _ _ _
    | exact narrowed_length_le _ _ _ _ _
    | exact Nat.le_refl _

/-- The characters of well-formed UTF-8, or `none`. -/
def decodeChars? : Bytes → Option (List Char)
  | [] => some []
  | b :: bs =>
    match step b bs, step_length_le b bs with
    | (some code, rest), _ => (decodeChars? rest).map (Char.ofNat code :: ·)
    | (none, _), _ => none
  termination_by bs => bs.length
  decreasing_by exact Nat.lt_succ_of_le ‹_›

/-- The characters of any bytes, with `replacement` for every ill-formed part. -/
def decodeCharsLossy : Bytes → List Char
  | [] => []
  | b :: bs =>
    match step b bs, step_length_le b bs with
    | (some code, rest), _ => Char.ofNat code :: decodeCharsLossy rest
    | (none, rest), _ => replacement :: decodeCharsLossy rest
  termination_by bs => bs.length
  decreasing_by all_goals exact Nat.lt_succ_of_le ‹_›

/-- The well-formed characters in front of the first ill-formed part, or of the end. -/
def wellFormedPart : Bytes → List Char
  | [] => []
  | b :: bs =>
    match step b bs, step_length_le b bs with
    | (some code, rest), _ => Char.ofNat code :: wellFormedPart rest
    | (none, _), _ => []
  termination_by bs => bs.length
  decreasing_by exact Nat.lt_succ_of_le ‹_›

/-- The text of well-formed UTF-8, or `none`. -/
def decode? (bs : Bytes) : Option String :=
  (decodeChars? bs).map String.ofList

/-- The text of any bytes. A leading byte order mark is a character like any other. -/
def decodeLossy (bs : Bytes) : String :=
  String.ofList (decodeCharsLossy bs)

end Utf8

end TypingsAudit
