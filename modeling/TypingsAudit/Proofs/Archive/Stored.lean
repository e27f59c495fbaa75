import Mathlib.Data.Nat.Bitwise
import Mathlib.Tactic.Ring
import TypingsAudit.Archive

set_option autoImplicit false

/-! # Gzip files that hold their content as it is

Any content of less than 64 KiB can be put into a gzip file without compression, as one block behind
its size and the complement of its size (`Gzip.store`). Reading such a file gives the content back
and finds nothing wrong with it (`Gzip.decode_store`), so every such content is what some file
decodes to.

Sizes are read bit by bit, as everything in a deflate stream. Eight bits from the start of a byte
are the number of the byte (`Inflate.number_run_byte`), and longer numbers are made of shorter ones
(`Inflate.number_add`). -/

namespace TypingsAudit.Archive

/-! ## Numbers as bytes -/

namespace Gzip

/-- The lowest bytes of a number, the lowest one first. -/
def lowBytes : Nat → Nat → Bytes
  | 0, _ => []
  | count + 1, n => UInt8.ofNat n :: lowBytes count (n / 256)

theorem length_lowBytes (count n : Nat) : (lowBytes count n).length = count := by
  induction count generalizing n with
  | zero => rfl
  | succ count ih => rw [lowBytes, List.length_cons, ih]

theorem littleEndian_lowBytes {count n : Nat} (h : n < 256 ^ count) :
    littleEndian (lowBytes count n) = n := by
  induction count generalizing n with
  | zero =>
      rw [pow_zero, Nat.lt_one_iff] at h
      exact h.symm
  | succ count ih =>
      rw [pow_succ] at h
      rw [lowBytes, littleEndian, ih (Nat.div_lt_of_lt_mul (by rwa [Nat.mul_comm])),
        UInt8.toNat_ofNat']
      exact Nat.mod_add_div n 256

end Gzip

/-! ## Reading numbers -/

namespace Inflate

theorem run_bind_ok {α β : Type} {first : Step α} {next : α → Step β} {state state' : State} {a : α}
    (h : first.run state = .ok a state') :
    (first >>= next).run state = (next a).run state' := by
  simp only [bind, EStateM.bind, EStateM.run] at h ⊢
  rw [h]

theorem get_run (state : State) : (get : Step State).run state = .ok state state :=
  rfl

theorem set_run (next state : State) : (set next : Step PUnit).run state = .ok ⟨⟩ next :=
  rfl

theorem modify_run (change : State → State) (state : State) :
    (modify change : Step PUnit).run state = .ok ⟨⟩ (change state) :=
  rfl

theorem bit_run {bits bits' : BitStream} {b : Bool} (h : bits.next? = some (b, bits'))
    (output : Array UInt8) : bit.run ⟨bits, output⟩ = .ok b.toNat ⟨bits', output⟩ := by
  rw [bit, run_bind_ok (get_run _)]
  simp only [h]
  rw [run_bind_ok (set_run _ _)]
  rfl

/-- The bits that are left of a byte are its upper part. -/
theorem number_run_byte (byte : UInt8) (rest : Bytes) (output : Array UInt8) {n used : Nat}
    (h : used + (n + 1) = 8) :
    (number (n + 1)).run ⟨⟨byte :: rest, used⟩, output⟩
      = .ok (byte.toNat / 2 ^ used) ⟨⟨rest, 0⟩, output⟩ := by
  induction n generalizing used with
  | zero =>
      obtain rfl : used = 7 := by omega
      have hnext : BitStream.next? ⟨byte :: rest, 7⟩
          = some (byte.toNat.testBit 7, ⟨rest, 0⟩) := rfl
      have hlast : byte.toNat / 2 ^ 7 % 2 = byte.toNat / 2 ^ 7 :=
        Nat.mod_eq_of_lt (Nat.div_lt_of_lt_mul byte.toNat_lt)
      rw [number, run_bind_ok (bit_run hnext output), Nat.toNat_testBit, hlast]
      rfl
  | succ n ih =>
      have hne : used ≠ 7 := by omega
      have hnext : BitStream.next? ⟨byte :: rest, used⟩
          = some (byte.toNat.testBit used, ⟨byte :: rest, used + 1⟩) := by
        simp [BitStream.next?, hne]
      rw [number, run_bind_ok (bit_run hnext output), run_bind_ok (ih (by omega)),
        Nat.toNat_testBit, pow_succ, ← Nat.div_div_eq_div_mul, Nat.mod_add_div]
      rfl

/-- A number may be read in two parts. -/
theorem number_add (m n : Nat) :
    number (m + n) = do
      let low ← number m
      let high ← number n
      return low + 2 ^ m * high := by
  induction m with
  | zero => simp only [number, pure_bind, pow_zero, Nat.one_mul, Nat.zero_add, bind_pure]
  | succ m ih =>
      rw [Nat.succ_add, number, ih]
      simp only [number, bind_assoc, pure_bind]
      refine bind_congr fun low => bind_congr fun middle => bind_congr fun high => ?_
      rw [pow_succ]
      congr 1
      ring

theorem number_run_two (low high : UInt8) (rest : Bytes) (output : Array UInt8) :
    (number 16).run ⟨⟨low :: high :: rest, 0⟩, output⟩
      = .ok (Gzip.littleEndian [low, high]) ⟨⟨rest, 0⟩, output⟩ := by
  have hlow := number_run_byte low (high :: rest) output (show 0 + (7 + 1) = 8 from rfl)
  have hhigh := number_run_byte high rest output (show 0 + (7 + 1) = 8 from rfl)
  rw [show (16 : Nat) = 8 + 8 from rfl, number_add, run_bind_ok hlow, run_bind_ok hhigh]
  simp [Gzip.littleEndian]

/-- A size is read from its two bytes. -/
theorem number_run_lowBytes {n : Nat} (h : n < 65536) (rest : Bytes) (output : Array UInt8) :
    (number 16).run ⟨⟨Gzip.lowBytes 2 n ++ rest, 0⟩, output⟩ = .ok n ⟨⟨rest, 0⟩, output⟩ := by
  have hbytes : Gzip.lowBytes 2 n = [UInt8.ofNat n, UInt8.ofNat (n / 256)] := rfl
  have hvalue : Gzip.littleEndian (Gzip.lowBytes 2 n) = n :=
    Gzip.littleEndian_lowBytes (show n < 256 ^ 2 by omega)
  rw [hbytes] at hvalue ⊢
  rw [List.cons_append, List.cons_append, List.nil_append, number_run_two, hvalue]

/-! ## Stored blocks -/

/-- The bytes behind the first one of a stored block: their number, its complement, and they
    themselves. -/
def storedBytes (content : Bytes) : Bytes :=
  Gzip.lowBytes 2 content.length ++ (Gzip.lowBytes 2 (65535 - content.length) ++ content)

variable {content : Bytes} (h : content.length < 65536) (rest : Bytes) (output : Array UInt8)
include h

/-- What is left of the byte that the block starts in is passed over. -/
theorem stored_run (first : UInt8) {used : Nat} (hused : used ≠ 0) :
    stored.run ⟨⟨first :: (storedBytes content ++ rest), used⟩, output⟩
      = .ok () ⟨⟨rest, 0⟩, output ++ content⟩ := by
  have hwhole : BitStream.wholeBytes ⟨first :: (storedBytes content ++ rest), used⟩
      = storedBytes content ++ rest := by
    simp [BitStream.wholeBytes, hused]
  have hcount := number_run_lowBytes h
    (Gzip.lowBytes 2 (65535 - content.length) ++ (content ++ rest)) output
  have hcomplement := number_run_lowBytes (show 65535 - content.length < 65536 by omega)
    (content ++ rest) output
  have hsum : content.length + (65535 - content.length) = 0xFFFF := by omega
  rw [stored, run_bind_ok (modify_run _ _), hwhole, storedBytes, List.append_assoc,
    List.append_assoc, run_bind_ok hcount, run_bind_ok hcomplement]
  -- The number and its complement fit together, so the bytes are split off.
  have hsplit : (content ++ rest).splitAt content.length = (content, rest) := by simp
  rw [hsum, if_neg (not_not_intro rfl), run_bind_ok (get_run _)]
  simp only [hsplit]
  rw [run_bind_ok (set_run _ _), if_neg (Nat.lt_irrefl _)]
  rfl

/-- A last block of stored bytes. -/
theorem block_run_stored :
    block.run ⟨⟨1 :: (storedBytes content ++ rest), 0⟩, output⟩
      = .ok true ⟨⟨rest, 0⟩, output ++ content⟩ := by
  have hlast : bit.run ⟨⟨1 :: (storedBytes content ++ rest), 0⟩, output⟩
      = .ok 1 ⟨⟨1 :: (storedBytes content ++ rest), 1⟩, output⟩ := rfl
  have htype : (number 2).run ⟨⟨1 :: (storedBytes content ++ rest), 1⟩, output⟩
      = .ok 0 ⟨⟨1 :: (storedBytes content ++ rest), 3⟩, output⟩ := rfl
  rw [block, run_bind_ok hlast, run_bind_ok htype]
  simp only
  rw [run_bind_ok (stored_run h rest output 1 (by decide))]
  rfl

theorem run_stored :
    run (1 :: (storedBytes content ++ rest)) = (content.toArray, .finished rest) := by
  simp only [run, blocks]
  rw [run_bind_ok (block_run_stored h rest #[]), if_pos rfl]
  show ((#[] ++ content : Array UInt8), Ending.finished rest) = _
  simp

end Inflate

/-! ## Files -/

namespace Gzip

/-- A header without any optional part. -/
def plainHeader : Bytes :=
  [0x1F, 0x8B, 8, 0, 0, 0, 0, 0, 0, 255]

def trailer (content : Bytes) : Bytes :=
  lowBytes 4 (Crc32.ofBytes content).toNat ++ lowBytes 4 content.length

/-- The file of some content that stores it as it is. -/
def store (content : Bytes) : Bytes :=
  plainHeader ++ 1 :: (Inflate.storedBytes content ++ trailer content)

theorem skipHeader_plainHeader (rest : Bytes) : skipHeader (plainHeader ++ rest) = .ok rest := by
  simp [skipHeader, plainHeader, take, bind, Except.bind, pure, Except.pure]

theorem trailerFailure_trailer {content : Bytes} (h : content.length < 65536) :
    trailerFailure content (trailer content) = none := by
  have hsum : littleEndian (lowBytes 4 (Crc32.ofBytes content).toNat)
      = (Crc32.ofBytes content).toNat :=
    littleEndian_lowBytes (show _ < 2 ^ 32 from (Crc32.ofBytes content).toNat_lt)
  have hsize : littleEndian (lowBytes 4 content.length) = content.length :=
    littleEndian_lowBytes (show _ < 2 ^ 32 by omega)
  have hlimit : content.length % sizeLimit = content.length :=
    Nat.mod_eq_of_lt (show _ < 2 ^ 32 by omega)
  have htake (n : Nat) : (lowBytes 4 n).take 4 = lowBytes 4 n :=
    List.take_of_length_le (Nat.le_of_eq (length_lowBytes 4 n))
  simp [trailerFailure, trailer, length_lowBytes, htake, hsum, hsize, hlimit]

/-- **What is stored is read.** -/
theorem decode_store {content : Bytes} (h : content.length < 65536) :
    decode (store content) = ⟨content, none⟩ := by
  simp only [decode, store, skipHeader_plainHeader, Inflate.run_stored h _,
    trailerFailure_trailer h]

end Gzip

/-! ## Headers of members -/

namespace Tar

/-- The bytes of a field, with zeros behind them up to its width. -/
def padded (width : Nat) (bytes : Bytes) : Bytes :=
  bytes ++ List.replicate (width - bytes.length) 0

/-- A header of the basic layout from the texts of its fields. The sizes of the contents and the sum
    are in octal digits. -/
def plainHeader (path size sum : String) (flag : Char) : Header :=
  padded 124 (Bytes.ofString path) ++ padded 24 (Bytes.ofString size) ++
    padded 8 (Bytes.ofString sum) ++ padded 356 [flag.toUInt8]

end Tar

/-- The entries of a stored archive are those of its content. -/
theorem entries_store {content : Bytes} {entries : List Entry} (h : content.length < 65536)
    (hentries : (Tar.entries ⟨content, none⟩).toOption = some entries) :
    Archive.entries (Gzip.store content) = .ok entries := by
  rw [Archive.entries, Gzip.decode_store h]
  cases hread : Tar.entries ⟨content, none⟩ with
  | error cause =>
      rw [hread] at hentries
      cases hentries
  | ok found =>
      rw [hread] at hentries
      exact congrArg _ (Option.some.inj hentries)

end TypingsAudit.Archive
