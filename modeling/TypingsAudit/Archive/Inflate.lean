import TypingsAudit.Text.Utf8

set_option autoImplicit false

/-! # Deflate

Decompression of a deflate stream. Its bits are those of its bytes, lowest first (`BitStream`). It
is a sequence of blocks: stored bytes, or symbols in a Huffman code that is fixed or sent in front
of them. A symbol is a byte, the end of the block, or a length, with a distance behind it, that
repeats earlier output.

`Inflate.run` gives all the output there is, also of a stream that ends early or is malformed, and
says how it ended. A distance that reaches in front of the output repeats zero bytes. -/

namespace TypingsAudit.Archive

/-- Bits of bytes, the lowest bit of every byte first. -/
structure BitStream where
  bytes : Bytes
  /-- How many bits of the first byte are gone; less than eight. -/
  used : Nat
  deriving DecidableEq, Repr

namespace BitStream

def next? : BitStream → Option (Bool × BitStream)
  | ⟨[], _⟩ => none
  | ⟨byte :: rest, used⟩ =>
    some (byte.toNat.testBit used, if used = 7 then ⟨rest, 0⟩ else ⟨byte :: rest, used + 1⟩)

/-- The bytes behind the one that is being read, or all of them in front of a new one. -/
def wholeBytes (bits : BitStream) : Bytes :=
  if bits.used = 0 then bits.bytes else bits.bytes.drop 1

/-- The number of bits left. -/
def size (bits : BitStream) : Nat :=
  8 * bits.bytes.length - bits.used

end BitStream

/-! ## Huffman codes -/

/-- A canonical Huffman code of at most 15 bits. -/
structure HuffmanCode where
  /-- How many symbols have a code of length 1, 2, 3, … -/
  counts : List Nat
  /-- The symbols that have a code, shorter codes first, then by symbol. -/
  symbols : Array Nat
  deriving DecidableEq, Repr

namespace HuffmanCode

def maxLength : Nat := 15

/-- The code in which symbol `i` has the length at index `i`, zero for none. -/
def ofLengths (lengths : List Nat) : HuffmanCode :=
  let ofLength (n : Nat) : List Nat :=
    lengths.zipIdx.filterMap fun (length, symbol) => if length = n then some symbol else none
  let byLength := (List.range' 1 maxLength).map ofLength
  { counts := byLength.map List.length, symbols := byLength.flatten.toArray }

/-- The part of the space of codes that is taken, out of `2 ^ maxLength`. -/
def taken (code : HuffmanCode) : Nat :=
  code.counts.foldl (fun total count => 2 * total + count) 0

/-- Every sequence of bits starts with a code, and with one only. -/
def isComplete (code : HuffmanCode) : Bool :=
  code.taken == Nat.pow 2 maxLength

/-- The code has no symbol, or one symbol with a code of one bit. -/
def isMinimal (code : HuffmanCode) : Bool :=
  code.symbols.size ≤ 1 && code.counts.head? == some code.symbols.size

/-- A code for symbols is fit for use when it is complete or minimal. -/
def isUsable (code : HuffmanCode) : Bool :=
  code.isComplete || code.isMinimal

end HuffmanCode

namespace Inflate

/-- Why decompression stops before the end of the stream. -/
inductive Stop where
  | exhausted
  | malformed
  deriving DecidableEq, Repr

structure State where
  bits : BitStream
  output : Array UInt8

/-- A step of decompression. The output so far survives a stop. -/
abbrev Step (α : Type) := EStateM Stop State α

def bit : Step Nat := do
  let state ← get
  match state.bits.next? with
  | some (bit, bits) =>
    set { state with bits }
    return bit.toNat
  | none => throw .exhausted

/-- A number of `n` bits, lowest first. -/
def number : Nat → Step Nat
  | 0 => return 0
  | n + 1 => do
    let low ← bit
    let high ← number n
    return low + 2 * high

/-- Append a byte to the output. -/
def emit (byte : UInt8) : Step Unit :=
  modify fun ⟨bits, output⟩ => ⟨bits, output.push byte⟩

/-- Follow the bits until they are the code of a symbol. `code` is what has been read, `first` the
    first code of that length and `index` the place of its symbol. -/
def follow (symbols : Array Nat) : List Nat → Nat → Nat → Nat → Step Nat
  | [], _, _, _ => throw .malformed
  | count :: counts, code, first, index => do
    let code := 2 * code + (← bit)
    let first := 2 * first
    if code < first + count then return symbols.getD (index + (code - first)) 0
    else follow symbols counts code (first + count) (index + count)

/-- The next symbol. In a minimal code one bit shows whether there is one. -/
def symbol (code : HuffmanCode) : Step Nat := do
  if code.isMinimal then
    match ← bit, code.symbols[0]? with
    | 0, some only => return only
    | _, _ => throw .malformed
  follow code.symbols code.counts 0 0 0

/-! ## Repeats -/

/-- The least length of every length symbol, from 257 on, and how many bits are added to it. -/
def lengthTable : List (Nat × Nat) :=
  [(3, 0), (4, 0), (5, 0), (6, 0), (7, 0), (8, 0), (9, 0), (10, 0),
   (11, 1), (13, 1), (15, 1), (17, 1), (19, 2), (23, 2), (27, 2), (31, 2),
   (35, 3), (43, 3), (51, 3), (59, 3), (67, 4), (83, 4), (99, 4), (115, 4),
   (131, 5), (163, 5), (195, 5), (227, 5), (258, 0)]

/-- The least distance of every distance symbol and how many bits are added to it. -/
def distanceTable : List (Nat × Nat) :=
  [(1, 0), (2, 0), (3, 0), (4, 0), (5, 1), (7, 1), (9, 2), (13, 2), (17, 3), (25, 3),
   (33, 4), (49, 4), (65, 5), (97, 5), (129, 6), (193, 6), (257, 7), (385, 7),
   (513, 8), (769, 8), (1025, 9), (1537, 9), (2049, 10), (3073, 10), (4097, 11), (6145, 11),
   (8193, 12), (12289, 12), (16385, 13), (24577, 13)]

/-- The number a symbol of a table stands for, with the bits added to it. -/
def ranged (table : List (Nat × Nat)) (symbol : Nat) : Step Nat :=
  match table[symbol]? with
  | some (least, extra) => return least + (← number extra)
  | none => throw .malformed

/-- Repeat `length` bytes from `distance` bytes back, which may be among those just repeated. -/
def repeatBack (distance : Nat) : Nat → Step Unit
  | 0 => return ()
  | length + 1 => do
    modify fun ⟨bits, output⟩ =>
      let byte := if distance ≤ output.size then output.getD (output.size - distance) 0 else 0
      ⟨bits, output.push byte⟩
    repeatBack distance length

/-! ## Blocks -/

/-- Bytes up to the end of the block, in the codes for literals and lengths, and for distances.
    Every symbol takes a bit at least, so their number is bounded by the bits there are. -/
def symbols (literals distances : HuffmanCode) : Nat → Step Unit
  | 0 => throw .exhausted
  | bound + 1 => do
    let next ← symbol literals
    if next = 256 then return ()
    else if next < 256 then
      emit (UInt8.ofNat next)
      symbols literals distances bound
    else
      let length ← ranged lengthTable (next - 257)
      let distance ← ranged distanceTable (← symbol distances)
      repeatBack distance length
      symbols literals distances bound

/-- A block of bytes as they are, behind their number and its complement. -/
def stored : Step Unit := do
  modify fun state => { state with bits := ⟨state.bits.wholeBytes, 0⟩ }
  let count ← number 16
  let complement ← number 16
  if count + complement ≠ 0xFFFF then throw .malformed
  let state ← get
  let (block, rest) := state.bits.bytes.splitAt count
  set (⟨⟨rest, 0⟩, state.output ++ block⟩ : State)
  if block.length < count then throw .exhausted

def fixedLiterals : HuffmanCode :=
  .ofLengths (List.replicate 144 8 ++ List.replicate 112 9 ++ List.replicate 24 7 ++
    List.replicate 8 8)

def fixedDistances : HuffmanCode :=
  .ofLengths (List.replicate 32 5)

/-- The order in which the lengths of the code for lengths are sent. -/
def lengthOrder : List Nat :=
  [16, 17, 18, 0, 8, 7, 9, 6, 10, 5, 11, 4, 12, 3, 13, 2, 14, 1, 15]

/-- Read `total` code lengths behind those in `sent`, last first: a symbol up to 15 is a length,
    the others repeat the last length or zero. Every symbol gives a length at least, so `total`
    bounds their number. -/
def codeLengths (code : HuffmanCode) (total : Nat) : Nat → List Nat → Step (List Nat)
  | 0, sent => if sent.length = total then return sent.reverse else throw .malformed
  | bound + 1, sent => do
    if sent.length = total then return sent.reverse
    if sent.length > total then throw .malformed
    let next ← symbol code
    if next < 16 then codeLengths code total bound (next :: sent)
    else if next = 16 then
      match sent with
      | [] => throw .malformed
      | last :: _ =>
        let count := 3 + (← number 2)
        codeLengths code total bound (List.replicate count last ++ sent)
    else
      let count ← if next = 17 then (3 + ·) <$> number 3 else (11 + ·) <$> number 7
      codeLengths code total bound (List.replicate count 0 ++ sent)

/-- The codes that are sent in front of the symbols of a block. -/
def sentCodes : Step (HuffmanCode × HuffmanCode) := do
  let literalCount := 257 + (← number 5)
  let distanceCount := 1 + (← number 5)
  let lengthCount := 4 + (← number 4)
  if literalCount > 286 ∨ distanceCount > 30 then throw .malformed
  let sent ← (lengthOrder.take lengthCount).mapM fun symbol => return (symbol, ← number 3)
  let lengthCode := HuffmanCode.ofLengths
    ((List.range lengthOrder.length).map fun symbol => (sent.lookup symbol).getD 0)
  if !lengthCode.isComplete then throw .malformed
  let total := literalCount + distanceCount
  let lengths ← codeLengths lengthCode total total []
  let literals := HuffmanCode.ofLengths (lengths.take literalCount)
  let distances := HuffmanCode.ofLengths (lengths.drop literalCount)
  if !(literals.isUsable && distances.isUsable) then throw .malformed
  return (literals, distances)

/-- One block; whether it is the last one. -/
def block : Step Bool := do
  let last ← bit
  match ← number 2 with
  | 0 => stored
  | 1 => symbols fixedLiterals fixedDistances (← get).bits.size
  | 2 =>
    let (literals, distances) ← sentCodes
    symbols literals distances (← get).bits.size
  | _ => throw .malformed
  return last = 1

/-- Blocks up to the last one. Every block takes a bit at least. -/
def blocks : Nat → Step Unit
  | 0 => throw .exhausted
  | bound + 1 => do
    if ← block then return () else blocks bound

/-- How a stream ends: behind its last block, with the bytes that follow, or before. -/
inductive Ending where
  | finished (rest : Bytes)
  | stopped (reason : Stop)
  deriving DecidableEq, Repr

/-- The output of the stream in front of `bytes`, and how the stream ends. -/
def run (bytes : Bytes) : Array UInt8 × Ending :=
  let bits : BitStream := ⟨bytes, 0⟩
  match (blocks (bits.size + 1)).run ⟨bits, #[]⟩ with
  | .ok () state => (state.output, .finished state.bits.wholeBytes)
  | .error reason state => (state.output, .stopped reason)

end Inflate

end TypingsAudit.Archive
