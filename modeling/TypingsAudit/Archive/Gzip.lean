import TypingsAudit.Archive.Basic
import TypingsAudit.Archive.Inflate

set_option autoImplicit false

/-! # Gzip

A gzip file is a header, a deflate stream and a trailer with the checksum and the size of the
content. `Gzip.decode` gives the content as a reader meets it: bytes, and what comes of reading on
behind them. A reader that does not reach the end does not see what is wrong there. Of malformed
data, a window of the output shows when there is more behind it. -/

namespace TypingsAudit.Archive

/-- Bytes that can be read, and what comes behind them. -/
structure Content where
  bytes : Bytes
  /-- The reason why there is no reading on, or `none` when the bytes end there. -/
  failure : Option Error
  deriving DecidableEq, Repr

/-! ## Checksums -/

namespace Crc32

/-- Divide a bit out. -/
def shift (crc : UInt32) : UInt32 :=
  if crc &&& 1 = 1 then (crc >>> 1) ^^^ 0xEDB88320 else crc >>> 1

def step (crc : UInt32) (byte : UInt8) : UInt32 :=
  Nat.repeat shift 8 (crc ^^^ byte.toUInt32)

/-- The CRC-32 of a sequence of bytes. -/
def ofBytes (bytes : Bytes) : UInt32 :=
  bytes.foldl step 0xFFFFFFFF ^^^ 0xFFFFFFFF

end Crc32

namespace Gzip

/-- The number that bytes stand for, lowest first. -/
def littleEndian : Bytes → Nat
  | [] => 0
  | byte :: rest => byte.toNat + 256 * littleEndian rest

/-- Take `count` bytes off the front. -/
def take (count : Nat) (bytes : Bytes) : Except Error (Bytes × Bytes) :=
  let (front, rest) := bytes.splitAt count
  if front.length < count then .error .unexpectedEnd else .ok (front, rest)

/-- The most bytes that a text of the header may have. -/
def maxTextLength : Nat := 65535

/-- What follows a text of the header, which ends with a zero byte. -/
def skipText (bytes : Bytes) : Except Error Bytes :=
  match bytes.span (· ≠ 0) with
  | (text, rest) =>
    if text.length > maxTextLength then .error .longGzipField
    else
      match rest with
      | [] => .error .unexpectedEnd
      | _ :: rest => .ok rest

/-- What follows the header: ten bytes, and the parts its flags announce. -/
def skipHeader (bytes : Bytes) : Except Error Bytes := do
  let (start, rest) ← take 10 bytes
  let flags := (start.getD 3 0).toNat
  if start.take 3 ≠ [0x1F, 0x8B, 8] ∨ flags ≥ 32 then throw .badGzipHeader
  let rest ←
    if flags.testBit 2 then do
      let (size, rest) ← take 2 rest
      Prod.snd <$> take (littleEndian size) rest
    else pure rest
  let rest ← if flags.testBit 3 then skipText rest else pure rest
  let rest ← if flags.testBit 4 then skipText rest else pure rest
  if flags.testBit 1 then
    let header := bytes.take (bytes.length - rest.length)
    let (checksum, rest) ← take 2 rest
    if littleEndian checksum ≠ (Crc32.ofBytes header).toNat % 65536 then throw .badGzipChecksum
    return rest
  else return rest

/-- One more than the greatest number of 32 bits, in which sizes are counted. -/
def sizeLimit : Nat := Nat.pow 2 32

/-- The reason not to accept the trailer of some content. -/
def trailerFailure (content trailer : Bytes) : Option Error :=
  if trailer.length < 8 then some .unexpectedEnd
  else if littleEndian (trailer.take 4) ≠ (Crc32.ofBytes content).toNat ∨
      littleEndian ((trailer.drop 4).take 4) ≠ content.length % sizeLimit then
    some .badGzipChecksum
  else none

/-- The size of the window that output is made in. -/
def windowSize : Nat := 32768

/-- The content of a gzip file. -/
def decode (bytes : Bytes) : Content :=
  match skipHeader bytes with
  | .error failure => ⟨[], some failure⟩
  | .ok rest =>
    match Inflate.run rest with
    | (output, .finished rest) => ⟨output.toList, trailerFailure output.toList rest⟩
    | (output, .stopped .exhausted) => ⟨output.toList, some .unexpectedEnd⟩
    | (output, .stopped .malformed) =>
      ⟨output.toList.take ((output.size - 1) / windowSize * windowSize), some .badDeflate⟩

end Gzip

end TypingsAudit.Archive
