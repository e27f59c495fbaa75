import TypingsAudit.Json.Basic
import TypingsAudit.Text.Affix
import TypingsAudit.Text.Utf8

set_option autoImplicit false

/-! # Reading JSON

`Json.parse` reads strict JSON from bytes. Bytes inside strings must be UTF-8; of an object's equal
keys the first gives the place and the last the value; containers nest at most 127 deep.

A failure has a cause and a place. Inside the reader the place is the number of bytes not yet read,
the offending one included or not (`expected` and `broken`); `Position.at` turns it into a line and a
column, the column counting bytes since the last line feed.

A number that fits 64 bits stays an integer. Any other number is the product or quotient of its
leading digits and a power of ten, each rounded on its own (`realOf`), which may differ from the
nearest floating-point number in the last place. -/

namespace TypingsAudit.Json

/-- What is wrong with a text that is no JSON. -/
inductive ParseCause where
  | endInValue
  | endInObject
  | endInArray
  | endInString
  | expectedValue
  | expectedWord
  | expectedColon
  | expectedMemberEnd
  | expectedItemEnd
  | keyNotString
  | trailingComma
  | trailingCharacters
  | invalidNumber
  | numberOutOfRange
  | invalidEscape
  | controlCharacter
  | unpairedSurrogate
  | surrogateCutShort
  | invalidCodePoint
  | nestedTooDeep
  deriving DecidableEq, Repr

def ParseCause.message : ParseCause → String
  | .endInValue => "EOF while parsing a value"
  | .endInObject => "EOF while parsing an object"
  | .endInArray => "EOF while parsing a list"
  | .endInString => "EOF while parsing a string"
  | .expectedValue => "expected value"
  | .expectedWord => "expected ident"
  | .expectedColon => "expected `:`"
  | .expectedMemberEnd => "expected `,` or `\x7d`"
  | .expectedItemEnd => "expected `,` or `]`"
  | .keyNotString => "key must be a string"
  | .trailingComma => "trailing comma"
  | .trailingCharacters => "trailing characters"
  | .invalidNumber => "invalid number"
  | .numberOutOfRange => "number out of range"
  | .invalidEscape => "invalid escape"
  | .controlCharacter => "control character (\\u0000-\\u001F) found while parsing a string"
  | .unpairedSurrogate => "lone leading surrogate in hex escape"
  | .surrogateCutShort => "unexpected end of hex escape"
  | .invalidCodePoint => "invalid unicode code point"
  | .nestedTooDeep => "recursion limit exceeded"

/-- A place in a text: the line from one, and the bytes read since its start. -/
structure Position where
  line : Nat
  column : Nat
  deriving DecidableEq, Repr

/-- The place after the first `count` bytes of a text. -/
def Position.at (text : Bytes) (count : Nat) : Position :=
  (text.take count).foldl
    (fun p b => if b = 0x0A then ⟨p.line + 1, 0⟩ else ⟨p.line, p.column + 1⟩) ⟨1, 0⟩

/-- Why a text is no JSON, and where that shows. -/
structure ParseError where
  cause : ParseCause
  position : Position
  deriving DecidableEq, Repr

def ParseError.message (e : ParseError) : String :=
  s!"{e.cause.message} at line {e.position.line} column {e.position.column}"

namespace Reader

/-- A failure with the number of bytes left when it showed. -/
structure Failure where
  cause : ParseCause
  left : Nat

/-- A failure at the byte in front of `bs`, the last one read. -/
def broken {α : Type} (cause : ParseCause) (bs : Bytes) : Except Failure α :=
  .error ⟨cause, bs.length⟩

/-- A failure at the first byte of `bs`, or at the end of the text when there is none. -/
def expected {α : Type} (cause : ParseCause) (bs : Bytes) : Except Failure α :=
  .error ⟨cause, bs.length - 1⟩

def isSpace (b : UInt8) : Bool :=
  b == 0x20 || b == 0x0A || b == 0x09 || b == 0x0D

def skipSpace (bs : Bytes) : Bytes :=
  bs.dropWhile isSpace

def digit? (b : UInt8) : Option Nat :=
  if 0x30 ≤ b ∧ b ≤ 0x39 then some (b.toNat - 0x30) else none

/-! ## Words -/

/-- The rest of a word such as `null` after its first letter. -/
def word (value : Json) : Bytes → Bytes → Except Failure (Json × Bytes)
  | [], bs => .ok (value, bs)
  | _ :: _, [] => broken .endInValue []
  | w :: ws, b :: bs => if b = w then word value ws bs else broken .expectedWord bs

/-! ## Numbers -/

/-- The largest integer of 64 bits without a sign. -/
def maxNatural : Nat := Nat.pow 2 64 - 1

/-- The size of the least integer of 64 bits. -/
def maxNegative : Nat := Nat.pow 2 63

/-- One more than the greatest exponent. -/
def exponentLimit : Nat := Nat.pow 2 31

/-- `digits · 10 ^ exponent`, computed as one product or quotient of rounded numbers. Powers beyond
    the format are divided out in steps of `10 ^ 308`; the fuel bounds their number. -/
def realOf (digits : Nat) (exponent : Int) : Option Decimal.Magnitude :=
  let power (e : Nat) := Decimal.Magnitude.ofDecimal 1 e
  let rec shrink : Nat → Decimal.Magnitude → Int → Option Decimal.Magnitude
    | 0, x, _ => some x
    | fuel + 1, x, e =>
      if 0 ≤ e then (power e.toNat).bind x.mul
      else if -308 ≤ e then (power e.natAbs).bind x.div
      else if x.mantissa = 0 then some x
      else ((power 308).bind x.div).bind fun y => shrink fuel y (e + 308)
  (Decimal.Magnitude.ofRatio digits 1).bind fun x =>
    if 308 < exponent then if x.mantissa = 0 then some x else none
    else shrink 4 x exponent

def real (negative : Bool) (digits : Nat) (exponent : Int) (bs : Bytes) :
    Except Failure (JsonNumber × Bytes) :=
  match realOf digits exponent with
  | some x => .ok (.real ⟨negative, x⟩, bs)
  | none => broken .numberOutOfRange bs

/-- The digits at the front, as a number read on from `acc`, with their count. -/
def takeDigits (acc count : Nat) : Bytes → Nat × Nat × Bytes
  | [] => (acc, count, [])
  | b :: bs =>
    match digit? b with
    | some d => takeDigits (acc * 10 + d) (count + 1) bs
    | none => (acc, count, b :: bs)

/-- The digits at the front for as long as the number is at most `maxNatural`, with their count. -/
def takeNaturalDigits (acc count : Nat) : Bytes → Nat × Nat × Bytes
  | [] => (acc, count, [])
  | b :: bs =>
    match digit? b with
    | some d =>
      if acc * 10 + d ≤ maxNatural then takeNaturalDigits (acc * 10 + d) (count + 1) bs
      else (acc, count, b :: bs)
    | none => (acc, count, b :: bs)

/-- The exponent of a number, after its `e`. One of 2 ^ 31 and more is too large for any digits but
    zeros, and makes anything zero when it is negative. -/
def exponent (negative : Bool) (digits : Nat) (shift : Int) (bs : Bytes) :
    Except Failure (JsonNumber × Bytes) :=
  let (up, bs) :=
    match bs with
    | 0x2B :: rest => (true, rest)
    | 0x2D :: rest => (false, rest)
    | _ => (true, bs)
  match bs with
  | [] => broken .endInValue []
  | b :: rest =>
    match digit? b with
    | none => broken .invalidNumber rest
    | some _ =>
      let (e, _, after) := takeDigits 0 0 bs
      if e < exponentLimit then real negative digits (if up then shift + e else shift - e) after
      else if digits ≠ 0 ∧ up then
        -- shown at the digit that makes the exponent too large
        let upTo := overflowAt 0 bs
        broken .numberOutOfRange upTo
      else .ok (.real ⟨negative, Decimal.Magnitude.zero⟩, after)
where
  /-- What follows the digit with which the exponent reaches `exponentLimit`. -/
  overflowAt (acc : Nat) : Bytes → Bytes
    | [] => []
    | b :: rest =>
      match digit? b with
      | some d => if acc * 10 + d < exponentLimit then overflowAt (acc * 10 + d) rest else rest
      | none => b :: rest

/-- The end of a number whose digits are read: an exponent or nothing. -/
def afterDigits (negative : Bool) (digits : Nat) (shift : Int) (bs : Bytes) :
    Except Failure (JsonNumber × Bytes) :=
  match bs with
  | b :: rest =>
    if b = 0x65 ∨ b = 0x45 then exponent negative digits shift rest
    else real negative digits shift bs
  | [] => real negative digits shift bs

/-- The digits after the point. Those that no longer fit 64 bits are passed over. -/
def decimals (negative : Bool) (digits : Nat) (shift : Int) (bs : Bytes) :
    Except Failure (JsonNumber × Bytes) :=
  let (value, count, after) := takeNaturalDigits digits 0 bs
  let (_, dropped, rest) := takeDigits 0 0 after
  if count = 0 ∧ dropped = 0 then
    match after with
    | [] => broken .endInValue []
    | _ :: _ => expected .invalidNumber after
  else afterDigits negative value (shift - count) rest

/-- A number whose first digits are read and fit 64 bits. -/
def fraction (negative : Bool) (digits : Nat) (bs : Bytes) : Except Failure (JsonNumber × Bytes) :=
  match bs with
  | 0x2E :: rest => decimals negative digits 0 rest
  | 0x65 :: rest => exponent negative digits 0 rest
  | 0x45 :: rest => exponent negative digits 0 rest
  | _ =>
    if !negative then .ok (.natural digits, bs)
    else if 0 < digits ∧ digits ≤ maxNegative then .ok (.negative digits, bs)
    else real true digits 0 bs

/-- A number after its sign. -/
def number (negative : Bool) (bs : Bytes) : Except Failure (JsonNumber × Bytes) :=
  match bs with
  | [] => broken .endInValue []
  | b :: rest =>
    match digit? b with
    | none => broken .invalidNumber rest
    | some 0 =>
      match rest with
      | c :: _ => if (digit? c).isSome then expected .invalidNumber rest else fraction negative 0 rest
      | [] => fraction negative 0 rest
    | some _ =>
      let (value, _, after) := takeNaturalDigits 0 0 bs
      let (_, dropped, tail) := takeDigits 0 0 after
      if dropped = 0 then fraction negative value after
      else
        match tail with
        | 0x2E :: more => decimals negative value dropped more
        | _ => afterDigits negative value dropped tail

/-! ## Strings -/

/-- The value of a hexadecimal digit. -/
def hexDigit? (b : UInt8) : Option Nat :=
  if 0x30 ≤ b ∧ b ≤ 0x39 then some (b.toNat - 0x30)
  else if 0x61 ≤ b ∧ b ≤ 0x66 then some (b.toNat - 0x57)
  else if 0x41 ≤ b ∧ b ≤ 0x46 then some (b.toNat - 0x37)
  else none

/-- The number that four hexadecimal digits write. -/
def hexEscape : Bytes → Except Failure (Nat × Bytes)
  | a :: b :: c :: d :: rest =>
    match hexDigit? a, hexDigit? b, hexDigit? c, hexDigit? d with
    | some a, some b, some c, some d => .ok (((a * 16 + b) * 16 + c) * 16 + d, rest)
    | _, _, _, _ => broken .invalidEscape rest
  | _ => broken .endInString []

/-- One byte that has to be there, or the error for a surrogate without its second half. -/
def secondHalf (wanted : UInt8) : Bytes → Except Failure Bytes
  | [] => broken .endInString []
  | b :: rest => if b = wanted then .ok rest else broken .surrogateCutShort rest

/-- The code point of an escape, after its `\u`. A leading surrogate needs a trailing one behind
    it. -/
def codePointEscape (bs : Bytes) : Except Failure (Char × Bytes) := do
  let (n, bs) ← hexEscape bs
  if 0xDC00 ≤ n ∧ n ≤ 0xDFFF then broken .unpairedSurrogate bs
  else if n < 0xD800 ∨ 0xDBFF < n then .ok (Char.ofNat n, bs)
  else
    let bs ← secondHalf 0x5C bs
    let bs ← secondHalf 0x75 bs
    let (m, bs) ← hexEscape bs
    if m < 0xDC00 ∨ 0xDFFF < m then broken .unpairedSurrogate bs
    else .ok (Char.ofNat (0x10000 + (n - 0xD800) * 1024 + (m - 0xDC00)), bs)

/-- The bytes an escape stands for, after its backslash. -/
def escape : Bytes → Except Failure (Bytes × Bytes)
  | [] => broken .endInString []
  | b :: bs =>
    if b = 0x22 ∨ b = 0x5C ∨ b = 0x2F then .ok ([b], bs)
    else if b = 0x62 then .ok ([0x08], bs)
    else if b = 0x66 then .ok ([0x0C], bs)
    else if b = 0x6E then .ok ([0x0A], bs)
    else if b = 0x72 then .ok ([0x0D], bs)
    else if b = 0x74 then .ok ([0x09], bs)
    else if b = 0x75 then do
      let (c, bs) ← codePointEscape bs
      .ok (Bytes.ofString (String.singleton c), bs)
    else broken .invalidEscape bs

/-- The bytes of a string up to its closing quotation mark, after those read so far, last first.
    Every step reads a byte, so the length of the text is fuel enough. -/
def stringBytes : Nat → Bytes → Bytes → Except Failure (Bytes × Bytes)
  | 0, _, bs => broken .endInString bs
  | _ + 1, _, [] => broken .endInString []
  | fuel + 1, acc, b :: bs =>
    if b = 0x22 then .ok (acc.reverse, bs)
    else if b = 0x5C then do
      let (more, bs) ← escape bs
      stringBytes fuel (more.reverse ++ acc) bs
    else if b < 0x20 then broken .controlCharacter bs
    else stringBytes fuel (b :: acc) bs

/-- A string after its opening quotation mark. One that is not UTF-8 is reported as far in front of
    its end as there are bytes from the first ill-formed one on, each escape counted as the bytes it
    stands for. -/
def string (bs : Bytes) : Except Failure (String × Bytes) := do
  let (bytes, rest) ← stringBytes (bs.length + 1) [] bs
  match Utf8.decode? bytes with
  | some s => .ok (s, rest)
  | none =>
    let good := Text.utf8Length (Utf8.wellFormedPart bytes)
    .error ⟨.invalidCodePoint, rest.length + (bytes.length - good)⟩

/-! ## Containers and values -/

/-- The items of an array after its bracket, or after an item; `item` reads one. Every round reads a
    byte, so the length of the text is fuel enough. -/
def items (item : Bytes → Except Failure (Json × Bytes)) :
    Nat → Bool → List Json → Bytes → Except Failure (Json × Bytes)
  | 0, _, _, bs => broken .endInArray bs
  | fuel + 1, first, acc, bs =>
    match skipSpace bs with
    | [] => expected .endInArray []
    | b :: rest =>
      if b = 0x5D then .ok (.array acc.reverse, rest)
      else if first then do
        let (v, after) ← item (b :: rest)
        items item fuel false (v :: acc) after
      else if b = 0x2C then
        match skipSpace rest with
        | [] => expected .endInValue []
        | c :: more =>
          if c = 0x5D then expected .trailingComma (c :: more)
          else do
            let (v, after) ← item (c :: more)
            items item fuel false (v :: acc) after
      else expected .expectedItemEnd (b :: rest)

/-- A member of an object from the quotation mark of its key on. -/
def member (item : Bytes → Except Failure (Json × Bytes)) (bs : Bytes) :
    Except Failure ((String × Json) × Bytes) := do
  let (key, bs) ← string (bs.drop 1)
  match skipSpace bs with
  | [] => expected .endInObject []
  | b :: rest =>
    if b = 0x3A then do
      let (v, after) ← item rest
      .ok ((key, v), after)
    else expected .expectedColon (b :: rest)

/-- The members of an object after its brace, or after a member. -/
def members (item : Bytes → Except Failure (Json × Bytes)) :
    Nat → Bool → Members → Bytes → Except Failure (Json × Bytes)
  | 0, _, _, bs => broken .endInObject bs
  | fuel + 1, first, acc, bs =>
    match skipSpace bs with
    | [] => expected .endInObject []
    | b :: rest =>
      if b = 0x7D then .ok (.object acc, rest)
      else if first then
        if b = 0x22 then do
          let ((k, v), after) ← member item (b :: rest)
          members item fuel false (acc.insert k v) after
        else expected .keyNotString (b :: rest)
      else if b = 0x2C then
        match skipSpace rest with
        | [] => expected .endInValue []
        | c :: more =>
          if c = 0x22 then do
            let ((k, v), after) ← member item (c :: more)
            members item fuel false (acc.insert k v) after
          else if c = 0x7D then expected .trailingComma (c :: more)
          else expected .keyNotString (c :: more)
      else expected .expectedMemberEnd (b :: rest)

/-- A value inside at most `depth - 1` further containers. -/
def value : Nat → Bytes → Except Failure (Json × Bytes)
  | 0, bs => expected .nestedTooDeep bs
  | depth + 1, bs =>
    match skipSpace bs with
    | [] => expected .endInValue []
    | b :: rest =>
      if b = 0x6E then word .null [0x75, 0x6C, 0x6C] rest
      else if b = 0x74 then word (.bool true) [0x72, 0x75, 0x65] rest
      else if b = 0x66 then word (.bool false) [0x61, 0x6C, 0x73, 0x65] rest
      else if b = 0x2D then do
        let (n, after) ← number true rest
        .ok (.number n, after)
      else if (digit? b).isSome then do
        let (n, after) ← number false (b :: rest)
        .ok (.number n, after)
      else if b = 0x22 then do
        let (s, after) ← string rest
        .ok (.string s, after)
      else if b = 0x5B then
        if depth = 0 then expected .nestedTooDeep (b :: rest)
        else items (value depth) (rest.length + 1) true [] rest
      else if b = 0x7B then
        if depth = 0 then expected .nestedTooDeep (b :: rest)
        else members (value depth) (rest.length + 1) true [] rest
      else expected .expectedValue (b :: rest)

end Reader

/-- The depth at which containers are refused. -/
def depthLimit : Nat := 128

/-- The value that a whole text writes. -/
def parse (text : Bytes) : Except ParseError Json :=
  let result := do
    let (v, after) ← Reader.value depthLimit text
    match Reader.skipSpace after with
    | [] => .ok v
    | rest => Reader.expected .trailingCharacters rest
  result.mapError fun f => ⟨f.cause, Position.at text (text.length - f.left)⟩

end TypingsAudit.Json
