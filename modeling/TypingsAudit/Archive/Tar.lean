import TypingsAudit.Archive.Gzip
import TypingsAudit.Text.Blank

set_option autoImplicit false

/-! # Tar

A tar archive is a sequence of blocks. A member is a header and the blocks of its contents; a block
of zeros, or the end of the content, ends the archive. Some members describe the next one: its path,
when that is too long for a header, or a list of attributes. `Tar.entries` puts the descriptions
where they belong and gives the members that are left as entries. -/

namespace TypingsAudit.Archive.Tar

def blockSize : Nat := 512

theorem length_drop_blockSize_lt {bytes : Bytes}
    (h : (bytes.take blockSize).length = blockSize) :
    (bytes.drop blockSize).length < bytes.length := by
  simp only [List.length_take] at h
  have : 0 < blockSize := Nat.succ_pos _
  rw [List.length_drop]
  omega

/-- The whole blocks of a sequence of bytes. -/
def blocksOf (bytes : Bytes) : List Bytes :=
  if (bytes.take blockSize).length = blockSize then
    bytes.take blockSize :: blocksOf (bytes.drop blockSize)
  else []
  termination_by bytes.length
  decreasing_by exact length_drop_blockSize_lt ‹_›

/-- The blocks of some content, and what comes behind the last one. -/
structure Blocks where
  blocks : List Bytes
  failure : Option Error

def Blocks.ofContent (content : Content) : Blocks :=
  { blocks := blocksOf content.bytes
    failure :=
      match content.failure with
      | some failure => some failure
      | none => if content.bytes.length % blockSize = 0 then none else some .partialBlock }

/-! ## Headers -/

/-- A header, which is one block. -/
abbrev Header := Bytes

/-- The bytes up to the first zero. -/
def terminated (bytes : Bytes) : Bytes :=
  bytes.takeWhile (· ≠ 0)

/-- One more than the greatest number of 64 bits. -/
def wordLimit : Nat := Nat.pow 2 64

/-- A number of 64 bits in digits of a base up to ten, perhaps behind a plus sign. -/
def number? (base : Nat) (text : List Char) : Option Nat :=
  let digits := if text.head? = some '+' then text.drop 1 else text
  let values := digits.map fun digit => if digit.isDigit then digit.toNat - '0'.toNat else base
  let value := values.foldl (fun value digit => base * value + digit) 0
  if digits ≠ [] ∧ values.all (· < base) ∧ value < wordLimit then some value else none

/-- A number in a field, up to the first zero byte and with blanks around it. -/
def fieldNumber? (field : Bytes) : Option Nat := do
  let text ← Utf8.decode? (terminated field)
  number? 8 (Text.trimBlank text).toList

/-- A number with the highest byte first. -/
def bigEndian (bytes : Bytes) : Nat :=
  bytes.foldl (fun value byte => 256 * value + byte.toNat) 0

/-- A number in a field of twelve bytes: digits, or the last eight bytes when the highest bit is
    set. -/
def wideNumber? (field : Bytes) : Option Nat :=
  if field.getD 0 0 ≥ 0x80 then some (bigEndian (field.drop 4)) else fieldNumber? field

/-- How a header is laid out, by its mark. -/
inductive Layout where
  | basic
  | ustar
  | gnu
  deriving DecidableEq, Repr

namespace Header

def field (header : Header) (start size : Nat) : Bytes :=
  (List.drop start header).take size

def layout (header : Header) : Layout :=
  let mark := header.field 257 8
  if mark = Bytes.ofString "ustar\x0000" then .ustar
  else if mark = Bytes.ofString "ustar  \x00" then .gnu
  else .basic

/-- The flag for the type of a member. -/
def flag (header : Header) : UInt8 :=
  List.getD header 156 0

def isFlag (header : Header) (c : Char) : Bool :=
  header.flag.toNat == c.toNat

/-- Whether the flag is one of a member that says something about others: about all that follow, or
    the path, the target or the attributes of the next one. -/
def hasDescriptiveFlag (header : Header) : Bool :=
  ['g', 'L', 'K', 'x'].any header.isFlag

/-- Whether the member says something about the next one: its path, where it links to, or its
    attributes. -/
def isDescription (header : Header) : Bool :=
  header.layout ≠ .basic && header.hasDescriptiveFlag && !header.isFlag 'g'

/-- The path in a header. A `ustar` header has room for the front of a long one. -/
def path (header : Header) : Bytes :=
  let name := terminated (header.field 0 100)
  let front := terminated (header.field 345 155)
  if header.layout = .ustar ∧ front ≠ [] then front ++ (Bytes.ofString "/") ++ name else name

/-- The number that `read?` finds in a field of a header, `name` for messages. -/
def number (header : Header) (read? : Bytes → Option Nat) (name : String) (start size : Nat) :
    Except Error Nat :=
  let field := header.field start size
  match read? field with
  | some value => .ok value
  | none =>
    .error (.badNumber (Text.trimBlank (Utf8.decodeLossy (terminated field))) name
      (Utf8.decodeLossy header.path))

/-- The size of the contents. -/
def size (header : Header) : Except Error Nat :=
  header.number wideNumber? "size" 124 12

/-- The sum of the bytes of a header, those of the field for the sum counted as blanks. -/
def sum (header : Header) : Nat :=
  let rest := header.field 0 148 ++ List.drop 156 header
  rest.foldl (fun total byte => total + byte.toNat) (8 * 32)

def check (header : Header) : Except Error Unit := do
  let sum ← header.number fieldNumber? "cksum" 148 8
  if sum % Gzip.sizeLimit ≠ header.sum then throw .badHeaderChecksum

end Header

/-! ## Sparse members

A sparse member stores parts of a file, in order, and a map of them. The map starts in the header
and goes on in the blocks behind it. -/

/-- How much of a sparse file its map has covered, and how much is left of what is stored. -/
structure SparseState where
  covered : Nat
  left : Nat

/-- Cover a part of a sparse file of which `stored` bytes are stored. -/
def coverPart (stored : Nat) (state : SparseState) (part : Bytes) : Except Error SparseState :=
  if part.getD 0 0 = 0 ∨ part.getD 12 0 = 0 then .ok state
  else
    match wideNumber? (part.take 12), wideNumber? (part.drop 12) with
    | some start, some size =>
      if (size ≠ 0 ∧ (stored - state.left) % blockSize ≠ 0) ∨ start < state.covered ∨
          start + size ≥ wordLimit ∨ size > state.left then
        .error .badSparseMap
      else .ok ⟨start + size, state.left - size⟩
    | _, _ => .error .badSparseMap

/-- The `count` parts of a map that starts at `start` in a block. -/
def mapParts (block : Bytes) (start count : Nat) : List Bytes :=
  (List.range count).map fun i => (block.drop (start + 24 * i)).take 24

/-- Cover the parts in the blocks that a map goes on in, up to one that does not announce
    another. -/
def coverBlocks (stored : Nat) (failure : Option Error) :
    List Bytes → SparseState → Except Error (SparseState × List Bytes)
  | [], _ => .error (failure.getD .unexpectedEnd)
  | block :: rest, state => do
    let state ← (mapParts block 0 21).foldlM (coverPart stored) state
    if block.getD 504 0 = 1 then coverBlocks stored failure rest state
    else return (state, rest)

/-- The blocks behind the map of a sparse member. The map has to cover the file, and use all that is
    stored. -/
def skipSparseMap (header : Header) (stored : Nat) (failure : Option Error) (rest : List Bytes) :
    Except Error (List Bytes) := do
  if header.layout ≠ .gnu then throw .badSparseMap
  let state ← (mapParts header 386 4).foldlM (coverPart stored) ⟨0, stored⟩
  let (state, rest) ←
    if List.getD header 482 0 = 1 then coverBlocks stored failure rest state
    else pure (state, rest)
  let size ← header.number wideNumber? "real size" 483 12
  if state.covered ≠ size ∨ state.left ≠ 0 then throw .badSparseMap
  return rest

/-! ## Attributes -/

/-- The key and the value of an attribute, from a line with its own length in front. -/
def attribute? (line : Bytes) : Option (Bytes × Bytes) := do
  let (digits, rest) := line.span (· ≠ ' '.toUInt8)
  let text ← Utf8.decode? digits
  let size ← number? 10 text.toList
  match rest with
  | [] => none
  | _ :: rest =>
    if line.length + 1 ≠ size then none
    else
      match rest.span (· ≠ '='.toUInt8) with
      | (_, []) => none
      | (key, _ :: value) => some (key, value)

/-- The attributes in the contents of a member: one a line, `none` for a malformed one, up to an
    empty line. -/
def attributes (contents : Bytes) : List (Option (Bytes × Bytes)) :=
  ((contents.splitOn '\n'.toUInt8).takeWhile (· ≠ [])).map attribute?

/-- The path among attributes. Malformed ones are passed over. -/
def attributePath? (attributes : List (Option (Bytes × Bytes))) : Option Bytes :=
  (attributes.filterMap id).findSome? fun (key, value) =>
    if key = Bytes.ofString "path" then some value else none

/-- The size among attributes, in front of the first malformed one. -/
def attributeSize? (attributes : List (Option (Bytes × Bytes))) : Option Nat :=
  ((attributes.takeWhile Option.isSome).filterMap id).findSome? (fun (key, value) =>
    if key = Bytes.ofString "size" then some value else none) >>= fun value => do
      let text ← Utf8.decode? value
      number? 10 text.toList

/-! ## Members -/

/-- What the members before say about the next one. -/
structure Description where
  /-- A path, with a zero byte that may be behind it. -/
  longPath : Option Bytes
  longLink : Option Bytes
  attributes : Option Bytes
  deriving DecidableEq, Repr

namespace Description

def none : Description :=
  ⟨.none, .none, .none⟩

/-- The size of a member's contents: what the attributes say, or else its header. The size of one
    that describes others is in its header. -/
def size (description : Description) (header : Header) : Except Error Nat := do
  let inHeader ← header.size
  if header.hasDescriptiveFlag then return inHeader
  return (description.attributes.bind (attributeSize? ∘ Tar.attributes)).getD inHeader

/-- The path of a member. -/
def path (description : Description) (header : Header) : Bytes :=
  match description.longPath with
  | some path => if path.getLast? = some 0 then path.dropLast else path
  | .none => (description.attributes.bind (attributePath? ∘ Tar.attributes)).getD header.path

/-- The description with what a member adds to it, when it is one that describes the next. -/
def add? (description : Description) (header : Header) (contents : Bytes) :
    Except Error (Option Description) :=
  if !header.isDescription then .ok .none
  else if header.isFlag 'L' then
    if description.longPath.isSome then .error .repeatedDescription
    else .ok (some { description with longPath := some contents })
  else if header.isFlag 'K' then
    if description.longLink.isSome then .error .repeatedDescription
    else .ok (some { description with longLink := some contents })
  else
    if description.attributes.isSome then .error .repeatedDescription
    else .ok (some { description with attributes := some contents })

end Description

/-- The type of an entry from the flag of its header. -/
def entryType (header : Header) : EntryType :=
  if header.flag = 0 ∨ header.isFlag '0' then .regular else .special header.flag

/-- Take the contents of a member off the blocks behind its header and its map. -/
def takeContents (size : Nat) (failure : Option Error) (rest : List Bytes) :
    Except Error (Bytes × List Bytes) :=
  let (front, rest) := rest.splitAt ((size + (blockSize - 1)) / blockSize)
  if front.length * blockSize < size then .error (failure.getD .missingContents)
  else .ok (front.flatten.take size, rest)

/-- The contents of a member, and the blocks behind them. `start` is the place of the first byte
    behind the header. -/
def takeMember (failure : Option Error) (description : Description) (start : Nat) (header : Header)
    (rest : List Bytes) : Except Error (Bytes × List Bytes) := do
  header.check
  let size ← description.size header
  if start + (size + (blockSize - 1)) / blockSize * blockSize ≥ wordLimit then throw .sizeOverflow
  let rest ← if header.isFlag 'S' then skipSparseMap header size failure rest else pure rest
  takeContents size failure rest

theorem takeContents_length_le {size : Nat} {failure : Option Error} {rest rest' : List Bytes}
    {contents : Bytes} (h : takeContents size failure rest = .ok (contents, rest')) :
    rest'.length ≤ rest.length := by
  simp only [takeContents, List.splitAt_eq] at h
  split at h
  · cases h
  · cases h
    simp

theorem coverBlocks_length_le {stored : Nat} {failure : Option Error} {rest rest' : List Bytes}
    {state state' : SparseState}
    (h : coverBlocks stored failure rest state = .ok (state', rest')) :
    rest'.length ≤ rest.length := by
  induction rest generalizing state with
  | nil => simp [coverBlocks] at h
  | cons block rest ih =>
    simp only [coverBlocks, bind, Except.bind, pure, Except.pure] at h
    split at h
    · cases h
    · split at h
      · exact Nat.le_succ_of_le (ih h)
      · cases h
        simp

theorem skipSparseMap_length_le {header : Header} {stored : Nat} {failure : Option Error}
    {rest rest' : List Bytes} (h : skipSparseMap header stored failure rest = .ok rest') :
    rest'.length ≤ rest.length := by
  simp only [skipSparseMap, bind, Except.bind, pure, Except.pure, throw, throwThe,
    MonadExceptOf.throw] at h
  repeat' split at h
  all_goals first
    | contradiction
    | (cases h; exact Nat.le_refl _)
    | (cases h; exact coverBlocks_length_le ‹_›)

/-- A member takes blocks off the front. -/
theorem takeMember_length_le {failure : Option Error} {description : Description} {start : Nat}
    {header : Header} {rest rest' : List Bytes} {contents : Bytes}
    (h : takeMember failure description start header rest = .ok (contents, rest')) :
    rest'.length ≤ rest.length := by
  simp only [takeMember, bind, Except.bind, pure, Except.pure, throw, throwThe,
    MonadExceptOf.throw] at h
  split at h
  · cases h
  split at h
  · cases h
  split at h
  · cases h
  split at h
  · split at h
    · cases h
    · next hrest =>
      exact Nat.le_trans (takeContents_length_le h) (skipSparseMap_length_le hrest)
  · exact takeContents_length_le h

/-- The entries of the members in some blocks, which are the last ones of `total`. -/
def members (failure : Option Error) (total : Nat) (description : Description)
    (blocks : List Bytes) : Except Error (List Entry) :=
  match blocks with
  | [] =>
    match failure with
    | some failure => .error failure
    | none => if description = .none then .ok [] else .error .danglingDescription
  | header :: rest =>
    if header.all (· == 0) then
      if description = .none then .ok [] else .error .danglingDescription
    else
      match h : takeMember failure description ((total - rest.length) * blockSize) header rest with
      | .error error => .error error
      | .ok (contents, next) =>
        have := takeMember_length_le h
        match description.add? header contents with
        | .error error => .error error
        | .ok (some description) => members failure total description next
        | .ok none =>
          let entry : Entry :=
            { type := entryType header
              path := Utf8.decodeLossy (description.path header)
              contents }
          (entry :: ·) <$> members failure total .none next
  termination_by blocks.length

/-- The entries of an archive. -/
def entries (content : Content) : Except Error (List Entry) :=
  let blocks := Blocks.ofContent content
  members blocks.failure blocks.blocks.length .none blocks.blocks

end TypingsAudit.Archive.Tar
