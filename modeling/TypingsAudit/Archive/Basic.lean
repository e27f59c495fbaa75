import TypingsAudit.Text.Utf8

set_option autoImplicit false

/-! # Package archives

A package archive is a compressed list of entries. `Archive.Entry` is an entry after decoding, and
`Archive.packageFiles` says which files of a package the entries stand for: every regular entry is
one, at its path without the first component, which is the folder the archive was made of. The
other entries (directories, links, devices) stand for nothing. -/

namespace TypingsAudit.Archive

/-- Why an archive cannot be read. -/
inductive Error where
  | unexpectedEnd
  | badGzipHeader
  | longGzipField
  | badGzipChecksum
  | badDeflate
  | partialBlock
  | missingContents
  /-- The place behind the contents of a member is no number of 64 bits. -/
  | sizeOverflow
  | badHeaderChecksum
  /-- A number of a header that is not one: its text, what it is, and the member's path. -/
  | badNumber (text field path : String)
  /-- Two members say what the path or the attributes of the next one are. -/
  | repeatedDescription
  /-- A member describes the next one, but there is none. -/
  | danglingDescription
  | badSparseMap
  deriving DecidableEq, Repr

def Error.message : Error → String
  | .unexpectedEnd => "unexpected end of file"
  | .badGzipHeader => "invalid gzip header"
  | .longGzipField => "gzip header field too long"
  | .badGzipChecksum => "corrupt gzip stream does not have a matching checksum"
  | .badDeflate => "corrupt deflate stream"
  | .partialBlock => "failed to read entire block"
  | .missingContents => "unexpected EOF during skip"
  | .sizeOverflow => "size overflow"
  | .badHeaderChecksum => "archive header checksum mismatch"
  | .badNumber text field path =>
    s!"numeric field was not a number: {text} when getting {field} for {path}"
  | .repeatedDescription => "two long name entries describing the same member"
  | .danglingDescription =>
    "members found describing a future member but no future member found"
  | .badSparseMap => "mismatch in sparse file chunks and size in header"

/-- What an entry is: a regular file, or something else with its type flag. -/
inductive EntryType where
  | regular
  | special (flag : UInt8)
  deriving DecidableEq, Repr

/-- An entry of an archive. -/
structure Entry where
  type : EntryType
  path : String
  contents : Bytes
  deriving DecidableEq, Repr

/-- A component of the path of an entry. -/
inductive Component where
  /-- The slash in front of an absolute path. -/
  | root
  /-- A dot in front of a relative path. Dots elsewhere in a path are no components. -/
  | here
  | up
  | name (segment : List Char)
  deriving DecidableEq, Repr

/-- The component a segment behind the first one stands for. Only slashes separate segments. -/
def Component.ofSegment? (segment : List Char) : Option Component :=
  if segment = [] ∨ segment = ['.'] then none
  else if segment = ['.', '.'] then some .up
  else some (.name segment)

/-- The component the first segment of a path stands for. -/
def Component.ofFirst? (segment : List Char) : Option Component :=
  if segment = [] then some .root
  else if segment = ['.'] then some .here
  else Component.ofSegment? segment

/-- The components of a path. -/
def components (path : List Char) : List Component :=
  if path = [] then []
  else
    match path.splitOn '/' with
    | [] => []
    | first :: rest => (Component.ofFirst? first).toList ++ rest.filterMap Component.ofSegment?

/-- What a component adds to the path of a file in the package. -/
def Component.segment? : Component → Option (List Char)
  | .root => none
  | .here => none
  | .up => some ['.', '.']
  | .name segment => some segment

namespace Entry

/-- The segments of an entry's path inside the package: without the first component, whatever it
    is. -/
def packageSegments (entry : Entry) : List (List Char) :=
  ((components entry.path.toList).drop 1).filterMap Component.segment?

/-- The file of the package that an entry stands for. -/
def packageFile? (entry : Entry) : Option (String × Bytes) :=
  if entry.type = .regular ∧ entry.packageSegments ≠ [] then
    some (String.ofList (List.intercalate ['/'] entry.packageSegments), entry.contents)
  else none

end Entry

/-- The files of the package, in the order of the entries. -/
def packageFiles (entries : List Entry) : List (String × Bytes) :=
  entries.filterMap Entry.packageFile?

end TypingsAudit.Archive
