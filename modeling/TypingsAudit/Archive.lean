import TypingsAudit.Archive.Tar

set_option autoImplicit false

/-! # Package archives as bytes

An archive is a gzip file of a tar archive. -/

namespace TypingsAudit.Archive

/-- The entries of an archive. -/
def entries (bytes : Bytes) : Except Error (List Entry) :=
  Tar.entries (Gzip.decode bytes)

/-- The endings of the name of an archive. -/
def endings : List String :=
  [".tgz", ".tar.gz"]

end TypingsAudit.Archive
