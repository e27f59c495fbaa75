import TypingsAudit.Archive
import TypingsAudit.Disk
import TypingsAudit.FileTree

set_option autoImplicit false

/-! # Loading a package

A package is a directory, or an archive of one. `FileTree.load` makes the files of either into a
tree. -/

namespace TypingsAudit

/-- Why a package cannot be loaded; `package` is the path it was asked for by. -/
inductive LoadError where
  /-- Neither a directory nor an archive is there. -/
  | noPackage (package : String)
  | badArchive (package : String) (cause : Archive.Error)
  /-- A file has no place in the package. -/
  | badContents (package : String) (cause : PathError)
  deriving DecidableEq, Repr

namespace LoadError

def message : LoadError → String
  | .noPackage package => s!"{package} is neither a package directory nor a .tgz tarball"
  | .badArchive package _ => s!"Failed to extract {package}"
  | .badContents package _ => s!"Invalid package contents in {package}"

/-- What led to the error, the most general first. -/
def causes : LoadError → List String
  | .noPackage _ => []
  | .badArchive _ cause => ["Failed to read tarball entry", cause.message]
  | .badContents _ cause => [cause.message]

end LoadError

namespace Archive

/-- Whether the path of a file is that of an archive. -/
def isArchivePath (path : String) : Bool :=
  endings.any (Text.endsWith · path)

end Archive

/-- The files of the package at a path, in the order they are met in, with what was found there. -/
def filesOfPackage (package : String) :
    Option DiskEntry → Except LoadError (List (String × Bytes))
  | some (.directory entries) => .ok (DiskEntry.directory entries).packageFiles
  | some (.file contents) =>
    if Archive.isArchivePath package then
      (Archive.packageFiles <$> Archive.entries contents).mapError (.badArchive package)
    else .error (.noPackage package)
  | none => .error (.noPackage package)

/-- The tree of the package at a path, with what was found there. -/
def FileTree.load (package : String) (found : Option DiskEntry) : Except LoadError FileTree := do
  let files ← filesOfPackage package found
  (FileTree.ofFiles files).mapError (.badContents package)

end TypingsAudit
