import TypingsAudit.Text.Utf8

set_option autoImplicit false

/-! # Files and directories on disk

`DiskEntry` is a file, or a directory with all that is below it. `DiskEntry.packageFiles` lists the
files that belong to a package in a directory, without those that are installed or kept by other
tools inside it. -/

namespace TypingsAudit

/-- A file or a directory. -/
inductive DiskEntry where
  | file (contents : Bytes)
  | directory (entries : List (String × DiskEntry))

namespace DiskEntry

/-- Names of entries that are never part of the package around them. -/
def skippedNames : List String :=
  ["node_modules", ".git"]

mutual

/-- The files at and below an entry, each with the names on the way to it. Below the entry itself,
    those of `skippedNames` are left out with all below them. -/
def walk : DiskEntry → List (List String × Bytes)
  | .file contents => [([], contents)]
  | .directory entries => walkAll entries

/-- The files at and below the entries of a directory. -/
def walkAll : List (String × DiskEntry) → List (List String × Bytes)
  | [] => []
  | (name, entry) :: rest =>
    let files := if name ∈ skippedNames then [] else walk entry
    files.map (fun (names, contents) => (name :: names, contents)) ++ walkAll rest

end

/-- The files of the package in a directory. A backslash in a name separates as a slash does. -/
def packageFiles (entry : DiskEntry) : List (String × Bytes) :=
  entry.walk.map fun (names, contents) =>
    (String.ofList ("/".intercalate names |>.toList.map fun c => if c = '\\' then '/' else c),
      contents)

end DiskEntry

end TypingsAudit
