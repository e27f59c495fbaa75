import Std.Data.TreeMap
import Std.Data.TreeSet
import TypingsAudit.Path
import TypingsAudit.Text.Utf8

set_option autoImplicit false

/-! # The files of a package

A `FileTree` maps the normal form of a path to the contents of a file, and knows every directory
that has a file below it. A path may be a file and a directory at once. Every question takes a path
in any spelling and normalizes it first. Orders are those of the bytes of the paths. -/

namespace TypingsAudit

/-- Why a path has no answer. -/
inductive PathError where
  /-- The path, as it was given, leaves the package root. -/
  | escapesRoot (path : String)
  /-- Nothing is there; the path is in normal form. -/
  | notFound (path : String)
  deriving DecidableEq, Repr

def PathError.message : PathError → String
  | .escapesRoot path => s!"invalid path '{path}': escapes the package root"
  | .notFound path => s!"file not found: {path}"

/-- The normal form of a path, or the error that names it. -/
def Path.normalize (path : String) : Except PathError String :=
  match Path.normalize? path with
  | some normal => .ok normal
  | none => .error (.escapesRoot path)

/-- A file and the normal form of its path. -/
structure File where
  path : String
  contents : Bytes
  deriving DecidableEq, Repr

namespace File

def kind (file : File) : FileKind :=
  FileKind.ofPath file.path

/-- The contents as text, ill-formed parts replaced. -/
def text (file : File) : String :=
  Utf8.decodeLossy file.contents

end File

/-- The files of a package, by the normal forms of their paths, and its directories. -/
structure FileTree where
  contents : Std.TreeMap String Bytes
  directories : Std.TreeSet String

namespace FileTree

/-- A tree without files. The root is there. -/
def empty : FileTree :=
  { contents := {}, directories := Std.TreeSet.empty.insert "" }

/-- The directories above a normal path from the innermost one up to the first that the tree has. -/
def missingAbove (tree : FileTree) (path : String) : List String :=
  (Path.ancestors path).takeWhile fun dir => !tree.directories.contains dir

/-- Put a file at a normal path, in place of any that was there. -/
def insert (tree : FileTree) (path : String) (bytes : Bytes) : FileTree :=
  { contents := tree.contents.insert path bytes
    directories := tree.directories.insertMany (tree.missingAbove path) }

/-- Put a file at a path in any spelling. The root itself cannot hold a file. -/
def add (tree : FileTree) (path : String) (bytes : Bytes) : Except PathError FileTree := do
  let normal ← Path.normalize path
  if normal = "" then .error (.escapesRoot "") else .ok (tree.insert normal bytes)

/-- The tree of a list of files. Of two files at one path the later one stays. -/
def ofFiles (files : List (String × Bytes)) : Except PathError FileTree :=
  files.foldlM (fun tree (path, bytes) => tree.add path bytes) empty

/-- The file at a path. -/
def file (tree : FileTree) (path : String) : Except PathError File := do
  let normal ← Path.normalize path
  match tree.contents[normal]? with
  | some bytes => .ok ⟨normal, bytes⟩
  | none => .error (.notFound normal)

/-- The file at a path, if there is one. -/
def file? (tree : FileTree) (path : String) : Option File :=
  (tree.file path).toOption

def isFile (tree : FileTree) (path : String) : Bool :=
  match Path.normalize? path with
  | some normal => tree.contents.contains normal
  | none => false

def isDirectory (tree : FileTree) (path : String) : Bool :=
  match Path.normalize? path with
  | some normal => tree.directories.contains normal
  | none => false

def exists? (tree : FileTree) (path : String) : Bool :=
  tree.isFile path || tree.isDirectory path

/-- All files, in the order of their paths. -/
def files (tree : FileTree) : List File :=
  tree.contents.toList.map fun (path, bytes) => ⟨path, bytes⟩

def declarations (tree : FileTree) : List File :=
  tree.files.filter (·.kind.isDeclaration)

/-- The name `path` has directly below directory `dir`, both in normal form. -/
def childName? (dir path : String) : Option String :=
  match Text.dropFront? (if dir = "" then "" else dir ++ "/") path with
  | some rest => if rest = "" ∨ '/' ∈ rest.toList then none else some rest
  | none => none

/-- The names of the files and directories directly below a directory, in order. -/
def children (tree : FileTree) (dir : String) : Except PathError (List String) := do
  let normal ← Path.normalize dir
  if tree.directories.contains normal then
    let paths := tree.contents.keys ++ tree.directories.toList
    .ok (Std.TreeSet.ofList (paths.filterMap (childName? normal))).toList
  else .error (.notFound normal)

end FileTree

end TypingsAudit
