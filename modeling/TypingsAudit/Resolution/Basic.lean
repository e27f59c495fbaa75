import TypingsAudit.Path
import TypingsAudit.Text.Blank

set_option autoImplicit false

/-! # Resolutions

The algorithms by which an import finds its file, the two questions put to each of them, and the
shape of an answer. -/

namespace TypingsAudit

/-- The format a file is loaded as. -/
inductive ModuleFormat where
  | esm
  | cjs
  /-- No format: the file is neither a script nor a declaration. -/
  | unknown
  deriving DecidableEq, Repr

def ModuleFormat.name : ModuleFormat → String
  | .esm => "esm"
  | .cjs => "cjs"
  | .unknown => "unknown"

/-- The format as reports write it. -/
def ModuleFormat.label : ModuleFormat → String
  | .esm => "ESM"
  | .cjs => "CJS"
  | .unknown => "unknown"

/-- A resolution algorithm. The order of the constructors is the canonical order. -/
inductive ResolutionKind where
  | node10
  | node16Cjs
  | node16Esm
  | bundler
  deriving DecidableEq, Repr

namespace ResolutionKind

/-- Every algorithm, in canonical order. -/
def all : List ResolutionKind :=
  [.node10, .node16Cjs, .node16Esm, .bundler]

def name : ResolutionKind → String
  | .node10 => "node10"
  | .node16Cjs => "node16-cjs"
  | .node16Esm => "node16-esm"
  | .bundler => "bundler"

/-- The place in the canonical order. -/
def rank : ResolutionKind → Nat
  | .node10 => 0
  | .node16Cjs => 1
  | .node16Esm => 2
  | .bundler => 3

/-- Whether files are loaded in the format that Node.js assigns them. -/
def enforcesFormat : ResolutionKind → Bool
  | .node16Cjs | .node16Esm => true
  | .node10 | .bundler => false

/-- Whether the `exports` field is looked at. -/
def honorsExports : ResolutionKind → Bool
  | .node10 => false
  | .node16Cjs | .node16Esm | .bundler => true

/-- A name that stands for no algorithm, trimmed and in lower case. -/
structure UnknownName where
  name : String
  deriving DecidableEq, Repr

def UnknownName.message (unknown : UnknownName) : String :=
  s!"unknown resolution kind '{unknown.name}' (expected node10, node16-cjs, node16-esm or bundler)"

/-- Read the name of an algorithm. Blank space around it and the case of ASCII letters do not
    matter, and `node` is another name of `node10`. -/
def ofName (text : String) : Except UnknownName ResolutionKind :=
  let name := Text.lowerAscii (Text.trimBlank text)
  if name = "node10" ∨ name = "node" then .ok .node10
  else if name = "node16-cjs" then .ok .node16Cjs
  else if name = "node16-esm" then .ok .node16Esm
  else if name = "bundler" then .ok .bundler
  else .error ⟨name⟩

/-- The selected algorithms in canonical order without repetitions; all of them when none is
    selected. -/
def select (kinds : List ResolutionKind) : List ResolutionKind :=
  if kinds.isEmpty then all else all.filter (· ∈ kinds)

end ResolutionKind

/-- What a resolution looks for: the declarations of an import, or the code that runs. -/
inductive ResolutionMode where
  | types
  | runtime
  deriving DecidableEq, Repr

/-- A file that an import resolves to. -/
structure Resolved where
  path : String
  format : ModuleFormat
  isDeclaration : Bool
  /-- Whether an earlier candidate of `exports` had no file. -/
  usedFallback : Bool
  deriving DecidableEq, Repr

/-- Why an import resolves to nothing. -/
inductive NotFoundReason where
  /-- The import names another package. -/
  | packageNotFound
  | subpathNotExported
  | noActiveCondition
  | invalidTarget
  | fileNotFound
  /-- A file was found, but no declaration. -/
  | notADeclaration
  /-- The import names a directory where only files are loaded. -/
  | directoryImport
  deriving DecidableEq, Repr

namespace NotFoundReason

def name : NotFoundReason → String
  | .packageNotFound => "packageNotFound"
  | .subpathNotExported => "subpathNotExported"
  | .noActiveCondition => "noMatchingCondition"
  | .invalidTarget => "invalidTarget"
  | .fileNotFound => "fileNotFound"
  | .notADeclaration => "notADeclaration"
  | .directoryImport => "unsupportedDirectoryImport"

/-- The reason as reports write it. -/
def text : NotFoundReason → String
  | .packageNotFound => "package not found"
  | .subpathNotExported => "subpath not exported"
  | .noActiveCondition => "no matching export condition"
  | .invalidTarget => "invalid export target"
  | .fileNotFound => "file not found"
  | .notADeclaration => "no declaration file"
  | .directoryImport => "directory import not supported"

end NotFoundReason

/-- The answer of a resolution. -/
inductive Resolution where
  | found (file : Resolved)
  | notFound (reason : NotFoundReason)
  deriving DecidableEq, Repr

namespace Resolution

def file? : Resolution → Option Resolved
  | .found file => some file
  | .notFound _ => none

def isFound (r : Resolution) : Bool :=
  r.file?.isSome

def path? (r : Resolution) : Option String :=
  r.file?.map (·.path)

end Resolution

end TypingsAudit
