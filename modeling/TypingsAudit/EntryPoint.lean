import TypingsAudit.Manifest
import TypingsAudit.Resolution.Basic

set_option autoImplicit false

/-! # Entry points

The subpaths of a package that can be imported: those its `exports` field names, or else the package
root and what `typesVersions` maps without a pattern. A subpath with a `*` is listed but stands for
no single import. -/

namespace TypingsAudit

/-- A subpath and the algorithms that it is resolved by. -/
structure EntryPoint where
  subpath : String
  isPattern : Bool
  kinds : List ResolutionKind
  deriving DecidableEq, Repr

namespace EntryPoint

/-- The subpath of the manifest, which is no entry point even where it is exported. -/
def manifestSubpath : String := "./" ++ Manifest.fileName

/-- The subpaths of a map in `exports`, without those that are excluded. -/
def exportedSubpaths (entries : List (String × Exports)) : List String :=
  (entries.filter fun (key, value) => key != manifestSubpath && !value.isExcluded).map (·.1)

/-- The subpaths of a package, perhaps with repetitions. -/
def subpaths (manifest : Manifest) : List String :=
  match manifest.exports with
  | some (.subpaths entries) => exportedSubpaths entries
  | some _ => [Exports.rootSubpath]
  | none =>
    Exports.rootSubpath ::
      match manifest.typesVersions with
      | some versions => versions.literalKeys.map ("./" ++ ·)
      | none => []

/-- The entry point of a subpath. Only the keys of `exports` are patterns. -/
def ofSubpath (kinds : List ResolutionKind) (subpath : String) : EntryPoint :=
  let isPattern := '*' ∈ subpath.toList
  { subpath, isPattern, kinds := if isPattern then [] else kinds }

/-- The entry points of a package in the order of its manifest, each once. -/
def ofManifest (manifest : Manifest) (kinds : List ResolutionKind) : List EntryPoint :=
  (subpaths manifest).eraseDups.map (ofSubpath kinds)

end EntryPoint

end TypingsAudit
