import TypingsAudit.FileTree
import TypingsAudit.Manifest
import TypingsAudit.Resolution.Basic

set_option autoImplicit false

/-! # The declared format of a file

The ending of a path decides the format of most files. For `.js` and `.d.ts` it is the `type` of the
nearest manifest above the file. `ModuleScopes` holds the `type` for every directory that has a
manifest; the package root has the one of the analyzed package, whatever its own file says. -/

namespace TypingsAudit

/-- The directories that have a manifest, each with its `type`. -/
structure ModuleScopes where
  types : List (String × Option PackageType)
  deriving Repr

namespace ModuleScopes

/-- The directory below the root whose manifest `path` is. -/
def manifestDir? (path : String) : Option String :=
  Text.dropTail? ("/" ++ Manifest.fileName) path

/-- The `type` in the bytes of a manifest. A manifest that cannot be read has none. -/
def declaredType? (bytes : Bytes) : Option PackageType :=
  match Json.parse bytes with
  | .ok (.object members) => (Json.Members.get? members "type").bind PackageType.ofJson?
  | _ => none

/-- The scopes of a tree of files, with `rootType` for the package root. -/
def ofTree (tree : FileTree) (rootType : Option PackageType) : ModuleScopes :=
  { types := ("", rootType) :: tree.files.filterMap fun file =>
      match manifestDir? file.path with
      | some dir => if dir = "" then none else some (dir, declaredType? file.contents)
      | none => none }

/-- The scope that begins at a directory, if one does. -/
def at? (scopes : ModuleScopes) (dir : String) : Option (Option PackageType) :=
  (scopes.types.find? (·.1 == dir)).map (·.2)

/-- The `type` of the nearest manifest above a path. -/
def typeOf (scopes : ModuleScopes) (path : String) : Option PackageType :=
  ((Path.ancestors path).findSome? scopes.at?).getD none

/-- The format a file is loaded as, without a look at its contents. -/
def formatOf (scopes : ModuleScopes) (path : String) : ModuleFormat :=
  match FileKind.ofPath path with
  | .mjs | .dmts => .esm
  | .cjs | .dcts => .cjs
  | .js | .dts => if scopes.typeOf path = some .module then .esm else .cjs
  | .json | .other => .unknown

end ModuleScopes

end TypingsAudit
