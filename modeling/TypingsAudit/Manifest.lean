import TypingsAudit.Exports.Basic
import TypingsAudit.Json.Parser
import TypingsAudit.Json.Printer
import TypingsAudit.TypesVersions

set_option autoImplicit false

/-! # The manifest of a package

`Manifest.ofJson` reads what is needed of a `package.json`. Only two things make a manifest
unusable: that it is no object, or that its `exports` field has no meaning. Any other malformed field
counts as absent, and `Manifest.warnings` says which ones were. -/

namespace TypingsAudit

/-- The `type` field: how `.js` files are loaded. -/
inductive PackageType where
  | module
  | commonjs
  deriving DecidableEq, Repr

namespace PackageType

def ofName? : String → Option PackageType
  | "module" => some .module
  | "commonjs" => some .commonjs
  | _ => none

def ofJson? (value : Json) : Option PackageType :=
  value.string?.bind ofName?

def name : PackageType → String
  | .module => "module"
  | .commonjs => "commonjs"

end PackageType

structure Manifest where
  name : Option String
  version : Option String
  type : Option PackageType
  main : Option String
  module : Option String
  /-- `types`, or `typings` in its absence. -/
  types : Option String
  exports : Option Exports
  typesVersions : Option TypesVersions
  deriving Repr

namespace Manifest

/-- The name of the file that holds the manifest of a directory. -/
def fileName : String := "package.json"

/-- Why a manifest is unusable. -/
inductive Error where
  /-- The package has no manifest at its root. -/
  | missing
  | notJson (error : Json.ParseError)
  | notAnObject
  | badExports (error : Exports.ShapeError)
  deriving Repr

/-- What is wrong with the manifest. -/
def Error.detail : Error → String
  | .missing => "no package.json at the package root"
  | .notJson e => "package.json: " ++ e.message
  | .notAnObject => "package.json must contain a JSON object"
  | .badExports (.unsupported v) => "unsupported exports value: " ++ v.compact
  | .badExports .mixedKeys => "exports object mixes subpath keys and condition keys"
  | .badExports .nestedSubpaths => "subpath keys are only allowed at the top level of exports"

def Error.message (e : Error) : String :=
  "invalid package metadata: " ++ e.detail

/-- A field that is malformed and counts as absent. -/
inductive Warning where
  | unknownType (name : String)
  | notAString (field : String) (value : Json)
  | unusableRange (range : String)
  deriving Repr

def Warning.message : Warning → String
  | .unknownType name => s!"Ignoring unknown package type '{name}'"
  | .notAString field value =>
    s!"Ignoring package.json field '{field}': expected a string, found {value.compact}"
  | .unusableRange range => s!"Ignoring typesVersions range '{range}': mapping is not an object"

/-- The text of a field, when it has one. -/
def text? (members : Json.Members) (field : String) : Option String :=
  (Json.Members.get? members field).bind Json.string?

/-- Read the `exports` member, if there is one. -/
def readExports (members : Json.Members) : Except Error (Option Exports) :=
  match Json.Members.get? members "exports" with
  | none => .ok none
  | some v =>
    match Exports.ofJson v with
    | .ok e => .ok (some e)
    | .error e => .error (.badExports e)

def ofJson (value : Json) : Except Error Manifest :=
  match value with
  | .object members => do
    let exports ← readExports members
    .ok
      { name := text? members "name"
        version := text? members "version"
        type := (Json.Members.get? members "type").bind PackageType.ofJson?
        main := text? members "main"
        module := text? members "module"
        types := (text? members "types").or (text? members "typings")
        exports
        typesVersions := (Json.Members.get? members "typesVersions").bind TypesVersions.ofJson? }
  | _ => .error .notAnObject

/-- Read a manifest from the bytes of its file. -/
def parse (bytes : Bytes) : Except Error Manifest :=
  match Json.parse bytes with
  | .ok value => ofJson value
  | .error e => .error (.notJson e)

/-- The warning for a field that should be a string: `null` is passed over in silence. -/
def textWarnings (members : Json.Members) (field : String) : List Warning :=
  match Json.Members.get? members field with
  | none | some (.string _) | some .null => []
  | some value => [.notAString field value]

def typeWarnings (members : Json.Members) : List Warning :=
  match Json.Members.get? members "type" with
  | some (.string name) => if (PackageType.ofName? name).isNone then [.unknownType name] else []
  | _ => []

def typesVersionsWarnings (members : Json.Members) : List Warning :=
  match (Json.Members.get? members "typesVersions").bind TypesVersions.badRange? with
  | some range => [.unusableRange range]
  | none => []

/-- The warnings of a manifest, in the order in which its fields are looked at. `typings` is looked
    at only when `types` has no text. -/
def warnings (value : Json) : List Warning :=
  match value with
  | .object members =>
    textWarnings members "name" ++ textWarnings members "version" ++ typeWarnings members ++
      textWarnings members "main" ++ textWarnings members "module" ++
      textWarnings members "types" ++
      (if (text? members "types").isNone then textWarnings members "typings" else []) ++
      typesVersionsWarnings members
  | _ => []

end Manifest

end TypingsAudit
