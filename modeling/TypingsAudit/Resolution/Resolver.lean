import TypingsAudit.Exports.Lookup
import TypingsAudit.Resolution.ModuleScopes

set_option autoImplicit false

/-! # Finding the file of an import

A `Resolver` answers for one package: which file a subpath of the package or a specifier leads to,
under each algorithm and in each mode.

Where the package has an `exports` field, the Node.js algorithms and the bundler follow it; `node10`
never does. What `exports` says nothing about, the older fields answer: `types` and `main`
(`module` for a bundler), `typesVersions`, and probing for files by their endings. Probing is the
first existing file of a list of paths (`declarationPaths`, `scriptPaths`), and a directory adds the
paths its own manifest and its `index` stand for.

`Resolver.enter` answers for a subpath of the package, `Resolver.resolve` for any specifier. -/

namespace TypingsAudit

/-- A package and the conditions that are active besides the usual ones. -/
structure Resolver where
  tree : FileTree
  manifest : Manifest
  extraConditions : List String
  scopes : ModuleScopes

namespace Resolver

/-- The resolver for a package. -/
def ofPackage (tree : FileTree) (manifest : Manifest) (extraConditions : List String) : Resolver :=
  { tree, manifest, extraConditions, scopes := ModuleScopes.ofTree tree manifest.type }

/-- The conditions an algorithm activates by itself. -/
def usualConditions : ResolutionKind → List String
  | .node10 | .node16Cjs => ["require", "node"]
  | .node16Esm => ["import", "node"]
  | .bundler => ["import", "module"]

/-- The conditions that are active for an algorithm in a mode. -/
def conditions (r : Resolver) (kind : ResolutionKind) (mode : ResolutionMode) : ConditionSet :=
  ConditionSet.ofNames <|
    usualConditions kind ++ (if mode = .types then ["types"] else []) ++ r.extraConditions

/-! ## Probing -/

/-- The name of the file that stands for its directory, without its ending. -/
def indexName : String := "index"

/-- The endings tried for a script whose path has none. -/
def scriptEndings : ResolutionKind → List String
  | .bundler => [".js", ".mjs", ".cjs", ".json"]
  | _ => [".js", ".json"]

/-- The paths at which the declarations of `path` may be, in order. -/
def declarationPaths (path : String) : List String :=
  if Path.isDeclaration path then [path]
  else (Path.counterpart? path).toList ++ [path ++ ".d.ts"]

/-- The paths at which the script `path` may be, in order. -/
def scriptPaths (endings : List String) (path : String) : List String :=
  path :: endings.map (path ++ ·)

/-- The first path that is a file. -/
def firstFile (r : Resolver) (paths : List String) : Option String :=
  paths.find? r.tree.isFile

def declarationFile (r : Resolver) (path : String) : Option String :=
  r.firstFile (declarationPaths path)

def scriptFile (r : Resolver) (endings : List String) (path : String) : Option String :=
  r.firstFile (scriptPaths endings path)

/-- The manifest of a directory. The package root has the manifest of the package; a manifest that
    cannot be read is as good as none. -/
def manifestOf (r : Resolver) (dir : String) : Option Manifest := do
  if dir = "" then some r.manifest
  else
    let path ← Path.join? dir Manifest.fileName
    let file ← r.tree.file? path
    (Manifest.parse file.contents).toOption

/-- The declaration file a directory stands for: by the `types` or `main` of its manifest, or its
    index. -/
def declarationOfDirectory (r : Resolver) (dir : String) : Option String :=
  if r.tree.isDirectory dir then
    let named (field : Manifest → Option String) : Option String := do
      let manifest ← r.manifestOf dir
      let path ← (field manifest).bind (Path.join? dir)
      r.declarationFile path
    named (·.types) <|> named (·.main) <|> (Path.join? dir indexName).bind r.declarationFile
  else none

/-- The script a directory stands for: by the `main` of its manifest, as a file or a directory of its
    own, or its index. -/
def scriptOfDirectory (r : Resolver) (endings : List String) (dir : String) : Option String :=
  if r.tree.isDirectory dir then
    let fromMain := do
      let manifest ← r.manifestOf dir
      let main ← manifest.main.bind (Path.join? dir)
      r.scriptFile endings main <|>
        (Path.join? main indexName).bind (r.scriptFile endings)
    fromMain <|> (Path.join? dir indexName).bind (r.scriptFile endings)
  else none

/-- The declarations of a path, read as a file and then as a directory. -/
def declarationsAt (r : Resolver) (path : String) : Option String :=
  r.declarationFile path <|> r.declarationOfDirectory path

/-- The script at a path, read as a file and then as a directory. -/
def scriptAt (r : Resolver) (endings : List String) (path : String) : Option String :=
  r.scriptFile endings path <|> r.scriptOfDirectory endings path

/-! ## Answers -/

def found (r : Resolver) (path : String) (usedFallback : Bool) : Resolution :=
  .found
    { path
      format := r.scopes.formatOf path
      isDeclaration := Path.isDeclaration path
      usedFallback }

/-- The answer for the outcome of probing. -/
def foundOr (r : Resolver) (reason : NotFoundReason) : Option String → Resolution
  | some path => r.found path false
  | none => .notFound reason

/-- The answer where a path names its file exactly, without endings and directories. In types mode
    it may name the script that the declaration goes with. -/
def exactly (r : Resolver) (path : String) (mode : ResolutionMode) : Resolution :=
  let target :=
    match mode with
    | .runtime => some path
    | .types => if Path.isDeclaration path then some path else Path.counterpart? path
  match target.filter r.tree.isFile with
  | some path => r.found path false
  | none =>
    .notFound (if r.tree.isDirectory path then .directoryImport else .fileNotFound)

/-- The answer for a path of the package. -/
def atPath (r : Resolver) (kind : ResolutionKind) (path : String) (mode : ResolutionMode) :
    Resolution :=
  if kind = .node16Esm then r.exactly path mode
  else
    r.foundOr .fileNotFound <|
      match mode with
      | .types => r.declarationsAt path
      | .runtime => r.scriptAt (scriptEndings kind) path

/-! ## The older fields -/

/-- The paths at which the declarations for a path are looked for. Places outside the package are
    passed over. -/
def mappedPaths (r : Resolver) (path : String) : List String :=
  match r.manifest.typesVersions.bind (·.map? path) with
  | some targets => targets.filterMap Path.normalize?
  | none => [path]

/-- The first declarations among the places for a path. -/
def mappedDeclarations (r : Resolver) (path : String) : Option String :=
  (r.mappedPaths path).findSome? r.declarationsAt

/-- A field that names a path in the package. -/
def fieldPath (field : Option String) : Option String :=
  field.bind Path.normalize?

/-- The package root by the fields `types`, `module` and `main`. -/
def legacyRoot (r : Resolver) (kind : ResolutionKind) (mode : ResolutionMode) : Resolution :=
  let main := fieldPath r.manifest.main
  r.foundOr .fileNotFound <|
    match mode with
    | .types =>
      (fieldPath r.manifest.types).bind r.mappedDeclarations <|>
        main.bind r.declarationsAt <|> r.mappedDeclarations indexName
    | .runtime =>
      let endings := scriptEndings kind
      let module := if kind = .bundler then fieldPath r.manifest.module else none
      module.bind (r.scriptAt endings) <|> main.bind (r.scriptAt endings) <|>
        r.scriptFile endings indexName

/-- The first answer that is found, or else the last one; `fileNotFound` without any. -/
def firstFound : List Resolution → Resolution
  | [] => .notFound .fileNotFound
  | [answer] => answer
  | answer :: rest => if answer.isFound then answer else firstFound rest

/-- A subpath as a path of the package. -/
def legacy (r : Resolver) (kind : ResolutionKind) (subpath : String) (mode : ResolutionMode) :
    Resolution :=
  if subpath = Exports.rootSubpath then r.legacyRoot kind mode
  else
    match Path.normalize? subpath with
    | none => .notFound .fileNotFound
    | some path =>
      match mode with
      | .runtime => r.atPath kind path mode
      | .types => firstFound ((r.mappedPaths path).map (r.atPath kind · mode))

/-! ## The `exports` field -/

/-- The declaration file that a target names itself. -/
def namedDeclaration (r : Resolver) (target : String) : Option String :=
  (Path.normalize? target).filter fun path => Path.isDeclaration path && r.tree.isFile path

/-- The declarations for a target, by its own path or the one that goes with it. -/
def targetDeclaration (r : Resolver) (target : String) : Option String :=
  (Path.normalize? target).bind r.declarationFile

/-- The first target with declarations. The answer says whether it is the first target of all. -/
def firstDeclared (r : Resolver) (declaration : String → Option String) (targets : List String) :
    Option Resolution :=
  match targets with
  | [] => none
  | first :: rest =>
    match declaration first with
    | some path => some (r.found path false)
    | none => (rest.findSome? declaration).map (r.found · true)

/-- The declarations that the `types` field names, for the package root alone. -/
def rootTypes (r : Resolver) (subpath : String) : Option String :=
  if subpath = Exports.rootSubpath then (fieldPath r.manifest.types).bind r.declarationsAt
  else none

/-- The answer of Node.js for the targets of a subpath: the first one as it stands, or the first one
    that is a declaration. -/
def nodeTargets (r : Resolver) (targets : List String) (subpath : String)
    (mode : ResolutionMode) : Resolution :=
  match mode with
  | .runtime =>
    match targets.head?.bind Path.normalize? with
    | none => .notFound .invalidTarget
    | some path => if r.tree.isFile path then r.found path false else .notFound .fileNotFound
  | .types =>
    match r.firstDeclared r.namedDeclaration targets with
    | some answer => answer
    | none => r.foundOr .notADeclaration (r.rootTypes subpath)

/-- The answer of a bundler for the targets of a subpath: no other field is looked at. -/
def bundlerTargets (r : Resolver) (targets : List String) (mode : ResolutionMode) : Resolution :=
  match mode with
  | .runtime =>
    match targets.head?.bind Path.normalize? with
    | none => .notFound .invalidTarget
    | some path => r.foundOr .fileNotFound (r.scriptFile (scriptEndings .bundler) path)
  | .types =>
    match r.firstDeclared r.targetDeclaration targets with
    | some answer => answer
    | none => .notFound .notADeclaration

def nodeExports (r : Resolver) (exports : Exports) (subpath : String) (mode : ResolutionMode)
    (active : ConditionSet) : Resolution :=
  match exports.lookup subpath active with
  | .candidates targets => r.nodeTargets targets subpath mode
  | .notExported => .notFound .subpathNotExported
  | .noActiveCondition => .notFound .noActiveCondition
  | .invalidTarget => .notFound .invalidTarget

/-- A bundler turns to the older fields where the lookup has no targets. -/
def bundlerExports (r : Resolver) (exports : Exports) (subpath : String) (mode : ResolutionMode)
    (active : ConditionSet) : Resolution :=
  match exports.lookup subpath active with
  | .candidates targets => r.bundlerTargets targets mode
  | _ => r.legacy .bundler subpath mode

/-! ## Subpaths and specifiers -/

/-- The answer for a subpath of the package under the given conditions. -/
def atSubpath (r : Resolver) (kind : ResolutionKind) (subpath : String) (mode : ResolutionMode)
    (active : ConditionSet) : Resolution :=
  match kind, r.manifest.exports with
  | .node10, _ | _, none => r.legacy kind subpath mode
  | .node16Cjs, some exports | .node16Esm, some exports =>
    r.nodeExports exports subpath mode active
  | .bundler, some exports => r.bundlerExports exports subpath mode active

/-- The answer for a subpath (`"."` or `"./sub"`) as importers of the package get it. -/
def enter (r : Resolver) (kind : ResolutionKind) (subpath : String) (mode : ResolutionMode) :
    Resolution :=
  r.atSubpath kind subpath mode (r.conditions kind mode)

/-- Whether a specifier is a path and no name of a package. -/
def isRelative (specifier : String) : Bool :=
  specifier == "." || specifier == ".." || Text.startsWith "./" specifier ||
    Text.startsWith "../" specifier || Text.startsWith "/" specifier

/-- The subpath that a specifier names, when it names this package. -/
def subpathOf? (r : Resolver) (specifier : String) : Option String := do
  let name ← r.manifest.name
  if specifier = name then some Exports.rootSubpath
  else
    let rest ← (Text.dropFront? name specifier).bind (Text.dropFront? "/")
    some ("./" ++ rest)

/-- The answer for a specifier that `importer` imports; without an importer, that is imported from
    the package root. -/
def resolve (r : Resolver) (kind : ResolutionKind) (specifier : String) (importer : Option String)
    (mode : ResolutionMode) (active : ConditionSet) : Resolution :=
  if isRelative specifier then
    let dir := (importer.bind Path.parent?).getD ""
    match Path.join? dir specifier with
    | some path => r.atPath kind path mode
    | none => .notFound .fileNotFound
  else
    match r.subpathOf? specifier with
    | some subpath => r.atSubpath kind subpath mode active
    | none => .notFound .packageNotFound

end Resolver

end TypingsAudit
