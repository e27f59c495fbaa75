import TypingsAudit.Path
import TypingsAudit.Script.Parser

set_option autoImplicit false

/-! # Module syntax

How a file is written as a module, whatever format it is loaded in: with `import` and `export`, with
`require` and `exports`, with neither, or with both. Only the statements at the top level are looked
at, and of those in the second style only expression statements and the values of variables.

A script is scanned into a list of signs (`Script.signs`), one for each thing that a statement shows
about its module; `ModuleSyntax` sums them up. -/

namespace TypingsAudit

namespace Script

/-- One thing that a statement shows about the module it stands in. -/
inductive Sign where
  /-- An import or an export. -/
  | moduleSyntax
  /-- A value exported under a name. -/
  | exported (name : String)
  /-- All names of another module are exported. -/
  | starExport
  /-- `export = e` -/
  | exportAssignment
  /-- `require("m")` -/
  | requires
  /-- `exports` or `module.exports` is used. -/
  | usesExports
  /-- `exports.name` is set. -/
  | setsName (name : String)
  /-- `module.exports` is set. -/
  | setsExports
  /-- `module.exports` is set to something whose names cannot all be seen. -/
  | setsUnknown
  /-- `exports.__esModule` is set. -/
  | setsMarker
  deriving DecidableEq, Repr

/-- The property that marks an object of exports as converted from a module with a default. -/
def markerName : String := "__esModule"

def Expr.isName (text : String) : Expr → Bool
  | .name other => other == text
  | _ => false

/-- Whether the expression is `module.exports`. -/
def Expr.isModuleExports : Expr → Bool
  | .member base text => base.isName "module" && text == "exports"
  | _ => false

/-- Whether the expression is the object whose properties are exported. -/
def Expr.isExports (e : Expr) : Bool :=
  e.isName "exports" || e.isModuleExports

/-- Setting a property of the object of exports. -/
def Sign.setting (name : String) : Sign :=
  if name = markerName then .setsMarker else .setsName name

/-- What a property of an object shows when the object is what the module exports. -/
def Property.exportSign : Property → Sign
  | .entry key _ =>
    match key.staticName? with
    | some name => .setsName name
    | none => .setsUnknown
  | .shorthand text _ => .setsName text
  | .spread _ => .setsUnknown

/-- What the value that `module.exports` is set to shows. -/
def Expr.exportSigns : Expr → List Sign
  | .object properties => properties.map Property.exportSign
  | _ => [.setsUnknown]

/-- The object of the member that is set, and the name of the member unless it is computed. -/
def Target.member? : Target → Option (Expr × Option String)
  | .member base text => some (base, some text)
  | .index base (.string text) => some (base, some text)
  | .index base _ => some (base, none)
  | _ => none

/-- What setting a target to a value shows. -/
def Target.signs (target : Target) (value : Expr) : List Sign :=
  match target.member? with
  | none => []
  | some (base, property) =>
    if base.isName "module" ∧ property = some "exports" then
      .usesExports :: .setsExports :: value.exportSigns
    else if base.isExports then .usesExports :: (property.map Sign.setting).toList
    else []

/-- Whether the expression is `Object.defineProperty`. -/
def Expr.isDefineProperty : Expr → Bool
  | .member base text => base.isName "Object" && text == "defineProperty"
  | _ => false

/-- What a call shows by itself: that of `require` with a text, and that of `Object.defineProperty`
    on the object of exports. -/
def callSigns (callee : Expr) : List Element → List Sign
  | .item (.string _) :: _ => if callee.isName "require" then [.requires] else []
  | .item base :: .item (.string name) :: _ =>
    if callee.isDefineProperty ∧ base.isExports then [.usesExports, .setting name] else []
  | _ => []

mutual

/-- What an expression shows: through assignments, calls with their arguments, sequences, arrays,
    objects, conditions and parentheses, but not into other operators or functions. -/
def Expr.signs : Expr → List Sign
  | .assign _ target value => target.signs value ++ value.signs
  | .call callee arguments =>
    callSigns callee arguments ++ elementSigns arguments ++ callee.signs
  | .sequence parts => partSigns parts
  | .array elements => elementSigns elements
  | .object properties => propertySigns properties
  | .conditional test yes no => test.signs ++ yes.signs ++ no.signs
  | .paren inner => inner.signs
  | .member base text =>
    if (Expr.member base text).isModuleExports ∨ base.isName "exports" then [.usesExports] else []
  | _ => []

def partSigns : List Expr → List Sign
  | [] => []
  | e :: more => e.signs ++ partSigns more

def elementSigns : List Element → List Sign
  | [] => []
  | .item e :: more => e.signs ++ elementSigns more
  | .hole :: more => elementSigns more
  | .spread _ :: more => elementSigns more

def propertySigns : List Property → List Sign
  | [] => []
  | .entry _ value :: more => value.signs ++ propertySigns more
  | .shorthand _ _ :: more => propertySigns more
  | .spread _ :: more => propertySigns more

end

/-- The name a variable is declared by, unless a pattern takes a value apart. -/
def Declarator.name? : Declarator → Option String
  | .mk (.name text) _ => some text
  | .mk _ _ => none

/-- What the value of a variable shows. -/
def Declarator.signs : Declarator → List Sign
  | .mk _ (some value) => value.signs
  | .mk _ none => []

/-- The values a declaration gives a name to. Patterns are not looked into. -/
def Stmt.declaredNames : Stmt → List String
  | .variableList _ declarators => declarators.filterMap Declarator.name?
  | .functionDeclaration name _ => name.toList
  | .classDeclaration (.mk name _ _) => name.toList
  | .enumeration name _ => [name]
  | .namespaceBlock name _ => [name]
  | _ => []

/-- What a statement shows. -/
def Stmt.signs : Stmt → List Sign
  | .importModule => [.moduleSyntax]
  | .exportAll typeOnly name =>
    .moduleSyntax ::
      (if typeOnly then [] else
        match name with
        | some name => [.exported name]
        | none => [.starExport])
  | .exportDefault _ => [.moduleSyntax, .exported "default"]
  | .exportDeclaration declaration => .moduleSyntax :: declaration.declaredNames.map .exported
  | .exportList typeOnly specifiers =>
    .moduleSyntax ::
      (if typeOnly then [] else
        (specifiers.filter fun s => !s.typeOnly).map fun s => .exported s.exported)
  | .exportAssignment _ => [.moduleSyntax, .exportAssignment]
  | .exportNamespace _ => [.moduleSyntax]
  | .expression e => e.signs
  | .variableList _ declarators => declarators.flatMap Declarator.signs
  | _ => []

/-- What the statements of a script show. -/
def signs (script : List Stmt) : List Sign :=
  script.flatMap Stmt.signs

end Script

/-- The style a file is written in. -/
inductive SyntaxKind where
  /-- With `import` or `export`. -/
  | esm
  /-- With `require` or `exports`, and without the above. -/
  | cjs
  /-- With none of them. -/
  | none
  /-- The file cannot be read. -/
  | unparsable
  deriving DecidableEq, Repr

def SyntaxKind.name : SyntaxKind → String
  | .esm => "esm"
  | .cjs => "cjs"
  | .none => "none"
  | .unparsable => "unparsable"

/-- What a file sets on its object of exports. -/
structure CommonJsExports where
  /-- The names that are set, in order and without repetition. -/
  names : List String
  /-- Whether `module.exports` itself is set. -/
  setsExports : Bool
  /-- Whether names may be set that cannot be seen. -/
  hasUnknown : Bool
  /-- Whether the marker of a converted module is set. -/
  hasMarker : Bool
  deriving DecidableEq, Repr

/-- How a file is written as a module. -/
structure ModuleSyntax where
  kind : SyntaxKind
  /-- The values exported by `export`, in order and without repetition. -/
  exports : List String
  hasStarExport : Bool
  hasExportAssignment : Bool
  commonJs : CommonJsExports
  deriving DecidableEq, Repr

namespace ModuleSyntax

open Script

/-- Names in the order of their code points, each once. -/
def sorted (names : List String) : List String :=
  names.eraseDups.mergeSort

theorem mem_sorted {name : String} {names : List String} : name ∈ sorted names ↔ name ∈ names := by
  simp [sorted, List.mem_mergeSort]

/-- The names that signs export. -/
def exportedNames (signs : List Sign) : List String :=
  signs.filterMap fun
    | .exported name => some name
    | _ => none

/-- The names that signs set on the object of exports. -/
def setNames (signs : List Sign) : List String :=
  signs.filterMap fun
    | .setsName name => some name
    | _ => none

/-- The style that signs show. -/
def kindOf (signs : List Sign) : SyntaxKind :=
  if .moduleSyntax ∈ signs then .esm
  else if .requires ∈ signs ∨ .usesExports ∈ signs then .cjs
  else .none

/-- The sum of what is found in a script. -/
def ofSigns (signs : List Sign) : ModuleSyntax :=
  { kind := kindOf signs
    exports := sorted (exportedNames signs)
    hasStarExport := .starExport ∈ signs
    hasExportAssignment := .exportAssignment ∈ signs
    commonJs :=
      { names := sorted (setNames signs)
        setsExports := .setsExports ∈ signs
        hasUnknown := .setsUnknown ∈ signs
        hasMarker := .setsMarker ∈ signs } }

/-- What is known of a file that cannot be read. -/
def unparsable : ModuleSyntax :=
  { ofSigns [] with kind := .unparsable }

/-- What the file may hold, by the ending of its path. -/
def dialect (path : String) : Dialect :=
  if (FileKind.ofPath path).isDeclaration then .declarations
  else
    match Text.cutLast '.' path.toList with
    | some (_, ending) =>
      if ["ts", "mts", "cts"].contains (String.ofList ending) then .typed else .untyped
    | none => .untyped

/-- How the file with the given path and text is written. -/
def ofSource (path source : String) : ModuleSyntax :=
  match parse? (dialect path) source with
  | some script => ofSigns (signs script)
  | none => unparsable

end ModuleSyntax

end TypingsAudit
