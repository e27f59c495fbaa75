import TypingsAudit.Script.Parser.Declaration

set_option autoImplicit false

/-! # Imports and exports

What ties a module to other modules. Of an import nothing is kept; of an export, what it makes
visible under which names. -/

namespace TypingsAudit.Script.Parser

/-- A name on either side of an import or export: any word, or a string. -/
def moduleName : Parser String := do
  match ← lexeme with
  | .string value =>
    advance
    return value
  | _ => anyName

/-- Whether a word or a string is at hand. -/
def isAtModuleName : Parser Bool := do
  match ← lexeme with
  | .string _ => return true
  | l => return l.isName

/-- The attributes of an import, behind `with` or `assert`. -/
def importAttributes : Parser Unit := do
  if !(← isAtWord "with") then
    if !(← isAtWord "assert") ∨ (← afterNewline) then return
  advance
  expect "\x7b"
  let pair : Parser Unit := do
    let _ ← moduleName
    expect ":"
    let _ ← stringValue
  let _ ← delimited "\x7d" pair

/-- The module an import or export names, with its attributes. -/
def moduleSource : Parser Unit := do
  let _ ← stringValue
  importAttributes
  semicolon

/-! ## Lists of names -/

/-- An entry of a list of imports or exports. -/
structure ModuleEntry where
  /-- Whether a word in front of `as` gives it another name on the other side. -/
  isRenamed : Bool
  name : String
  typeOnly : Bool

/-- An entry whose first word is `type`, which may be a name, mark the entry as a type, or both. -/
def entryAfterType : Parser ModuleEntry := do
  let unmarked (isRenamed : Bool) (name : String) : ModuleEntry := ⟨isRenamed, name, false⟩
  let marked (isRenamed : Bool) (name : String) : ModuleEntry := ⟨isRenamed, name, true⟩
  if !(← isTyped) ∨ !(← isAtModuleName) then return unmarked false "type"
  if !(← isAtWord "as") then return marked false (← moduleName)
  advance
  if ← isAtWord "as" then
    advance
    if ← isAtModuleName then return marked true (← moduleName)
    return unmarked true "as"
  if ← isAtModuleName then return unmarked true (← moduleName)
  return marked false "as"

/-- An entry of a list of imports or exports. -/
def moduleEntry : Parser ModuleEntry := do
  let isType ← isAtWord "type"
  let first ← moduleName
  let entry ← if isType then entryAfterType else pure ⟨false, first, false⟩
  if !entry.isRenamed then
    if ← eatWord "as" then return ⟨true, ← moduleName, entry.typeOnly⟩
  return entry

/-! ## Imports -/

/-- Whether a string is at hand. -/
def isAtString : Parser Bool := do
  match ← lexeme with
  | .string _ => return true
  | _ => return false

/-- The names an import binds beside a first one. -/
def importNames : Parser Unit := do
  if ← eat "*" then
    expectWord "as"
    let _ ← identifier
  else
    expect "\x7b"
    let _ ← delimited "\x7d" moduleEntry

/-- What an import binds, and the module. Behind a first name, the word `from` may be left out. -/
def importClause (hasDefault : Bool) : Parser Unit := do
  if hasDefault then
    if ← eat "," then importNames
    let _ ← eatWord "from"
  else if !(← isAtString) then
    importNames
    expectWord "from"
  moduleSource

/-- Whether the word `type` behind `import` marks what follows as types. -/
def isTypeImport : Parser Bool := do
  if !(← isTyped) then return false
  if ← isAtAny ["\x7b", "*"] then return true
  if !(← lexeme).isIdentifier then return false
  if !(← isAtWord "from") then return true
  nextIs fun t => t.lexeme.isWord "from" || t.lexeme.isPunct "="

/-- An import, behind the word. The words `type` and `source` may have `from` and a comma behind
    them, as names. -/
def importDeclaration : Parser Stmt := do
  if !(← lexeme).isIdentifier then return ← ofModule false
  let first ← identifier
  if first = "type" ∧ (← isTyped) ∨ first = "source" then
    if (← isAtWord "from") ∧ (← nextIs fun t => t.lexeme.isPunct ",") then advance
  if first = "type" ∧ (← isTypeImport) then
    if !(← lexeme).isIdentifier then return ← ofModule false
    named (← identifier)
  else if first = "defer" ∧ (← isAt "*") then ofModule false
  else if first = "source" ∧ (← lexeme).isIdentifier ∧
      (← nextIs fun t => t.lexeme.isWord "from") then
    let _ ← identifier
    ofModule true
  else named first
where
  /-- The module imported, and what is bound of it, behind a first name if there is one. -/
  ofModule (hasDefault : Bool) : Parser Stmt := do
    importClause hasDefault
    return .importModule
  /-- What follows a first name. -/
  named (name : String) : Parser Stmt := do
    if (← isAt ",") ∨ (← isAtWord "from") ∨ (← isAtString) then ofModule true
    else importAlias name

/-! ## Exports -/

/-- What is exported as the default, behind the word. -/
def exportDefault (below : Below) : Parser Stmt := do
  decorators below
  if ← isAtWord "class" then
    return .exportDefault (some (.classValue (← classFromKeyword below)))
  if (← isAtWord "abstract") ∧ (← nextIs fun t => t.lexeme.isWord "class") then
    advance
    return .exportDefault (some (.classValue (← classFromKeyword below)))
  if (← isAtWord "interface") ∧ (← nextIs fun t => !t.newlineBefore) then
    advance
    let _ ← interfaceType below
    return .exportDefault none
  let isAsync ← isAtAsyncFunction
  if isAsync then advance
  if ← isAtWord "function" then
    return .exportDefault
      (some (.functionValue (← functionFromKeyword below .optional isAsync).2))
  let e ← assignment below true
  semicolon
  return .exportDefault (some e)

/-- `export *`, behind the star. -/
def exportAll (typeOnly : Bool) : Parser Stmt := do
  let name ← if ← eatWord "as" then pure (some (← moduleName)) else pure none
  expectWord "from"
  moduleSource
  return .exportAll typeOnly name

/-- A list of exported names, behind its opening brace. The word `from` needs no module behind it,
    but no other literal may stand there. -/
def exportList (typeOnly : Bool) : Parser Stmt := do
  let entries ← delimited "\x7d" moduleEntry
  if (← eatWord "from") ∧ (← lexeme).isLiteral then moduleSource else semicolon
  return .exportList typeOnly (entries.map fun entry => ⟨entry.name, entry.typeOnly⟩)

/-- A class with decorators that is exported, behind the word. Any token stands for its keyword. -/
def decoratedExport (below : Below) : Parser Stmt := do
  decorators below
  let _ ← plainModifiers
  advance
  return .exportDeclaration (.classDeclaration (← classBehindKeyword below))

/-- An export, behind the word. -/
def exportDeclaration (below : Below) : Parser Stmt := do
  if ← eat "*" then return ← exportAll false
  if ← eat "\x7b" then return ← exportList false
  if ← isAt "@" then return ← decoratedExport below
  if ← eatWord "default" then return ← exportDefault below
  if ← isAtWord "import" then return .exportDeclaration (← declaration below)
  if ← isTyped then
    if ← eat "=" then
      let e ← assignment below true
      semicolon
      return .exportAssignment e
    if ← eatWord "as" then
      expectWord "namespace"
      let name ← anyName
      semicolon
      return .exportNamespace name
    if ← isAtWord "type" then
      if ← nextIs fun t => t.lexeme.isPunct "*" then
        advance
        advance
        return ← exportAll true
      if ← nextIs fun t => t.lexeme.isPunct "\x7b" then
        advance
        advance
        return ← exportList true
  return .exportDeclaration (← declaration below)

end TypingsAudit.Script.Parser
