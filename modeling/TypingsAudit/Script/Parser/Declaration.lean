import TypingsAudit.Script.Parser.Expression

set_option autoImplicit false

/-! # Declarations

Variables, functions, classes and, where types may be written, everything that only typed scripts
declare. -/

namespace TypingsAudit.Script.Parser

/-! ## Variables -/

/-- One variable or pattern with its value. -/
def declarator (below : Below) : Parser Declarator := do
  let p ← pattern below
  if ← isTyped then
    if p matches .name _ then
      if !(← afterNewline) then
        let _ ← eat "!"
    let _ ← eat "?"
  annotation below
  if ← eat "=" then return .mk p (some (← below (.assignment true)))
  return .mk p none

/-- The variables of a declaration, behind its keyword. -/
def declarators (below : Below) : Parser (List Declarator) :=
  commaList (declarator below)

/-- The kind of variables a word declares. -/
def variableKind? : Lexeme → Option VariableKind
  | .name "var" _ => some .var
  | .name "let" _ => some .let
  | .name "const" _ => some .const
  | _ => none

/-- A declaration of variables, behind its keyword. -/
def variableList (below : Below) (kind : VariableKind) : Parser Stmt := do
  let ds ← declarators below
  semicolon
  return .variableList kind ds

/-! ## Declarations of typed scripts -/

/-- A type alias, behind its keyword. The word `intrinsic` stands for a type that no other operator
    applies to. -/
def typeAlias (below : Below) : Parser Stmt := do
  let name ← identifier
  typeParameters below
  expect "="
  if ← isAtWord "intrinsic" then
    if ← nextIs fun t => t.lexeme.isPunct "." then typeReference below else advance
  else below .type
  semicolon
  return .typeDeclaration name

/-- An interface, behind its keyword. -/
def interfaceType (below : Below) : Parser Stmt := do
  let name ← identifier
  typeParameters below
  let _ ← heritageClauses below
  typeMembers below
  return .typeDeclaration name

/-- What a member of an enumeration is called: a word, or a text, perhaps in brackets. -/
def enumerationKey (below : Below) : Parser Unit := do
  if (← isAt "[") ∨ (← lexeme) matches .string _ then
    match ← key below with
    | .string _ => return
    | .computed (.string _) => return
    | .computed (.template _ []) => return
    | _ => failure
  let _ ← anyName

/-- An enumeration, behind its keyword. -/
def enumeration (below : Below) : Parser Stmt := do
  let name ← identifier
  expect "\x7b"
  let item : Parser (Option Expr) := do
    enumerationKey below
    if ← eat "=" then return some (← below (.assignment true))
    return none
  let values ← delimited "\x7d" item
  return .enumeration name (values.filterMap id)

/-- The statements of a namespace, in braces. -/
def namespaceBody (below : Below) : Parser (List Stmt) := do
  return withoutDirectives (← block below)

/-- A namespace, behind its keyword. A name with points stands for nested namespaces, and goes by
    its first part. -/
def namespaceDeclaration (below : Below) : Parser Stmt := do
  let name ← identifier
  let part : Parser (Option String) := do
    if ← eat "." then return some (← identifier)
    return none
  let parts ← collect part
  let body ← namespaceBody below
  let nested := parts.foldr (fun inner (body : List Stmt) => [.namespaceBlock inner body]) body
  return .namespaceBlock name nested

/-- What belongs to a module described from outside, which may lack a body. -/
def outsideModule (below : Below) (name : String) : Parser Stmt := do
  if ← isAt "\x7b" then return .namespaceBlock name (← namespaceBody below)
  semicolon
  return .namespaceBlock name []

/-- What stands behind the keyword `module`: a namespace, or a module named by a text. -/
def moduleDeclaration (below : Below) : Parser Stmt := do
  match ← lexeme with
  | .string name =>
    advance
    outsideModule below name
  | _ => namespaceDeclaration below

/-- What an imported name stands for, behind the name: a module that is required, or a name. -/
def importAlias (name : String) : Parser Stmt := do
  expect "="
  if ← eatWord "require" then
    expect "("
    let _ ← stringValue
    expect ")"
  else entityName
  semicolon
  return .importAlias name

/-- Whether a declaration of a typed script starts here, perhaps behind modifiers. -/
def isAtTypedDeclaration : Parser Bool :=
  let isDeclared : Parser (Unit ⊕ Bool) := do
    let some w := (← lexeme).word? | return .inr false
    if ["var", "let", "const", "function", "class", "enum"].contains w then return .inr true
    advance
    let newline ← afterNewline
    let l ← lexeme
    match w with
    | "interface" => return .inr (l.isIdentifier && !newline)
    | "type" => return .inr (l.isIdentifier && !newline)
    | "module" => return .inr (!newline && (l.isIdentifier || l matches .string _))
    | "namespace" => return .inr (!newline && (l.isIdentifier || l matches .string _))
    | "global" => return .inr (l.isPunct "\x7b" || l.isPlainName || l.isWord "export")
    | "import" =>
      return .inr (l.isName || l.isPunct "*" || l.isPunct "\x7b" || l matches .string _)
    | "export" =>
      let _ ← eatWord "type"
      let l ← lexeme
      return if ["=", "*", "\x7b", "@"].any l.isPunct || ["default", "as"].any l.isWord
        then .inr true else .inl ()
    | "static" => return .inl ()
    | _ =>
      let isFront := ["abstract", "accessor", "async", "declare", "private", "protected", "public",
        "readonly"].contains w
      return if isFront && !newline then .inl () else .inr false
  ahead do iterate (fun _ => isDeclared) (← read).bound ()

/-- Whether the word at hand is a modifier of a declaration. -/
def isDeclarationModifier (w : String) : Parser Bool :=
  match w with
  | "const" => nextIs fun t => t.lexeme.isWord "enum"
  | "static" => nextIs fun t => canFollowModifier t.lexeme
  | "accessor" => nextIs fun t => canFollowModifier t.lexeme
  | _ => nextIs fun t => !t.newlineBefore && canFollowModifier t.lexeme

/-- The modifiers in front of a declaration of a typed script. -/
def declarationModifiers : Parser (List String) := do
  if !(← isTyped) then return []
  collect do
    let some w := (← lexeme).word? | return none
    if modifierWords.contains w then
      if ← isDeclarationModifier w then
        advance
        return some w
    return none

/-- A function that is declared for what is defined elsewhere. A body, which has no place there, is
    only reported. -/
def declaredFunction (below : Below) (awaits : Bool) : Parser Stmt := do
  expectWord "function"
  let name ← identifier?
  let f ← functionFromParameters below .optional false awaits
  if let .mk _ (some _) := f then semicolon
  return .functionDeclaration name f

/-- The declaration of another name for something imported, behind the keyword. -/
def importedName : Parser Stmt := do
  let name ← identifier
  if name = "type" ∧ (← isTyped) ∧ (← lexeme).isIdentifier then importAlias (← identifier)
  else importAlias name

/-- A declaration of a typed script that starts with the keyword `word`, which has been taken. -/
def typedDeclaration (below : Below) (word : String) : Parser Stmt := do
  match word with
  | "type" => typeAlias below
  | "interface" => interfaceType below
  | "enum" => enumeration below
  | "module" => moduleDeclaration below
  | "namespace" => namespaceDeclaration below
  | "global" => outsideModule below "global"
  | _ => failure

/-- A class, a function, variables or a declaration of types, behind the modifiers `words`. -/
def declarationBehind (below : Below) (words : List String) : Parser Stmt := do
  let l ← lexeme
  if l.isWord "class" then return .classDeclaration (← classFromKeyword below)
  if let some kind := variableKind? l then
    advance
    return ← variableList below kind
  if ← eatWord "import" then return ← importedName
  let isAsync ← isAtAsyncFunction
  if isAsync then advance
  if ← isAtWord "function" then
    let awaits := isAsync || words.contains "async"
    if words.contains "declare" then return ← declaredFunction below awaits
    let (name, f) ← functionFromKeyword below .optional awaits
    return .functionDeclaration name f
  match ← isTyped, l with
  | true, .name word _ =>
    advance
    typedDeclaration below word
  | _, _ => failure

/-- A declaration with its modifiers. -/
def declaration (below : Below) : Parser Stmt := do
  let words ← declarationModifiers
  ambient (words.contains "declare") (declarationBehind below words)

/-- A declaration of a typed script that stands as a statement. In it `await` is an operator only
    behind the modifier `async`. -/
def declarationStatement (below : Below) : Parser Stmt := do
  let words ← declarationModifiers
  within <| ambient (words.contains "declare") <|
    withReader (fun mode : Mode => { mode with awaits := words.contains "async" })
      (declarationBehind below words)

end TypingsAudit.Script.Parser
