import TypingsAudit.Script.Parser.Types

set_option autoImplicit false

/-! # Functions and classes

Everything that has parameters and a body, except arrow functions. A function without a body only
declares its type. -/

namespace TypingsAudit.Script.Parser

/-! ## Bodies -/

/-- The statements up to a closing brace or to the last token. -/
def statements (below : Below) : Parser (List Stmt) :=
  collect do
    let l ← lexeme
    if l.isLast ∨ l.isPunct "\x7d" then return none
    return some (← below (.statement false))

/-- Statements in braces. -/
def block (below : Below) : Parser (List Stmt) := do
  expect "\x7b"
  let body ← statements below
  expect "\x7d"
  return body

/-- Whether the statement is a string and nothing else. At the front of a body it is a directive. -/
def isDirective : Stmt → Bool
  | .expression (.string _) => true
  | _ => false

/-- A body without the directives at its front. -/
def withoutDirectives (body : List Stmt) : List Stmt :=
  body.dropWhile isDirective

/-- The statements of a function, in braces. -/
def functionBody (below : Below) : Parser (List Stmt) := do
  return withoutDirectives (← within (block below))

/-! ## Functions -/

/-- Whether a function has to have a body. -/
inductive BodyRule where
  | needed
  /-- Where types may be written, the function may be declared only. -/
  | optional
  deriving DecidableEq

/-- A function from its parameters on. -/
def functionFromParameters (below : Below) (rule : BodyRule) (yields awaits : Bool) :
    Parser Function :=
  withOperators yields awaits <| withIn do
    typeParameters below
    let ps ← parameters below
    returnAnnotation below
    if ← isAt "\x7b" then return .mk ps (some (← functionBody below))
    if rule = .needed ∨ !(← isTyped) then failure
    semicolon
    return .mk ps none

/-- A name, if there is one. -/
def identifier? : Parser (Option String) := do
  if (← lexeme).isIdentifier then return some (← identifier)
  return none

/-- A function from its keyword on, with its name. -/
def functionFromKeyword (below : Below) (rule : BodyRule) (awaits : Bool) :
    Parser (Option String × Function) := do
  expectWord "function"
  let yields ← eat "*"
  let name ← identifier?
  return (name, ← functionFromParameters below rule yields awaits)

/-- Whether the keyword of an asynchronous function follows on the same line. -/
def isAtAsyncFunction : Parser Bool := do
  if !(← isAtWord "async") then return false
  nextIs fun t => !t.newlineBefore && t.lexeme.isWord "function"

/-- The key, read by `key`, and the function of an accessor behind `get` or `set`, if one of them is
    at hand. -/
def accessor? (below : Below) (awaits : Bool) (key : Parser Key) :
    Parser (Option (Key × Function)) := do
  if (← isAtAnyWord ["get", "set"]) ∧ (← nextIs fun t => canFollowAccessor t.lexeme) then
    advance
    let k ← key
    return some (k, ← functionFromParameters below .optional false awaits)
  return none

/-! ## Classes -/

/-- One or more items with commas between them. -/
def commaList {α : Type} (item : Parser α) : Parser (List α) := do
  let first ← item
  let more : Parser (Option α) := do
    if ← eat "," then return some (← item)
    return none
  return first :: (← collect more)

/-- What a class or an interface extends. -/
def extendsClause (below : Below) : Parser (List Expr) :=
  commaList do
    let e ← below .access
    if ← isAt "<" then typeArguments below
    return e

/-- The clauses between the name of a class and its members: what it extends first. What it
    implements are types. -/
def heritageClauses (below : Below) : Parser (Option Expr) := do
  let clause : Parser (Option (List Expr)) := do
    if ← eatWord "extends" then return some (← extendsClause below)
    if ← eatWord "implements" then
      let _ ← commaList (typeReference below)
      return some []
    return none
  return (← collect clause).flatten.head?

/-- The value of a property of a class. That of one marked `accessor` has no comma, and is read like
    what stands around the class. -/
def fieldValue (below : Below) (isAccessor : Bool) : Parser Expr :=
  if isAccessor then below (.assignment true)
  else withOperators false false (withIn (below .expression))

/-- A property or a method of a class, behind the modifiers `words`. -/
def propertyOrMethod (below : Below) (words : List String) : Parser ClassMember := do
  let yields ← eat "*"
  let k ← memberKey below
  let _ ← eat "?"
  if yields ∨ (← isAtAny ["(", "<"]) then
    return .method k (← functionFromParameters below .optional yields (words.contains "async"))
  let _ ← eat "!"
  annotation below
  let value ←
    if ← eat "=" then pure (some (← fieldValue below (words.contains "accessor")))
    else pure none
  semicolon
  return .field k value

/-- Read what is defined elsewhere if `declared` says so. -/
def ambient {α : Type} (declared : Bool) (p : Parser α) : Parser α :=
  withReader (fun mode : Mode => { mode with isAmbient := mode.isAmbient || declared }) p

/-- A member of a class. One called by the word `constructor` is a method, unless it is static. -/
def member (below : Below) : Parser ClassMember := do
  decorators below
  let words ← modifiers ⟨true, true⟩
  if (← isAtWord "static") ∧ (← nextIs fun t => t.lexeme.isPunct "\x7b") then
    advance
    return .initializer (← withOperators false true (within (block below)))
  let isAsync := words.contains "async"
  if let some (k, f) ← accessor? below isAsync (memberKey below) then
    return .method k f
  if (← isAtWord "constructor") ∧ !words.contains "static" then
    return .method (← key below) (← functionFromParameters below .optional false isAsync)
  if ← isAtIndexSignature then
    indexSignature below
    return .signature
  ambient (words.contains "declare") (propertyOrMethod below words)

/-- The members of a class, in braces. -/
def members (below : Below) : Parser (List ClassMember) := do
  expect "\x7b"
  let item : Parser (Option (Option ClassMember)) := do
    if ← isAt "\x7d" then return none
    if ← eat ";" then return some none
    return some (some (← member below))
  let items ← collect item
  expect "\x7d"
  return items.filterMap id

/-- A class behind its keyword. -/
def classBehindKeyword (below : Below) : Parser Class := do
  let name ← if ← isAtWord "implements" then pure none else identifier?
  typeParameters below
  let base ← heritageClauses below
  return .mk name base (← members below)

/-- A class from its keyword on. -/
def classFromKeyword (below : Below) : Parser Class := do
  expectWord "class"
  classBehindKeyword below

end TypingsAudit.Script.Parser
