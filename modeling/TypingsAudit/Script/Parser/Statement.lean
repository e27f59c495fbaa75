import TypingsAudit.Script.Parser.Module

set_option autoImplicit false

/-! # Statements

A statement is known by its first word or two; one that is not is an expression or carries a
label. -/

namespace TypingsAudit.Script.Parser

/-- An expression in the parentheses of a statement. -/
def condition (below : Below) : Parser Expr := do
  expect "("
  let e ← expression below
  expect ")"
  return e

/-- An expression statement, or a statement behind a label. -/
def expressionOrLabel (below : Below) : Parser Stmt := do
  let e ← expression below
  if let .name label := e then
    if ← eat ":" then return .labeled label (← below (.statement true))
  semicolon
  return .expression e

/-! ## Declarations among statements -/

/-- A declaration of variables by `let`, or an expression that starts with `let` as a name. Of the
    latter, one that goes on with an operator has no commas, and one with a member or a call needs
    no end; in front of anything else the name stands alone. -/
def letStatement (below : Below) (alone : Bool) : Parser Stmt := do
  let follows (p : Lexeme → Bool) : Parser Bool := nextIs fun t => p t.lexeme
  if ← follows fun l => l.assignment?.isSome || l.evaluatesBoth then
    let e ← assignment below true
    semicolon
    return .expression e
  if ← follows fun l => l.isPunct "." || l.isPunct "(" then
    return .expression (← expression below)
  if ← follows fun l => l.isPunct ";" || (alone && !l.isPunct "[") then
    let name ← identifier
    semicolon
    return .expression (.name name)
  advance
  variableList below .let

/-- Whether a variable that `using` in front of it declares is at hand. -/
def isUsingVariable (t : Token) : Bool :=
  !t.newlineBefore && t.lexeme.isIdentifier

/-- Whether `using`, perhaps behind `await` on its line, declares variables here. Without `await`, a
    pattern makes a declaration of it too. -/
def isAtUsing : Parser Bool := do
  if ← isAtWord "using" then
    return ← nextIs fun t => isUsingVariable t || !t.newlineBefore && t.lexeme.isPunct "\x7b"
  if !(← isAtWord "await") then return false
  ahead do
    advance
    if (← afterNewline) ∨ !(← isAtWord "using") then return false
    nextIs isUsingVariable

/-- The variables of a `using` declaration. -/
def usingDeclarators (below : Below) : Parser (List Declarator) := do
  let _ ← eatWord "await"
  expectWord "using"
  declarators below

/-! ## Loops -/

/-- What repeats behind the head of a `for` loop that counts. -/
def countingLoop (below : Below) (init : Option LoopHead) : Parser Stmt := do
  expect ";"
  let test ← if ← isAt ";" then pure none else pure (some (← withIn (expression below)))
  expect ";"
  let step ← if ← isAt ")" then pure none else pure (some (← withIn (expression below)))
  expect ")"
  return .forLoop init test step (← below (.statement true))

/-- What repeats behind the head of a loop over a subject; behind `of`, the subject has no comma. -/
def subjectLoop (below : Below) (head : LoopHead) : Parser Stmt := do
  let isOf ← isAtWord "of"
  advance
  let subject ← if isOf then assignment below true else expression below
  expect ")"
  return .forEach head subject (← below (.statement true))

/-- Whether `let` declares variables at the head of a loop. -/
def isAtLoopLet : Parser Bool := do
  if !(← isAtWord "let") then return false
  nextIs fun t =>
    let l := t.lexeme
    l.isName && !l.isWord "in" && !l.isWord "instanceof" || l.isPunct "[" || l.isPunct "\x7b"

/-- Whether `using` declares variables at the head of a loop, where `using of` starts a loop over
    the elements of something. Behind `await` it always does. -/
def isAtLoopUsing : Parser Bool := do
  if ← isAtWord "using" then
    return ← nextIs fun t => isUsingVariable t && !t.lexeme.isWord "of"
  if !(← isAtWord "await") then return false
  nextIs fun t => t.lexeme.isWord "using"

/-- A `for` loop, behind the word. -/
def forLoop (below : Below) : Parser Stmt := do
  let _ ← eatWord "await"
  expect "("
  if ← isAt ";" then return ← countingLoop below none
  let l ← lexeme
  let kind := if l.isWord "let" then none else variableKind? l
  if let some kind := if ← isAtLoopLet then some .let else kind then
    advance
    let ds ← withoutIn (declarators below)
    return ← afterHead (.variableList kind ds) none
  if ← isAtLoopUsing then
    let ds ← usingDeclarators below
    return ← afterHead (.variableList .using ds) none
  let e ← withoutIn (expression below)
  afterHead (.value e) (some e)
where
  /-- What follows the head: a declaration, or an expression that may have to be a target. -/
  afterHead (head : LoopHead) (e : Option Expr) : Parser Stmt := do
    if ← isAtAnyWord ["in", "of"] then
      match e with
      | none => subjectLoop below head
      | some e => subjectLoop below (.target (← asTarget (Target.ofExpr? e)))
    else countingLoop below (some head)

/-! ## Other statements with parts -/

/-- A `try` statement, behind the word. -/
def tryStatement (below : Below) : Parser Stmt := do
  let body ← block below
  let (parameter, handler) ←
    if ← eatWord "catch" then
      let parameter ←
        if ← eat "(" then
          let p ← pattern below
          annotation below
          expect ")"
          pure (some p)
        else pure none
      pure (parameter, some (← block below))
    else pure (none, none)
  let finalizer ← if ← eatWord "finally" then pure (some (← block below)) else pure none
  return .tryCatch body parameter handler finalizer

/-- The statements of one case, up to the next one. -/
def caseBody (below : Below) : Parser (List Stmt) :=
  collect do
    if (← isAt "\x7d") ∨ (← isAtAnyWord ["case", "default"]) then return none
    return some (← below (.statement false))

/-- A `switch` statement, behind the word. -/
def switchStatement (below : Below) : Parser Stmt := do
  let subject ← condition below
  expect "\x7b"
  let switchCase : Parser (Option SwitchCase) := do
    if ← isAt "\x7d" then return none
    let test ←
      if ← eatWord "default" then pure none
      else
        expectWord "case"
        pure (some (← expression below))
    expect ":"
    return some (.mk test (← caseBody below))
  let cases ← collect switchCase
  expect "\x7d"
  return .switchOn subject cases

/-- The label behind `break` or `continue`, if there is one. -/
def labelOrEnd : Parser (Option String) := do
  if ← isAtEnd then
    semicolon
    return none
  if !(← isAtPlainName) then failure
  let label ← identifier
  semicolon
  return some label

/-! ## Statements -/

/-- A statement that starts with the keyword `word`, which has been taken. -/
def keywordStatement (below : Below) (word : String) : Parser Stmt := do
  match word with
  | "if" =>
    let test ← condition below
    let yes ← below (.statement true)
    let no ← if ← eatWord "else" then pure (some (← below (.statement true))) else pure none
    return .ifElse test yes no
  | "for" => forLoop below
  | "while" =>
    let test ← condition below
    return .whileLoop test (← below (.statement true))
  | "do" =>
    let body ← below (.statement true)
    expectWord "while"
    let test ← condition below
    let _ ← eat ";"
    return .doWhile body test
  | "continue" => return .continueTo (← labelOrEnd)
  | "break" => return .breakTo (← labelOrEnd)
  | "return" =>
    let value ← if ← isAtEnd then pure none else pure (some (← withIn (expression below)))
    semicolon
    return .returnValue value
  | "throw" =>
    let value ← expression below
    semicolon
    return .throwValue value
  | "try" => tryStatement below
  | "switch" => switchStatement below
  | "with" =>
    let object ← condition below
    return .withObject object (← below (.statement true))
  | "debugger" =>
    semicolon
    return .debugger
  | "var" => variableList below .var
  | "export" => exportDeclaration below
  | _ => failure

/-- The keywords that a statement of one kind only starts with. -/
def statementKeywords : List String :=
  ["if", "for", "while", "do", "continue", "break", "return", "throw", "try", "switch", "with",
   "debugger", "var", "export"]

/-- The words that may start a declaration of a typed script. -/
def typedKeywords : List String :=
  ["interface", "type", "module", "namespace", "declare", "enum", "private", "protected", "public",
   "abstract", "accessor", "static", "readonly", "global", "async"]

/-- A statement behind decorators. -/
def decorated (below : Below) : Parser Stmt := do
  decorators below
  if ← eatWord "export" then return ← exportDeclaration below
  let _ ← plainModifiers
  return .classDeclaration (← classFromKeyword below)

/-- A statement that starts with the word `word`, or with an expression. -/
def wordStatement (below : Below) (alone : Bool) (word : String) (escaped : Bool) :
    Parser Stmt := do
  if statementKeywords.contains word then
    advance
    return ← keywordStatement below word
  if word = "class" then return .classDeclaration (← classFromKeyword below)
  if word = "function" then
    let (name, f) ← functionFromKeyword below .optional false
    return .functionDeclaration name f
  if word = "const" then
    advance
    if ← isTyped then
      if ← eatWord "enum" then return ← enumeration below
    return ← variableList below .const
  if word = "let" ∧ !escaped then return ← letStatement below alone
  if word = "import" ∧ !(← nextIs fun t => t.lexeme.isPunct "." || t.lexeme.isPunct "(") then
    advance
    return ← importDeclaration
  if ← isAtUsing then
    let ds ← usingDeclarators below
    semicolon
    return .variableList .using ds
  if ← isAtAsyncFunction then
    advance
    let (name, f) ← functionFromKeyword below .optional true
    return .functionDeclaration name f
  if typedKeywords.contains word ∧ (← isTyped) ∧ (← isAtTypedDeclaration) then
    return ← declarationStatement below
  expressionOrLabel below

/-- A statement. -/
def statement (below : Below) (alone : Bool) : Parser Stmt := do
  match ← lexeme with
  | .punct "\x7b" => return .block (← block below)
  | .punct ";" =>
    advance
    return .empty
  | .punct "@" => decorated below
  | .name word escaped => wordStatement below alone word escaped
  | _ => expressionOrLabel below

end TypingsAudit.Script.Parser
