import TypingsAudit.Script.Parser.Binding

set_option autoImplicit false

/-! # Types

The grammar of types. A type is read past and leaves nothing: what matters is where it ends, and
whether it is one. -/

namespace TypingsAudit.Script.Parser

/-- Take an opening angle bracket, if need be off the front of a longer operator. -/
def openAngle : Parser Unit := do
  match ← lexeme with
  | .punct p =>
    match p.toList with
    | '<' :: more =>
      modify fun s => { s with rest := more ++ s.rest }
      advance
    | _ => failure
  | _ => failure

/-- Whether an opening angle bracket is at hand, alone or in front of a longer operator. -/
def isAtOpenAngle : Parser Bool :=
  isAtAny ["<", "<<", "<=", "<<="]

/-- Read a type that may be conditional or not. -/
def conditional (allowed : Bool) {α : Type} (p : Parser α) : Parser α :=
  withReader (fun mode : Mode => { mode with allowsConditional := allowed }) p

/-- The arguments of a type. -/
def typeArguments (below : Below) : Parser Unit := do
  openAngle
  let _ ← delimited ">" (conditional true (below .type))

/-- The arguments of a type, if they follow on the same line. -/
def typeArguments? (below : Below) : Parser Unit := do
  if !(← afterNewline) ∧ (← isAtOpenAngle) then typeArguments below

/-- The parameters of a generic declaration, where types may be written. -/
def typeParameters (below : Below) : Parser Unit := do
  if !(← isTyped) ∨ !(← isAt "<") then return
  advance
  let parameter : Parser Unit := do
    let _ ← modifiers ⟨true, false⟩
    let _ ← identifier
    if ← eatWord "extends" then below .type
    if ← eat "=" then below .type
  let _ ← delimited ">" parameter

/-- What a function returns: a type, or a statement about an argument such as `x is T`. -/
def returnedType (below : Below) : Parser Unit := do
  if (← lexeme).isName ∧ (← nextIs fun t => !t.newlineBefore && t.lexeme.isWord "is") then
    advance
    advance
  conditional true (below .type)

/-- What a signature returns, behind a colon. -/
def signatureReturn (below : Below) : Parser Unit := do
  if ← eat ":" then returnedType below

/-- A return type behind a colon, where types may be written. -/
def returnAnnotation (below : Below) : Parser Unit := do
  if ← isTyped then signatureReturn below

/-! ## Names and literals -/

/-- A name of a type, perhaps inside namespaces. -/
def entityName : Parser Unit := do
  let _ ← anyName
  let part : Parser (Option Unit) := do
    if ← eat "." then
      let _ ← anyName
      return some ()
    return none
  let _ ← collect part

/-- A template of types. Behind each stretch of text that is not the last one there are types, which
    nothing separates. -/
def templateType (below : Below) : Parser Unit := do
  let step (isText : Bool) : Parser (Bool ⊕ Unit) := do
    match isText, ← lexeme with
    | true, .template _ last =>
      advance
      return if last then .inr () else .inl false
    | _, _ =>
      below .type
      if !(← isAt "\x7d") then return .inl false
      reread (Lexer.template (← get).rest)
      return .inl ((← lexeme) matches .template _ _)
  iterate step (← read).bound true

/-- `import("m", { … }).N<T>` -/
def importType (below : Below) : Parser Unit := do
  expectWord "import"
  expect "("
  below .type
  if ← eat "," then
    if !(← isAt "\x7b") then failure
    let _ ← below .value
  expect ")"
  if ← eat "." then entityName
  typeArguments? below

/-! ## Members of types -/

/-- Whether an index signature starts here. -/
def isAtIndexSignature : Parser Bool :=
  ahead do
    expect "["
    if ← isAtAny ["...", "["] then return true
    if modifierWords.any (← lexeme).isWord then
      advance
      if (← lexeme).isOrdinaryName then return true
    else
      if !(← lexeme).isOrdinaryName then return false
      advance
    if ← isAtAny [":", ","] then return true
    expect "?"
    isAtAny [":", ",", "]"]

/-- The end of a member of a type. Nothing needs to stand there. -/
def memberEnd : Parser Unit := do
  if !(← eat ",") then
    let _ ← eat ";"

/-- A type behind a colon. -/
def annotated (below : Below) : Parser Unit := do
  if !(← isTyped) then failure
  expect ":"
  below .type

/-- `[key: K]: V`. More than one key, or one that may be left out, is only reported. -/
def indexSignature (below : Below) : Parser Unit := do
  let indexKey : Parser Unit := do
    let _ ← anyName
    let _ ← eat "?"
    annotated below
  expect "["
  let _ ← delimited "]" indexKey
  annotated below
  memberEnd

/-- What a signature takes and returns. -/
def signature (below : Below) : Parser Unit := do
  typeParameters below
  let _ ← parameters below
  signatureReturn below

/-- A property, a method or a signature of an object type. -/
def typeMember (below : Below) : Parser Unit := do
  let opensSignature (t : Token) : Bool := t.lexeme.isPunct "(" || t.lexeme.isPunct "<"
  if opensSignature (← token) then signature below
  else if (← isAtWord "new") ∧ (← nextIs opensSignature) then
    advance
    signature below
  else
    let _ ← plainModifiers
    if (← isAtAnyWord ["get", "set"]) ∧ (← nextIs fun t => canFollowAccessor t.lexeme) then
      advance
      let _ ← key below
      let _ ← parameters below
      signatureReturn below
    else if ← isAtIndexSignature then return ← indexSignature below
    else
      let _ ← key below
      let _ ← eat "?"
      if opensSignature (← token) then signature below else annotation below
  memberEnd

/-- The members of an object type or an interface, in braces. -/
def typeMembers (below : Below) : Parser Unit := do
  expect "\x7b"
  let member : Parser (Option Unit) := do
    if ← isAt "\x7d" then return none
    typeMember below
    return some ()
  let _ ← collect member
  expect "\x7d"

/-- Whether the brace at hand opens a mapped type: a single token and `in` stand in its brackets. -/
def isAtMappedType : Parser Bool :=
  ahead do
    expect "\x7b"
    if ← isAtAny ["+", "-"] then
      advance
      return ← isAtWord "readonly"
    let _ ← eatWord "readonly"
    expect "["
    advance
    isAtWord "in"

/-- A mapped type such as `{ [K in T]?: V }`. -/
def mappedType (below : Below) : Parser Unit := do
  expect "\x7b"
  if ← isAtAny ["+", "-"] then
    advance
    expectWord "readonly"
  else
    let _ ← eatWord "readonly"
  expect "["
  let _ ← identifier
  expectWord "in"
  below .type
  if ← eatWord "as" then below .type
  expect "]"
  if ← isAtAny ["+", "-"] then
    advance
    expect "?"
  else
    let _ ← eat "?"
  if ← eat ":" then below .type
  let _ ← eat ";"
  expect "\x7d"

/-- An element of a tuple, perhaps named. -/
def tupleElement (below : Below) : Parser Unit := do
  let _ ← eat "..."
  let isNamed ← ahead do
    let _ ← anyName
    let _ ← eat "?"
    isAt ":"
  if isNamed then
    let _ ← anyName
    let _ ← eat "?"
    expect ":"
    let _ ← eat "..."
  below .type

/-! ## Types -/

/-- The marks that a type may start with, apart from the minus sign and the parenthesis. -/
def typeMarks : List String :=
  ["\x7b", "[", "<", "|", "&", "*", "?", "..."]

/-- The reserved words that a type may start with. -/
def typeWords : List String :=
  ["void", "null", "this", "typeof", "new", "true", "false", "import", "function", "break"]

/-- Whether a type that does not start with a parenthesis may start with the token at hand. -/
def startsPlainType : Parser Bool := do
  let l ← lexeme
  if l.isPunct "-" then return ← nextIs fun t => t.lexeme.isNumber
  return l.isOrdinaryName || typeMarks.any l.isPunct || typeWords.any l.isWord || l.isNumber ||
    match l with
    | .string _ => true
    | .template _ _ => true
    | _ => false

/-- Whether a parameter may start with the token at hand. -/
def startsParameter : Parser Bool := do
  match ← lexeme with
  | .privateName _ => return true
  | l => return l.isIdentifier || modifierWords.any l.isWord || l.isPunct "@"

/-- Whether a type may start with the token at hand. Behind a parenthesis there is a type, a
    parameter or nothing. -/
def startsType : Parser Bool := do
  if !(← isAt "(") then return ← startsPlainType
  ahead do
    let opening : Parser (Option Unit) := do
      if ← eat "(" then return some ()
      return none
    let _ ← collect opening
    return (← isAt ")") || (← startsPlainType) || (← startsParameter)

/-- Whether what `p` reads has its place here. -/
def isProper {α : Type} (p : Parser α) : Parser Bool := do
  let before ← get
  let _ ← p
  let after ← get
  return before.faults = after.faults ∧ before.reports = after.reports

/-- Whether a parenthesis behind which parameters stand is at hand. -/
def isAtParameters (below : Below) : Parser Bool :=
  ahead do
    expect "("
    if ← isAtAny [")", "..."] then return true
    let _ ← plainModifiers
    if (← lexeme).isOrdinaryName ∨ (← isAtWord "this") then advance
    else if ← isAtAny ["[", "\x7b"] then
      if !(← isProper (pattern below)) then return false
    else return false
    if ← isAtAny [":", ",", "?", "="] then return true
    expect ")"
    isAt "=>"

/-- Whether the type of a function or of a constructor starts here. -/
def isAtFunctionType (below : Below) : Parser Bool := do
  if ← isAt "<" then return true
  if ← isAtWord "new" then return true
  if ← isAtWord "abstract" then return ← nextIs fun t => t.lexeme.isWord "new"
  isAtParameters below

/-- The type of a function or of a constructor. Any token stands for the arrow. -/
def functionType (below : Below) : Parser Unit := do
  let _ ← eatWord "abstract"
  let _ ← eatWord "new"
  typeParameters below
  let _ ← parameters below
  advance
  returnedType below

/-- The words that are types by themselves. -/
def typeKeywords : List String :=
  ["any", "unknown", "string", "number", "bigint", "boolean", "symbol", "never", "object",
   "undefined", "null"]

/-- A name of a type with its arguments. -/
def typeReference (below : Below) : Parser Unit := do
  entityName
  typeArguments? below

/-- A type that starts with the word `word`. -/
def wordType (below : Below) (word : String) : Parser Unit := do
  if typeKeywords.contains word then
    if ← nextIs fun t => t.lexeme.isPunct "." then return ← typeReference below
    return ← advance
  match word with
  | "void" => advance
  | "true" => advance
  | "false" => advance
  | "import" => importType below
  | "typeof" =>
    advance
    if ← isAtWord "import" then return ← importType below
    entityName
    if !(← afterNewline) ∧ (← isAt "<") then typeArguments below
  | "this" =>
    advance
    if !(← afterNewline) ∧ (← isAtWord "is") then
      advance
      below .type
  | "asserts" =>
    let isAsserting ← nextIs fun t =>
      !t.newlineBefore && (t.lexeme.isOrdinaryName || t.lexeme.isWord "this")
    if !isAsserting then return ← typeReference below
    advance
    advance
    if ← eatWord "is" then below .type
  | _ => typeReference below

/-- A type without operators and brackets around it. Behind exclamation marks stands another one. -/
def simpleType (below : Below) : Parser Unit := do
  let mark : Parser (Option Unit) := do
    if ← eat "!" then return some ()
    return none
  let _ ← collect mark
  match ← lexeme with
  | .punct "[" =>
    advance
    let _ ← delimited "]" (tupleElement below)
  | .punct "(" =>
    advance
    below .type
    expect ")"
  | .punct "\x7b" => if ← isAtMappedType then mappedType below else typeMembers below
  | .punct "-" =>
    advance
    if !(← lexeme).isNumber then failure
    advance
  | .punct "?" =>
    advance
    if !(← isAtAny [",", "\x7d", ")", ">", "=", "|"]) then below .type
  | .string _ => advance
  | .number _ => advance
  | .bigint _ => advance
  | .template _ _ => templateType below
  | .name word _ => wordType below word
  | _ => failure

/-- A type with brackets and marks behind it. -/
def postfixType (below : Below) : Parser Unit :=
  conditional true do
    simpleType below
    let suffix : Parser (Option Unit) := do
      if ← afterNewline then return none
      if ← eat "!" then return some ()
      if ← isAt "?" then
        let isCondition ← ahead do
          advance
          startsType
        if isCondition then return none
        advance
        return some ()
      if ← eat "[" then
        if ← startsType then below .type
        expect "]"
        return some ()
      return none
    let _ ← collect suffix

/-- What an inferred type must extend. In front of a question mark, `extends` starts a condition
    instead, where one is allowed. -/
def inferConstraint (below : Below) : Parser Unit := do
  let allowed := (← read).allowsConditional
  let _ ← attempt do
    expectWord "extends"
    conditional false (below .type)
    if allowed ∧ (← isAt "?") then failure

/-- A type with operators in front of it. -/
def prefixedType (below : Below) : Parser Unit := do
  let operator : Parser (Option Unit) := do
    if ← isAtAnyWord ["keyof", "unique", "readonly"] then
      advance
      return some ()
    return none
  let _ ← collect operator
  if ← eatWord "infer" then
    let _ ← identifier
    inferConstraint below
  else postfixType below

/-- Constituents with an operator between them, one more allowed in front. -/
def joined (mark : String) (constituent : Parser Unit) : Parser Unit := do
  let _ ← eat mark
  constituent
  let more : Parser (Option Unit) := do
    if ← eat mark then
      constituent
      return some ()
    return none
  let _ ← collect more

/-- A type. -/
def type (below : Below) : Parser Unit := do
  if ← isAtFunctionType below then return ← functionType below
  joined "|" (joined "&" (prefixedType below))
  if (← read).allowsConditional ∧ !(← afterNewline) ∧ (← isAtWord "extends") then
    advance
    conditional false (below .type)
    expect "?"
    conditional true (below .type)
    expect ":"
    conditional true (below .type)

end TypingsAudit.Script.Parser
