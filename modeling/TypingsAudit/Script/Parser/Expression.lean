import TypingsAudit.Script.Parser.Function
import TypingsAudit.Script.Target

set_option autoImplicit false

/-! # Expressions

From the values up: members and calls, operators, arrow functions, assignments, sequences. Whether a
parenthesis opens the parameters of an arrow function shows only behind it. `arrowVerdict` decides
what two or three tokens decide; otherwise the parameters are tried first. -/

namespace TypingsAudit.Script.Parser

/-! ## Values -/

/-- An argument of a call, or an element of an array that is no hole. -/
def argument (below : Below) : Parser Element := do
  if ← eat "..." then return .spread (← below (.assignment true))
  return .item (← below (.assignment true))

/-- Read where neither a loop head nor a decorator ends the phrase. -/
def enclosed {α : Type} (p : Parser α) : Parser α :=
  decorating false (withIn p)

/-- The arguments of a call behind the opening parenthesis. -/
def arguments (below : Below) : Parser (List Element) :=
  enclosed (delimited ")" (argument below))

/-- An array behind its opening bracket. -/
def array (below : Below) : Parser Expr := do
  let element : Parser Element := do
    if ← isAt "," then return .hole
    argument below
  return .array (← withIn (delimited "]" element))

/-- Whether the word at hand is a name, and no operator, here. -/
def isAtPlainName : Parser Bool := do
  let l ← lexeme
  let mode ← read
  return l.isIdentifier && !(mode.awaits && l.isWord "await") && !(mode.yields && l.isWord "yield")

/-- A property of an object. -/
def property (below : Below) : Parser Property := do
  if ← eat "..." then return .spread (← below (.assignment true))
  let words ← plainModifiers
  if let some (k, f) ← accessor? below false (key below) then
    return .entry k (.functionValue f)
  let yields ← eat "*"
  let isName ← isAtPlainName
  let k ← key below
  if yields ∨ (← isAtAny ["(", "<"]) then
    return .entry k (.functionValue
      (← functionFromParameters below .optional yields (words.contains "async")))
  if isName ∧ !(← isAt ":") then
    match k with
    | .name text => return .shorthand text (← initializer? below)
    | _ => failure
  expect ":"
  return .entry k (← below (.assignment true))

/-- An object behind its opening brace. -/
def object (below : Below) : Parser Expr := do
  return .object (← withIn (delimited "\x7d" (property below)))

/-- An expression in parentheses, behind the opening one. -/
def group (below : Below) : Parser Expr := do
  let (parts, hasComma) ← enclosed (separated ")" (below (.assignment true)))
  if hasComma then failure
  expect ")"
  match parts with
  | [] => failure
  | [e] => return .paren e
  | _ => return .paren (.sequence parts)

/-- `import.meta`, or the call of `import`, behind the word. -/
def importValue (below : Below) : Parser Expr := do
  if ← eat "." then
    if ← eatWord "meta" then return .metaProperty
    if !(← isAtAnyWord ["source", "defer"]) then failure
    advance
  expect "("
  let (specifier, options) ← withIn do
    let specifier ← below (.assignment true)
    if (← eat ",") ∧ !(← isAt ")") then
      let options ← below (.assignment true)
      let _ ← eat ","
      return (specifier, [options])
    return (specifier, [])
  expect ")"
  return .importCall (specifier :: options)

/-- What is called: type arguments of the callee belong to the call. -/
def withoutTypeArguments : Expr → Expr
  | .typed .instantiation inner => inner
  | e => e

/-- A constructor call or `new.target`, behind the word. -/
def construction (below : Below) : Parser Expr := do
  if ← eat "." then
    expectWord "target"
    return .metaProperty
  let callee := withoutTypeArguments (← below .constructed)
  if ← eat "(" then return .construct callee (← withIn (delimited ")" (argument below)))
  return .construct callee []

/-- An expression without operators, members and calls around it. -/
def value (below : Below) : Parser Expr := do
  if ← isAtAsyncFunction then
    advance
    return .functionValue (← functionFromKeyword below .needed true).2
  let t ← lexeme
  match t with
  | .string value =>
    advance
    return .string value
  | .number text =>
    advance
    return .number text
  | .bigint text =>
    advance
    return .bigint text
  | .template _ _ =>
    let (texts, values) ← templateParts (enclosed (below .expression))
    return .template texts values
  | .punct "/" => regularExpression []
  | .punct "/=" => regularExpression ['=']
  | .punct "[" =>
    advance
    array below
  | .punct "\x7b" =>
    advance
    object below
  | .punct "(" =>
    advance
    group below
  | .punct "@" =>
    decorators below
    let _ ← plainModifiers
    return .classValue (← classFromKeyword below)
  | .name "this" _ =>
    advance
    return .thisValue
  | .name "super" _ =>
    advance
    return .superValue
  | .name "null" _ =>
    advance
    return .null
  | .name "true" _ =>
    advance
    return .bool true
  | .name "false" _ =>
    advance
    return .bool false
  | .name "function" _ => return .functionValue (← functionFromKeyword below .needed false).2
  | .name "class" _ => return .classValue (← classFromKeyword below)
  | .name "new" _ =>
    advance
    construction below
  | .name "import" _ =>
    advance
    importValue below
  | _ => return .name (← identifier)
where
  /-- A regular expression; `front` are its characters that the token at hand has taken. None is
      read in a script that is written faultily up to its end. -/
  regularExpression (front : List Char) : Parser Expr := do
    reread (Lexer.regex (front ++ (← get).rest))
    if 0 < (← get).faults then failure
    match ← lexeme with
    | .regex text =>
      advance
      return .regex text
    | _ => failure

/-! ## Members and calls -/

/-- An expression, and whether an optional member or call occurs in it. -/
structure Linked where
  expr : Expr
  isOptional : Bool

/-- The member with the name at hand. -/
def named (object : Expr) : Parser Expr := do
  match ← lexeme with
  | .privateName text =>
    advance
    return .privateMember object text
  | _ => return .member object (← anyName)

/-- The member in brackets, behind the opening one. -/
def indexed (below : Below) (object : Expr) : Parser Expr := do
  let k ← enclosed (below .expression)
  expect "]"
  return .index object k

/-- A template behind the function that is called on it. -/
def tagged (below : Below) (tag : Expr) : Parser Expr := do
  let (_, values) ← templateParts (enclosed (below .expression))
  return .tagged (withoutTypeArguments tag) values

def isAtTemplate : Parser Bool := do
  match ← lexeme with
  | .template _ _ => return true
  | _ => return false

/-- Whether an expression may start with the token at hand, as far as type arguments in front of it
    tell: with any literal, mark or reserved word that starts one, with an operator between two
    operands, but of the names only with one that has no meaning of its own. -/
def startsExpression : Parser Bool := do
  let l ← lexeme
  if l.isPlainName || l.isLiteral || l.evaluatesBoth then return true
  if ["this", "super", "function", "class", "new", "delete", "typeof", "void", "await", "yield",
      "private"].any l.isWord then return true
  if ["[", "\x7b", "(", "/", "/=", "~", "!", "++", "--", "@"].any l.isPunct then return true
  if l.isWord "import" then
    return ← nextIs fun t => ["(", "<", "."].any t.lexeme.isPunct
  isAtTemplate

/-- Type arguments inside an expression. They are some only where what follows leaves no other
    reading; an equals sign right behind the closing bracket makes a comparison of it. -/
def instantiation (below : Below) : Parser Unit := do
  if !(← isAtAny ["<", "<<"]) then failure
  openAngle
  let _ ← separated ">" (below .type)
  if (← get).rest.head? = some '=' then failure
  expect ">"
  if (← isAt "(") ∨ (← isAtTemplate) then return
  if ← isAtAny ["<", ">", "+", "-"] then failure
  if ← afterNewline then return
  if (← lexeme).evaluatesBoth ∧ !((← isAtWord "in") ∧ (← read).allowsIn) then return
  if ← startsExpression then failure

/-- One more member behind an expression, or a template it is called on. -/
def memberLink (below : Below) (e : Linked) : Parser (Option Linked) := do
  let l ← lexeme
  if l.isPunct "?." then
    let continues ← nextIs fun t => t.lexeme.isAnyName || t.lexeme.isPunct "["
    if !continues then return none
    advance
    if ← eat "[" then return some ⟨← indexed below e.expr, true⟩
    return some ⟨← named e.expr, true⟩
  if ← eat "." then return some { e with expr := ← named e.expr }
  if !(← get).decorates then
    if ← eat "[" then return some { e with expr := ← indexed below e.expr }
  if ← isAtTemplate then return some { e with expr := ← tagged below e.expr }
  if ← isTyped then
    if (← isAt "!") ∧ !(← afterNewline) then
      advance
      return some { e with expr := .typed .nonNull e.expr }
    if let some _ ← attempt (instantiation below) then
      return some { e with expr := .typed .instantiation e.expr }
  return none

/-- One more member or call behind an expression. -/
def link (below : Below) (e : Linked) : Parser (Option Linked) := do
  if let some longer ← memberLink below e then return some longer
  if ← eat "(" then
    return some { e with expr := .call (withoutTypeArguments e.expr) (← arguments below) }
  if ← eat "?." then
    if ← isTyped then
      let _ ← attempt (instantiation below)
    if ← isAtTemplate then return some ⟨← tagged below e.expr, true⟩
    expect "("
    return some ⟨.call e.expr (← arguments below), true⟩
  return none

/-- Mark the end of an optional chain. -/
def chained : Expr → Expr
  | .typed .instantiation inner => .typed .instantiation (chained inner)
  | .call callee args => .chain (.call callee args)
  | .member object name => .chain (.member object name)
  | .index object k => .chain (.index object k)
  | .privateMember object name => .chain (.privateMember object name)
  | .typed .nonNull inner => .chain (.typed .nonNull inner)
  | e => e

/-- A value with members and calls behind it. -/
def access (below : Below) : Parser Expr := do
  let e ← extend (link below) ⟨← value below, false⟩
  return if e.isOptional then chained e.expr else e.expr

/-- A value with members behind it, none of them optional. -/
def constructed (below : Below) : Parser Expr := do
  let e ← extend (memberLink below) ⟨← value below, false⟩
  if e.isOptional ∨ (← isAt "?.") then failure
  return e.expr

/-! ## Operators -/

/-- The target an expression stands for, or giving up. -/
def asTarget (target : Option Target) : Parser Target :=
  match target with
  | some t => return t
  | none => failure

/-- A value with `++` or `--` on one side of it, or on neither. -/
def update (below : Below) : Parser Expr := do
  match (← lexeme).update? with
  | some operator =>
    advance
    return .update operator (← asTarget (Target.single? (← below .unary)))
  | none =>
    let e ← access below
    match (← lexeme).update? with
    | some operator =>
      if ← afterNewline then return e
      advance
      return .update operator (← asTarget (Target.single? e))
    | none => return e

/-- Whether the word at hand is an operator and not a name. `allowed` says whether the place has the
    operator; where it has not, the word is one in front of a literal or a word on the same line,
    apart from words that are operators themselves and from `excepted`. -/
def isAtWordOperator (word : String) (allowed : Bool) (excepted : List String) : Parser Bool := do
  if !(← isAtWord word) then return false
  if allowed then return true
  nextIs fun t =>
    let l := t.lexeme
    !t.newlineBefore && (l.isLiteral || l.isName) && !l.evaluatesBoth && !excepted.any l.isWord

/-- Whether the word `await` is at hand as an operator. -/
def isAtAwait : Parser Bool := do
  isAtWordOperator "await" (← read).awaits ["of"]

/-- A value with operators in front of it. -/
def unary (below : Below) : Parser Expr := do
  match (← lexeme).unary? with
  | some operator =>
    advance
    return .unary operator (← below .unary)
  | none =>
    if (← isTyped) ∧ (← isAt "<") then
      advance
      below .type
      expect ">"
      return .typed .assertion (← below .unary)
    if ← isAtAwait then
      advance
      return .await (← withReader (fun mode : Mode => { mode with awaits := true }) (below .unary))
    update below

/-- One more operator that binds more tightly than `level`, and its right operand. -/
def operation (below : Below) (level : Nat) (left : Expr) : Parser (Option Expr) := do
  if ← isAt ">" then reread (Lexer.widenAngle (← get).rest)
  let l ← lexeme
  match l.binaryLevel? with
  | none => return none
  | some own =>
    if own < level ∨ own = level ∧ own ≠ Lexeme.powerLevel then return none
    if l.isWord "in" ∧ !(← read).allowsIn then return none
    if l.isWord "as" ∨ l.isWord "satisfies" then
      if ← afterNewline then return none
      advance
      below .type
      return some (.typed .cast left)
    advance
    let right ← below (.binary own)
    match l with
    | .punct operator => return some (.binary operator left right)
    | .name operator _ => return some (.binary operator left right)
    | _ => failure

/-- Operands with operators between them that bind more tightly than `level`. -/
def binary (below : Below) (level : Nat) : Parser Expr := do
  let first ←
    match ← lexeme with
    | .privateName text =>
      if !(← read).allowsIn then failure
      advance
      expectWord "in"
      if (← lexeme) matches .privateName _ then failure
      pure (Expr.hasPrivate text (← below (.binary 8)))
    | _ => unary below
  extend (operation below level) first

/-! ## Arrow functions -/

/-- Whether an arrow function starts at a parenthesis. -/
inductive Verdict where
  | yes | no | maybe
  deriving DecidableEq

/-- What the tokens behind an opening parenthesis tell. -/
def verdictInParens : Parser Verdict := do
  let first ← lexeme
  if first.isPunct ")" then
    advance
    return if ← isAtAny ["=>", ":", "\x7b"] then .yes else .no
  if first.isPunct "[" ∨ first.isPunct "\x7b" then return .maybe
  advance
  let second ← lexeme
  if first.isPunct "..." then
    return if second.isPlainName then .yes else if second.isLiteral then .no else .maybe
  if modifierWords.any first.isWord ∧ !first.isWord "async" ∧ second.isIdentifier then
    return if second.isWord "as" then .no else .yes
  if !first.isIdentifier ∧ !first.isWord "this" then return .no
  if second.isPunct ":" then return .yes
  if second.isPunct "?" then
    advance
    return if ← isAtAny [":", ",", "=", ")"] then .yes else .no
  if [",", "=", ")"].any second.isPunct then return .maybe
  return .no

/-- What the tokens at hand tell about whether an arrow function with parentheses starts here. -/
def arrowVerdict : Parser Verdict := do
  let verdict ← peek do
    if ← eatWord "async" then
      if ← afterNewline then return Verdict.no
    if ← eat "(" then return ← verdictInParens
    if (← isTyped) ∧ (← isAt "<") then
      advance
      let l ← lexeme
      return if l.isIdentifier || l.isWord "const" then .maybe else .no
    return .no
  return verdict.getD .no

/-- The body of an arrow function: statements in braces, or the expression it returns. -/
def arrowBody (below : Below) (awaits returnType : Bool) (ps : List Pattern) : Parser Expr := do
  withOperators false awaits do
    if ← isAt "\x7b" then return .arrow (.mk ps (some (← functionBody below)))
    let e ← below (.assignment returnType)
    return .arrow (.mk ps (some [.returnValue (some e)]))

/-- An arrow function with parentheses, and whether it has a return type. -/
def parenthesizedArrow (below : Below) (returnType : Bool) : Parser (Expr × Bool) := do
  let awaits ← eatWord "async"
  let ps ← withReader (fun mode : Mode => { mode with awaits := mode.awaits || awaits }) do
    typeParameters below
    parameters below
  let hasType := (← isTyped) && (← isAt ":")
  returnAnnotation below
  expect "=>"
  return (← arrowBody below awaits returnType ps, hasType)

/-- An arrow function with parentheses, if one starts here. In the middle of a conditional
    expression, one that only seems to have a return type is none: another colon has to follow. -/
def parenthesizedArrow? (below : Below) (returnType : Bool) : Parser (Option Expr) := do
  if !(← isAtAny ["(", "<"]) ∧ !(← isAtWord "async") then return none
  match ← arrowVerdict with
  | .no => return none
  | .yes => return some (← parenthesizedArrow below returnType).1
  | .maybe =>
    let before ← get
    let place := before.rest.length
    if before.groups.contains place then return none
    match ← attempt (parenthesizedArrow below returnType) with
    | some (f, hasType) =>
      if !hasType ∨ returnType ∨ (← isAt ":") then return some f
      let groups := (← get).groups
      set { before with groups }
      return none
    | none =>
      modify fun s => { s with groups := place :: s.groups }
      return none

/-- An asynchronous arrow function with a single parameter, if one starts here. The parameter is
    read outside of the function. -/
def asyncArrow? (below : Below) (returnType : Bool) : Parser (Option Expr) := do
  if !(← isAtWord "async") then return none
  let starts ← ahead do
    advance
    if ← afterNewline then return false
    let _ ← identifier
    isAt "=>"
  if !starts then return none
  advance
  if ← isAtAwait then failure
  let p ← identifier
  expect "=>"
  return some (← arrowBody below true returnType [.name p])

/-! ## Assignments and sequences -/

/-- `yield` with its operand, if there is one. -/
def yieldValue (below : Below) : Parser Expr := do
  expectWord "yield"
  if ← afterNewline then return .yield none
  let delegates ← eat "*"
  let l ← lexeme
  let hasNone := l = .finish || [";", "\x7d", ")", "]", ":", ","].any l.isPunct
  if hasNone ∧ !delegates then return .yield none
  let operand := below (.assignment true)
  return .yield (some (← withReader (fun mode : Mode => { mode with yields := true }) operand))

/-- An expression without commas. -/
def assignment (below : Below) (returnType : Bool) : Parser Expr := do
  if ← isAtWordOperator "yield" (← read).yields [] then return ← yieldValue below
  if let some f ← parenthesizedArrow? below returnType then return f
  if let some f ← asyncArrow? below returnType then return f
  let left ← binary below 0
  if let .name p := left then
    if ← eat "=>" then return ← arrowBody below false returnType [.name p]
  match (← lexeme).assignment? with
  | some operator =>
    let target ← asTarget (Target.ofExpr? left)
    advance
    return .assign operator target (← below (.assignment returnType))
  | none =>
    if ← eat "?" then
      let yes ← withIn (below (.assignment false))
      expect ":"
      return .conditional left yes (← below (.assignment returnType))
    return left

/-- Expressions with commas between them. A bracket continues each of them, also inside a decorator;
    behind one without commas it goes on to do so up to the end of the phrase around it. -/
def expression (below : Below) : Parser Expr := do
  let decorates := (← get).decorates
  modify fun s => { s with decorates := false }
  let first ← assignment below true
  if !(← isAt ",") then return first
  let more : Parser (Option Expr) := do
    if ← eat "," then return some (← below (.assignment true))
    return none
  let others ← collect more
  modify fun s => { s with decorates }
  return .sequence (first :: others)

end TypingsAudit.Script.Parser
