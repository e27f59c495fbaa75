import TypingsAudit.Script.Parser.Basic

set_option autoImplicit false

/-! # Keys, patterns and parameters

What properties are called, what declarations bind, and the parameters of functions. -/

namespace TypingsAudit.Script.Parser

/-! ## Modifiers -/

/-- The words that may stand in front of a member, a parameter or a declaration. -/
def modifierWords : List String :=
  ["public", "private", "protected", "readonly", "static", "abstract", "override", "declare", "async",
   "accessor", "const", "in", "out", "export", "default"]

/-- Whether a modifier may stand in front of the lexeme. -/
def canFollowModifier (l : Lexeme) : Bool :=
  l.isLiteralKey || ["[", "\x7b", "*", "..."].any l.isPunct

/-- Whether `get` or `set` may stand in front of the lexeme. -/
def canFollowAccessor (l : Lexeme) : Bool :=
  l.isLiteralKey || l.isPunct "["

/-- Which modifiers a place has. -/
structure ModifierPlace where
  /-- Whether `const` is one. -/
  const : Bool
  /-- Whether `static` in front of a brace starts a block. -/
  staticBlock : Bool

/-- Whether the word at hand is a modifier of what follows it. -/
def isModifier (place : ModifierPlace) (w : String) : Parser Bool :=
  if w = "static" then
    nextIs fun t => canFollowModifier t.lexeme && !(place.staticBlock && t.lexeme.isPunct "\x7b")
  else if w = "const" ∧ !place.const then return false
  else nextIs fun t => !t.newlineBefore && canFollowModifier t.lexeme

/-- The modifiers in front of a member or a parameter. `static` occurs at most once. -/
def modifiers (place : ModifierPlace) : Parser (List String) := do
  let step (ws : List String) : Parser (List String ⊕ List String) := do
    match (← lexeme).word? with
    | some w =>
      if modifierWords.contains w ∧ ¬(w = "static" ∧ ws.contains w) then
        if ← isModifier place w then
          advance
          return .inl (w :: ws)
      return .inr ws
    | none => return .inr ws
  iterate step (← read).bound []

/-- The modifiers of a parameter or of a property of an object. -/
def plainModifiers : Parser (List String) :=
  modifiers ⟨false, false⟩

/-! ## Keys -/

/-- What a property is called. -/
def key (below : Below) : Parser Key := do
  match ← lexeme with
  | .string value =>
    advance
    return .string value
  | .number text =>
    advance
    return .number text
  | .bigint text =>
    advance
    return .bigint text
  | .name text _ =>
    advance
    return .name text
  | .punct "[" =>
    advance
    let e ← withIn (below (.assignment true))
    expect "]"
    return .computed e
  | _ => failure

/-- What a member of a class is called. -/
def memberKey (below : Below) : Parser Key := do
  match ← lexeme with
  | .privateName text =>
    advance
    return .privateName text
  | _ => key below

/-! ## Patterns -/

/-- A type behind a colon, where types may be written. -/
def annotation (below : Below) : Parser Unit := do
  if ← isTyped then
    if ← eat ":" then below .type

/-- A value behind an equals sign. -/
def initializer? (below : Below) : Parser (Option Expr) := do
  if ← eat "=" then return some (← withIn (below (.assignment true)))
  return none

/-- The pattern with the value that follows it, if any. -/
def orDefault (p : Pattern) : Option Expr → Pattern
  | some value => .withDefault p value
  | none => p

/-- A pattern with its type and the value to fall back on. -/
def element (below : Below) : Parser Pattern := do
  let p ← below .pattern
  if ← isTyped then
    let _ ← eat "?"
  annotation below
  return orDefault p (← initializer? below)

/-- What collects the rest, behind its three dots. It has no value to fall back on: one is only
    reported. -/
def rest (below : Below) : Parser Pattern := do
  let p ← below .pattern
  if ← isTyped then
    let _ ← eat "?"
  annotation below
  let value ← initializer? below
  if value.isSome then report
  return orDefault p value

/-- Items with commas between them and the closing mark. The last one may collect the rest, behind
    three dots; a comma behind it is reported where it is not declared only. -/
def itemsAndRest {α : Type} (close : String) (item : Parser α) (rest : Parser Pattern) :
    Parser (List α × Option Pattern) := do
  let step (items : List α) : Parser (List α ⊕ List α × Option Pattern) := do
    if ← eat close then return .inr (items.reverse, none)
    if ← eat "..." then
      let p ← rest
      if ← eat "," then
        if !(← read).isAmbient then report
      expect close
      return .inr (items.reverse, some p)
    let a ← item
    if !(← isAt close) then expect ","
    return .inl (a :: items)
  iterate step (← read).bound []

/-- A property of an object pattern: a key and what it binds, or a name that is both. -/
def bindingProperty (below : Below) : Parser (Key × Pattern) := do
  let isName := (← lexeme).isIdentifier
  let k ← key below
  if isName ∧ !(← isAt ":") then
    match k with
    | .name text => return (k, orDefault (.name text) (← initializer? below))
    | _ => failure
  expect ":"
  return (k, ← element below)

/-- What collects the other properties of an object: a name. -/
def restOfProperties (below : Below) : Parser Pattern := do
  match ← rest below with
  | .name text => return .name text
  | _ => failure

/-- A name that is bound. One that is an operator here is only reported. -/
def boundName : Parser String := do
  let mode ← read
  if mode.awaits ∧ (← isAtWord "await") ∨ mode.yields ∧ (← isAtWord "yield") then report
  identifier

/-- What a declaration binds. -/
def pattern (below : Below) : Parser Pattern := do
  if ← eat "[" then
    let item : Parser (Option Pattern) := do
      if ← isAt "," then return none
      return some (← element below)
    let (elements, rest) ← itemsAndRest "]" item (rest below)
    return .array elements rest
  if ← eat "\x7b" then
    let (properties, rest) ← itemsAndRest "\x7d" (bindingProperty below) (restOfProperties below)
    return .object properties rest
  return .name (← boundName)

/-! ## Parameters -/

/-- The decorators in front of a declaration. They leave nothing. -/
def decorators (below : Below) : Parser Unit := do
  let decorator : Parser (Option Unit) := do
    if ← eat "@" then
      let _ ← decorating true (below .access)
      return some ()
    return none
  let _ ← collect decorator

/-- One parameter. -/
def parameter (below : Below) : Parser Pattern := do
  decorators below
  let _ ← plainModifiers
  element below

/-- The parameters of a function in their parentheses. A first one named `this` only has a type. -/
def parameters (below : Below) : Parser (List Pattern) := do
  expect "("
  if ← isTyped then
    if ← eatWord "this" then
      annotation below
      let _ ← eat ","
  let (plain, rest) ← itemsAndRest ")" (parameter below) (rest below)
  return plain ++ rest.toList

end TypingsAudit.Script.Parser
