import TypingsAudit.Script.Lexer
import TypingsAudit.Script.Tree

set_option autoImplicit false

/-! # Parsers of scripts

A `Parser` looks at one token and holds the text behind it. It gives a tree or gives up, and giving
up is final unless `attempt` or `peek` asked first.

A phrase may contain phrases of any kind, so the grammar is one recursion over all of them. Each
module of `Script.Parser` describes phrases in terms of `Below`, the parsers of the phrases inside;
`Script.Parser.phrase` ties the knot. Before a phrase reads a phrase inside it, it takes a token:
the number of characters bounds the depth, and `Mode.bound` likewise bounds every repetition. -/

namespace TypingsAudit.Script

/-- What the place of a phrase allows. -/
structure Mode where
  /-- Whether types may be written. -/
  typed : Bool
  /-- Whether `in` is an operator. -/
  allowsIn : Bool
  /-- Whether `yield` is an operator. -/
  yields : Bool
  /-- Whether `await` is an operator. -/
  awaits : Bool
  /-- Whether what is declared is defined elsewhere. -/
  isAmbient : Bool
  /-- Whether a type may be conditional. -/
  allowsConditional : Bool
  /-- No repetition is longer. -/
  bound : Nat

/-- The token at hand and the text behind it. -/
structure ParserState where
  token : Token
  rest : List Char
  /-- The places, as lengths of the text behind, of parentheses found to be no parameters. -/
  groups : List Nat
  /-- Whether the phrase is a decorator, which a bracket does not continue. -/
  decorates : Bool
  /-- How many tokens so far are written faultily. -/
  faults : Nat
  /-- How much so far has no place where it stands, though it leaves the tree intact. -/
  reports : Nat

abbrev Parser := ReaderT Mode (OptionT (StateM ParserState))

/-- The kinds of phrases that occur inside others. -/
inductive Phrase where
  | expression
  /-- An expression without commas; in the middle of a conditional one, a colon after parentheses
      is no return type. -/
  | assignment (returnType : Bool)
  /-- Operators that bind more tightly than the level. -/
  | binary (level : Nat)
  | unary
  /-- Members and calls. -/
  | access
  /-- What `new` constructs. -/
  | constructed
  /-- An expression without operators, members and calls around it. -/
  | value
  | pattern
  | type
  /-- A statement; as the body of another one it stands alone. -/
  | statement (alone : Bool)

/-- What a phrase gives. Types leave nothing. -/
abbrev Phrase.Tree : Phrase → Type
  | .expression => Expr
  | .assignment _ => Expr
  | .binary _ => Expr
  | .unary => Expr
  | .access => Expr
  | .constructed => Expr
  | .value => Expr
  | .pattern => Pattern
  | .type => Unit
  | .statement _ => Stmt

/-- The parsers of the phrases inside a phrase. -/
abbrev Below := (phrase : Phrase) → Parser phrase.Tree

namespace Parser

variable {α β σ : Type}

/-! ## The token at hand -/

def token : Parser Token := do
  return (← get).token

def lexeme : Parser Lexeme := do
  return (← token).lexeme

/-- Whether a line ends in front of the token. -/
def afterNewline : Parser Bool := do
  return (← token).newlineBefore

/-- Whether the token is the given punctuation. -/
def isAt (p : String) : Parser Bool := do
  return (← lexeme).isPunct p

/-- Whether the token is the given word. -/
def isAtWord (w : String) : Parser Bool := do
  return (← lexeme).isWord w

def isAtAny (ps : List String) : Parser Bool := do
  return ps.any (← lexeme).isPunct

def isAtAnyWord (ws : List String) : Parser Bool := do
  return ws.any (← lexeme).isWord

def isTyped : Parser Bool := do
  return (← read).typed

/-! ## Taking tokens -/

/-- Go on to the next token. -/
def advance : Parser Unit :=
  modify fun s =>
    let (newline, read) := Lexer.next s.rest
    { s with token := ⟨read.lexeme, newline⟩, rest := read.rest,
             faults := s.faults + if read.isFaulty then 1 else 0 }

/-- Put another reading of the token in its place. -/
def reread (read : Lexer.Reading) : Parser Unit :=
  modify fun s =>
    { s with token := ⟨read.lexeme, s.token.newlineBefore⟩, rest := read.rest,
             faults := s.faults + if read.isFaulty then 1 else 0 }

/-- Note something that has no place here. -/
def report : Parser Unit :=
  modify fun s => { s with reports := s.reports + 1 }

/-- Take the token if it is the given punctuation. -/
def eat (p : String) : Parser Bool := do
  if ← isAt p then
    advance
    return true
  return false

/-- Take the token if it is the given word. -/
def eatWord (w : String) : Parser Bool := do
  if ← isAtWord w then
    advance
    return true
  return false

def expect (p : String) : Parser Unit := do
  if !(← eat p) then failure

def expectWord (w : String) : Parser Unit := do
  if !(← eatWord w) then failure

/-- A name that may be bound or referred to. -/
def identifier : Parser String := do
  match (← lexeme) with
  | .name text escaped =>
    if (Lexeme.name text escaped).isIdentifier then
      advance
      return text
    failure
  | _ => failure

/-- A name or a keyword. -/
def anyName : Parser String := do
  match (← lexeme) with
  | .name text _ =>
    advance
    return text
  | _ => failure

def stringValue : Parser String := do
  match (← lexeme) with
  | .string value =>
    advance
    return value
  | _ => failure

/-- The end of a statement: a semicolon, or a place where it may be left out. -/
def semicolon : Parser Unit := do
  if ← eat ";" then return
  let t ← token
  if t.newlineBefore ∨ t.lexeme.isPunct "\x7d" ∨ t.lexeme = .finish then return
  failure

/-- Whether a statement may end here. -/
def isAtEnd : Parser Bool := do
  let t ← token
  return t.newlineBefore ∨ t.lexeme.isPunct ";" ∨ t.lexeme.isPunct "\x7d" ∨ t.lexeme = .finish

/-! ## Looking ahead -/

/-- The result of `p`, or nothing when it gives up; the token stays where it is. -/
def peek (p : Parser α) : Parser (Option α) := fun mode s =>
  let (result, after) := p mode s
  (some result, { s with groups := after.groups })

/-- Whether `p` answers yes from here on; the token stays where it is. -/
def ahead (p : Parser Bool) : Parser Bool := do
  return (← peek p).getD false

/-- Whether the token after this one satisfies `p`. -/
def nextIs (p : Token → Bool) : Parser Bool :=
  ahead do
    advance
    return p (← token)

/-- Read `p`, or read nothing when it gives up. -/
def attempt (p : Parser α) : Parser (Option α) := fun mode s =>
  match p mode s with
  | (some a, after) => (some (some a), after)
  | (none, after) => (some none, { s with groups := after.groups })

/-! ## Repetition -/

/-- Take steps until one gives a result; the fuel bounds their number. -/
def iterate (step : σ → Parser (σ ⊕ α)) : Nat → σ → Parser α
  | 0, _ => failure
  | fuel + 1, s => do
    match ← step s with
    | .inl s => iterate step fuel s
    | .inr a => return a

/-- Read items until there is none. -/
def collect (item : Parser (Option α)) : Parser (List α) := do
  let step (items : List α) : Parser (List α ⊕ List α) := do
    match ← item with
    | some a => return .inl (a :: items)
    | none => return .inr items.reverse
  iterate step (← read).bound []

/-- Extend what is read for as long as possible. -/
def extend (more : α → Parser (Option α)) (a : α) : Parser α := do
  let step (a : α) : Parser (α ⊕ α) := do
    match ← more a with
    | some a => return .inl a
    | none => return .inr a
  iterate step (← read).bound a

/-- Items with commas between them up to `close`, which is not taken, and whether a comma follows
    the last one. -/
def separated (close : String) (item : Parser α) : Parser (List α × Bool) := do
  let step (items : List α) : Parser (List α ⊕ List α × Bool) := do
    if ← isAt close then return .inr (items.reverse, !items.isEmpty)
    let a ← item
    if ← eat "," then return .inl (a :: items)
    if ← isAt close then return .inr ((a :: items).reverse, false)
    failure
  iterate step (← read).bound []

/-- Items with commas between them, one more comma allowed, and the closing mark. -/
def delimited (close : String) (item : Parser α) : Parser (List α) := do
  let (items, _) ← separated close item
  expect close
  return items

/-- The texts and the substitutions of a template, from its first stretch of text on. -/
def templateParts (hole : Parser α) : Parser (List (Option String) × List α) := do
  let step (read : List (Option String) × List α) :
      Parser ((List (Option String) × List α) ⊕ (List (Option String) × List α)) := do
    match ← lexeme with
    | .template text last =>
      advance
      let texts := text :: read.1
      if last then return .inr (texts.reverse, read.2.reverse)
      let value ← hole
      if !(← isAt "\x7d") then failure
      reread (Lexer.template (← get).rest)
      return .inl (texts, value :: read.2)
    | _ => failure
  iterate step (← read).bound ([], [])

/-! ## Modes -/

/-- Read `p`; whether a bracket continues what follows is as it was before. -/
def within (p : Parser α) : Parser α := do
  let decorates := (← get).decorates
  let a ← p
  modify fun s => { s with decorates }
  return a

/-- Read a decorator, or what stands outside of one. -/
def decorating (decorates : Bool) (p : Parser α) : Parser α :=
  within do
    modify fun s => { s with decorates }
    p

/-- Read where `in` is an operator. -/
def withIn (p : Parser α) : Parser α :=
  within (withReader (fun mode => { mode with allowsIn := true }) p)

/-- Read where `in` is no operator. -/
def withoutIn (p : Parser α) : Parser α :=
  within (withReader (fun mode => { mode with allowsIn := false }) p)

/-- Read where `yield` and `await` are operators as given. -/
def withOperators (yields awaits : Bool) (p : Parser α) : Parser α :=
  withReader (fun mode => { mode with yields, awaits }) p

end Parser

end TypingsAudit.Script
