import TypingsAudit.Script.Parser.Statement

set_option autoImplicit false

/-! # Reading scripts

`Script.parse?` reads a text as a module: with strict rules, `await` outside of functions, imports
and exports. Rules that leave the tree intact are not enforced: a script may declare a name twice or
return outside of a function. -/

namespace TypingsAudit.Script

/-- The parser of each kind of phrase; the fuel bounds how deep phrases lie inside each other. -/
def Parser.phrase : Nat → Below
  | 0, _ => failure
  | fuel + 1, p =>
    let below := phrase fuel
    match p with
    | .expression => expression below
    | .assignment returnType => assignment below returnType
    | .binary level => binary below level
    | .unary => unary below
    | .access => access below
    | .constructed => constructed below
    | .value => value below
    | .pattern => pattern below
    | .type => type below
    | .statement alone => statement below alone

/-- The statements of a whole script. -/
def Parser.script (below : Below) : Parser (List Stmt) := do
  let body ← statements below
  if !(← lexeme).isLast then failure
  return withoutDirectives body

/-- What the scripts of a kind may hold. -/
inductive Dialect where
  /-- No types. -/
  | untyped
  /-- Types. -/
  | typed
  /-- Types, and declarations of what is defined elsewhere. -/
  | declarations
  deriving DecidableEq, Repr

/-- The statements of a script, without the directives at its front; nothing when it cannot be
    read. -/
def parse? (dialect : Dialect) (source : String) : Option (List Stmt) :=
  let text := Lexer.withoutInterpreterLine source.toList
  let bound := text.length + 2
  let mode : Mode :=
    { typed := dialect ≠ .untyped, isAmbient := dialect = .declarations, allowsIn := true,
      yields := false, awaits := true, allowsConditional := true, bound }
  let (newline, first) := Lexer.next text
  let start : ParserState :=
    { token := ⟨first.lexeme, newline⟩, rest := first.rest, groups := [], decorates := false,
      faults := if first.isFaulty then 1 else 0, reports := 0 }
  (Parser.script (Parser.phrase bound) mode start).1

end TypingsAudit.Script
