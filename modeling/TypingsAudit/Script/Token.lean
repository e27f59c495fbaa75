set_option autoImplicit false

/-! # Tokens

The words of a script. Keywords are names like any other at this level: which of them a place
reserves is a matter of grammar, so the classes of words stand here as predicates. -/

namespace TypingsAudit.Script

inductive Lexeme where
  /-- A name or a keyword, and whether it was written with escapes. -/
  | name (text : String) (escaped : Bool)
  /-- `#name` -/
  | privateName (text : String)
  | string (value : String)
  /-- A number, as the text of its value. -/
  | number (text : String)
  /-- A big integer, in decimal. -/
  | bigint (text : String)
  /-- A stretch of template text, up to the closing backtick when it is the last one and up to a
      dollar sign and an opening brace otherwise. One whose escapes mean nothing has no text. -/
  | template (text : Option String) (last : Bool)
  | regex (text : String)
  | punct (text : String)
  /-- The end of the text. -/
  | finish
  /-- Text that no token can be made of. -/
  | unreadable
  /-- A number whose exponent has no digits, and so no value. -/
  | malformedNumber
  deriving DecidableEq, Repr

/-- A lexeme, and whether a line ends between it and the one before. -/
structure Token where
  lexeme : Lexeme
  newlineBefore : Bool
  deriving DecidableEq, Repr

instance : Inhabited Token := ⟨⟨.finish, false⟩⟩

namespace Lexeme

/-- The name or keyword at hand. -/
def word? : Lexeme → Option String
  | .name text _ => some text
  | _ => none

def isWord (w : String) : Lexeme → Bool
  | .name text _ => text == w
  | _ => false

def isPunct (p : String) : Lexeme → Bool
  | .punct text => text == p
  | _ => false

/-- The words that name nothing. -/
def reserved : List String :=
  ["break", "case", "catch", "class", "const", "continue", "debugger", "default", "delete", "do",
   "else", "enum", "export", "extends", "finally", "for", "function", "if", "import", "in",
   "instanceof", "new", "return", "super", "switch", "this", "throw", "try", "typeof", "var", "void",
   "while", "with", "null", "true", "false"]

/-- Whether no token follows. -/
def isLast : Lexeme → Bool
  | .finish => true
  | .unreadable => true
  | _ => false

/-- A name that may be bound and referred to. -/
def isIdentifier : Lexeme → Bool
  | .name text _ => !reserved.contains text
  | _ => false

/-- A name that is an operator nowhere. -/
def isOrdinaryName (l : Lexeme) : Bool :=
  l.isIdentifier && !l.isWord "await" && !l.isWord "yield"

/-- The words that name something except where the grammar gives them a meaning. -/
def contextualWords : List String :=
  ["async", "from", "get", "meta", "of", "set", "target", "accessor", "source", "defer", "abstract",
   "as", "asserts", "assert", "any", "boolean", "constructor", "declare", "infer", "intrinsic", "is",
   "keyof", "module", "namespace", "never", "out", "readonly", "require", "number", "object",
   "satisfies", "string", "symbol", "type", "undefined", "unique", "using", "unknown", "global",
   "bigint", "override", "implements", "interface", "let", "package", "private", "protected",
   "public", "static", "yield", "await"]

/-- A name that has no meaning of its own anywhere. -/
def isPlainName (l : Lexeme) : Bool :=
  l.isIdentifier && !contextualWords.any l.isWord

/-- A name or a keyword. -/
def isName : Lexeme → Bool
  | .name _ _ => true
  | _ => false

/-- A name, a keyword, or a private name. -/
def isAnyName : Lexeme → Bool
  | .name _ _ => true
  | .privateName _ => true
  | _ => false

/-- A number of any kind. -/
def isNumber : Lexeme → Bool
  | .number _ => true
  | .bigint _ => true
  | _ => false

/-- A string, a number or a word that stands for a value. -/
def isLiteral : Lexeme → Bool
  | .string _ => true
  | .number _ => true
  | .bigint _ => true
  | .name "true" _ => true
  | .name "false" _ => true
  | .name "null" _ => true
  | _ => false

/-- What a property may be called without brackets. -/
def isLiteralKey : Lexeme → Bool
  | .name _ _ => true
  | .privateName _ => true
  | .string _ => true
  | .number _ => true
  | .bigint _ => true
  | _ => false

/-- How tightly an operator between two operands binds, from `??` to `**`. -/
def binaryLevel? : Lexeme → Option Nat
  | .punct "??" => some 1
  | .punct "||" => some 2
  | .punct "&&" => some 3
  | .punct "|" => some 4
  | .punct "^" => some 5
  | .punct "&" => some 6
  | .punct "==" => some 7
  | .punct "!=" => some 7
  | .punct "===" => some 7
  | .punct "!==" => some 7
  | .punct "<" => some 8
  | .punct ">" => some 8
  | .punct "<=" => some 8
  | .punct ">=" => some 8
  | .name "instanceof" _ => some 8
  | .name "in" _ => some 8
  | .name "as" _ => some 8
  | .name "satisfies" _ => some 8
  | .punct "<<" => some 9
  | .punct ">>" => some 9
  | .punct ">>>" => some 9
  | .punct "+" => some 10
  | .punct "-" => some 10
  | .punct "*" => some 11
  | .punct "/" => some 11
  | .punct "%" => some 11
  | .punct "**" => some 12
  | _ => none

/-- An operator that evaluates the operands on both of its sides. -/
def evaluatesBoth (l : Lexeme) : Bool :=
  l.binaryLevel?.any (3 < ·) && !l.isWord "as" && !l.isWord "satisfies"

/-- The level of `**`, the only operator that groups to the right. -/
def powerLevel : Nat := 12

def assignmentOperators : List String :=
  ["=", "+=", "-=", "*=", "/=", "%=", "**=", "<<=", ">>=", ">>>=", "&=", "|=", "^=", "&&=", "||=",
   "??="]

/-- The operator of an assignment. -/
def assignment? : Lexeme → Option String
  | .punct text => if assignmentOperators.contains text then some text else none
  | _ => none

/-- The operators in front of an operand, `++` and `--` apart. -/
def unary? : Lexeme → Option String
  | .punct "+" => some "+"
  | .punct "-" => some "-"
  | .punct "!" => some "!"
  | .punct "~" => some "~"
  | .name "typeof" _ => some "typeof"
  | .name "void" _ => some "void"
  | .name "delete" _ => some "delete"
  | _ => none

/-- `++` or `--`. -/
def update? : Lexeme → Option String
  | .punct "++" => some "++"
  | .punct "--" => some "--"
  | _ => none

end Lexeme

end TypingsAudit.Script
