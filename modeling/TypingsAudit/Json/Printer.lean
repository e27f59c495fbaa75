import TypingsAudit.Json.Basic

set_option autoImplicit false

/-! # Writing JSON

Two layouts of a value: `Json.compact` without any space, and `Json.pretty` with every item and
member on a line of its own, two blanks deeper than its container. Only the quotation mark, the
backslash and the characters below U+0020 are escaped. -/

namespace TypingsAudit.Json

/-- The layout of floating-point numbers: a point from `0.00001` to below `1e16`, a signed exponent
    elsewhere, and `.0` on whole numbers. -/
def realLayout : Decimal.Layout :=
  { positional := some (-5, 16), wholePoint := true }

def renderNumber : JsonNumber → String
  | .natural n => toString n
  | .negative n => "-" ++ toString n
  | .real x => (if x.negative then "-" else "") ++ realLayout.render x.magnitude

/-- The four hexadecimal digits of a code point below U+0100, in lower case. -/
def hex4 (n : Nat) : List Char :=
  ['0', '0', Nat.digitChar (n / 16), Nat.digitChar (n % 16)]

/-- One character of a string, escaped where it has to be. -/
def escapeChar (c : Char) : List Char :=
  if c = '"' then ['\\', '"']
  else if c = '\\' then ['\\', '\\']
  else if c = '\x08' then ['\\', 'b']
  else if c = '\t' then ['\\', 't']
  else if c = '\n' then ['\\', 'n']
  else if c = '\x0c' then ['\\', 'f']
  else if c = '\r' then ['\\', 'r']
  else if c.toNat < 0x20 then '\\' :: 'u' :: hex4 c.toNat
  else [c]

/-- A string between quotation marks. -/
def quote (s : String) : String :=
  String.ofList ('"' :: s.toList.flatMap escapeChar ++ ['"'])

def braces (body : String) : String :=
  "\x7b" ++ body ++ "\x7d"

def brackets (body : String) : String :=
  "[" ++ body ++ "]"

mutual

/-- A value on one line without spaces. -/
def compact : Json → String
  | .null => "null"
  | .bool b => if b then "true" else "false"
  | .number n => renderNumber n
  | .string s => quote s
  | .array items => brackets (",".intercalate (compactItems items))
  | .object members => braces (",".intercalate (compactMembers members))

def compactItems : List Json → List String
  | [] => []
  | v :: vs => compact v :: compactItems vs

def compactMembers : List (String × Json) → List String
  | [] => []
  | (k, v) :: ms => (quote k ++ ":" ++ compact v) :: compactMembers ms

end

/-- A new line inside `depth` containers. -/
def newline (depth : Nat) : String :=
  String.ofList ('\n' :: List.replicate (2 * depth) ' ')

/-- The body of a container: every entry on a line of its own. -/
def lines (depth : Nat) (entries : List String) : String :=
  if entries.isEmpty then ""
  else newline (depth + 1) ++ ("," ++ newline (depth + 1)).intercalate entries ++ newline depth

mutual

/-- A value over several lines, inside `depth` containers. -/
def prettyAt (depth : Nat) : Json → String
  | .null => "null"
  | .bool b => if b then "true" else "false"
  | .number n => renderNumber n
  | .string s => quote s
  | .array items => brackets (lines depth (prettyItems (depth + 1) items))
  | .object members => braces (lines depth (prettyMembers (depth + 1) members))

def prettyItems (depth : Nat) : List Json → List String
  | [] => []
  | v :: vs => prettyAt depth v :: prettyItems depth vs

def prettyMembers (depth : Nat) : List (String × Json) → List String
  | [] => []
  | (k, v) :: ms => (quote k ++ ": " ++ prettyAt depth v) :: prettyMembers depth ms

end

/-- A value over several lines. -/
def pretty (v : Json) : String :=
  prettyAt 0 v

end TypingsAudit.Json
