set_option autoImplicit false

/-! # Syntax trees of scripts

The trees that `Script.parse` builds from JavaScript and TypeScript modules. Types are erased: an
annotation leaves no trace, and a declaration of types alone is one node without a body. Parentheses
around an expression are a node of their own, except around the target of an assignment, and so is
the end of an optional chain: `a?.b` is `chain (member a "b")`.

Numbers and names appear as the texts they stand for: `0x10` is `"16"`, and escapes are decoded. -/

namespace TypingsAudit.Script

inductive VariableKind where
  | var | let | const | using
  deriving DecidableEq, Repr

/-- How an expression is given a type. -/
inductive TypedForm where
  /-- `e as T` and `e satisfies T` -/
  | cast
  /-- `<T>e` -/
  | assertion
  /-- `e!` -/
  | nonNull
  /-- `e<T>` -/
  | instantiation
  deriving DecidableEq, Repr

/-- One name of an export list. -/
structure ExportSpecifier where
  exported : String
  typeOnly : Bool
  deriving DecidableEq, Repr

mutual

inductive Expr where
  | name (text : String)
  | string (value : String)
  | number (text : String)
  | bigint (text : String)
  | regex (text : String)
  | null
  | bool (value : Bool)
  | thisValue
  | superValue
  /-- `import.meta`, `new.target` -/
  | metaProperty
  /-- The texts around the values; one whose escapes mean nothing is `none`. -/
  | template (texts : List (Option String)) (values : List Expr)
  | tagged (tag : Expr) (values : List Expr)
  | array (elements : List Element)
  | object (properties : List Property)
  | functionValue (f : Function)
  | arrow (f : Function)
  | classValue (c : Class)
  | unary (operator : String) (operand : Expr)
  | update (operator : String) (target : Target)
  | binary (operator : String) (left right : Expr)
  /-- `#name in e` -/
  | hasPrivate (name : String) (object : Expr)
  | assign (operator : String) (target : Target) (value : Expr)
  | conditional (test yes no : Expr)
  | sequence (parts : List Expr)
  | paren (inner : Expr)
  | member (object : Expr) (name : String)
  | index (object key : Expr)
  | privateMember (object : Expr) (name : String)
  | call (callee : Expr) (arguments : List Element)
  | construct (callee : Expr) (arguments : List Element)
  | importCall (arguments : List Expr)
  | chain (inner : Expr)
  | await (operand : Expr)
  | yield (operand : Option Expr)
  | typed (form : TypedForm) (inner : Expr)

/-- An element of an array or an argument of a call. -/
inductive Element where
  | hole
  | item (e : Expr)
  | spread (e : Expr)

/-- The key of a property or of a member of a class. -/
inductive Key where
  | name (text : String)
  | string (value : String)
  | number (text : String)
  | bigint (text : String)
  | computed (e : Expr)
  | privateName (text : String)

inductive Property where
  /-- A value, a method or an accessor. -/
  | entry (key : Key) (value : Expr)
  /-- `name`, or `name = e` where the object turns out to be a pattern. -/
  | shorthand (name : String) (default : Option Expr)
  | spread (e : Expr)

/-- What an assignment gives a value to. -/
inductive Target where
  | name (text : String)
  | member (object : Expr) (name : String)
  | index (object key : Expr)
  | privateMember (object : Expr) (name : String)
  | typed (form : TypedForm) (inner : Expr)
  | array (elements : List (Option Target)) (rest : Option Target)
  | object (properties : List (Key × Target)) (rest : Option Target)
  /-- A target inside a pattern with a value to fall back on. -/
  | withDefault (target : Target) (value : Expr)

/-- What a declaration binds. -/
inductive Pattern where
  | name (text : String)
  | array (elements : List (Option Pattern)) (rest : Option Pattern)
  | object (properties : List (Key × Pattern)) (rest : Option Pattern)
  | withDefault (pattern : Pattern) (value : Expr)

/-- Parameters and body; a declaration without code has no body. -/
inductive Function where
  | mk (parameters : List Pattern) (body : Option (List Stmt))

inductive Class where
  | mk (name : Option String) (base : Option Expr) (members : List ClassMember)

inductive ClassMember where
  | method (key : Key) (f : Function)
  | field (key : Key) (value : Option Expr)
  | initializer (body : List Stmt)
  /-- An index signature. -/
  | signature

inductive Declarator where
  | mk (pattern : Pattern) (value : Option Expr)

inductive SwitchCase where
  | mk (test : Option Expr) (body : List Stmt)

/-- What stands in front of the first semicolon, `in` or `of` of a loop. -/
inductive LoopHead where
  | variableList (kind : VariableKind) (declarators : List Declarator)
  | value (e : Expr)
  | target (t : Target)

inductive Stmt where
  | expression (e : Expr)
  | variableList (kind : VariableKind) (declarators : List Declarator)
  | functionDeclaration (name : Option String) (f : Function)
  | classDeclaration (c : Class)
  | block (body : List Stmt)
  | empty
  | ifElse (test : Expr) (yes : Stmt) (no : Option Stmt)
  | whileLoop (test : Expr) (body : Stmt)
  | doWhile (body : Stmt) (test : Expr)
  | forLoop (init : Option LoopHead) (test update : Option Expr) (body : Stmt)
  | forEach (head : LoopHead) (subject : Expr) (body : Stmt)
  | breakTo (label : Option String)
  | continueTo (label : Option String)
  | returnValue (value : Option Expr)
  | throwValue (value : Expr)
  | tryCatch (body : List Stmt) (parameter : Option Pattern) (handler finalizer : Option (List Stmt))
  | switchOn (subject : Expr) (cases : List SwitchCase)
  | labeled (label : String) (body : Stmt)
  | withObject (object : Expr) (body : Stmt)
  | debugger
  /-- A type alias or an interface. -/
  | typeDeclaration (name : String)
  | enumeration (name : String) (values : List Expr)
  /-- `namespace N { }`, `module "m" { }`, or `global { }`, which goes by that word. -/
  | namespaceBlock (name : String) (body : List Stmt)
  /-- `import N = ...` -/
  | importAlias (name : String)
  | importModule
  | exportDeclaration (declaration : Stmt)
  | exportList (typeOnly : Bool) (specifiers : List ExportSpecifier)
  /-- `export * from` and `export * as name from`. -/
  | exportAll (typeOnly : Bool) (exported : Option String)
  /-- An interface may be exported as the default; it has no value. -/
  | exportDefault (value : Option Expr)
  /-- `export = e` -/
  | exportAssignment (value : Expr)
  /-- `export as namespace N` -/
  | exportNamespace (name : String)

end

instance : Inhabited Expr := ⟨.null⟩
instance : Inhabited Stmt := ⟨.empty⟩

/-- The name a key has whatever is computed around it. -/
def Key.staticName? : Key → Option String
  | .name text => some text
  | .string value => some value
  | .number text => some text
  | .bigint text => some text
  | .computed (.string value) => some value
  | .computed (.number text) => some text
  | .computed (.bigint text) => some text
  | .computed (.regex text) => some text
  | .computed .null => some "null"
  | .computed (.template [some text] []) => some text
  | .computed _ => none
  | .privateName _ => none

end TypingsAudit.Script
