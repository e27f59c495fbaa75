import TypingsAudit.Script.Tree

set_option autoImplicit false

/-! # Expressions as targets

What stands to the left of an assignment is read as an expression first, because only the operator
behind it tells. `Target.ofExpr?` turns the expression into a target: a name or a member stays what
it is, arrays and objects become patterns, and parentheses around a name or a member are dropped.
Anything else can not be assigned to. Inside a pattern, an assignment of any kind stands for a target
with a value to fall back on. -/

namespace TypingsAudit.Script.Target

/-- What is left of an expression without parentheses and types around it. -/
def bare : Expr → Expr
  | .paren inner => bare inner
  | .typed _ inner => bare inner
  | e => e

/-- Whether the expression is a name or a member. -/
def isReference : Expr → Bool
  | .name _ => true
  | .member _ _ => true
  | .index _ _ => true
  | .privateMember _ _ => true
  | _ => false

/-- A name or a member, perhaps in parentheses or with a type. -/
def single? : Expr → Option Target
  | .name text => some (.name text)
  | .member base text => some (.member base text)
  | .index base key => some (.index base key)
  | .privateMember base text => some (.privateMember base text)
  | .paren inner => single? inner
  | .typed .instantiation _ => none
  | .typed form inner => if isReference (bare inner) then some (.typed form inner) else none
  | _ => none

mutual

/-- The target an expression stands for. -/
def ofExpr? : Expr → Option Target
  | .array elements => (ofElements? elements).map fun (targets, rest) => .array targets rest
  | .object properties => (ofProperties? properties).map fun (targets, rest) => .object targets rest
  | e => single? e

/-- The targets in an array. Only the last element may collect the rest. -/
def ofElements? : List Element → Option (List (Option Target) × Option Target)
  | [] => some ([], none)
  | [.spread e] => (ofExpr? e).map fun t => ([], some t)
  | .spread _ :: _ :: _ => none
  | .hole :: more => (ofElements? more).map fun (targets, rest) => (none :: targets, rest)
  | .item (.assign _ t value) :: more =>
    (ofElements? more).map fun (targets, rest) => (some (.withDefault t value) :: targets, rest)
  | .item e :: more => do
    let t ← ofExpr? e
    let (targets, rest) ← ofElements? more
    return (some t :: targets, rest)

/-- The targets in an object. Only the last property may collect the rest. -/
def ofProperties? : List Property → Option (List (Key × Target) × Option Target)
  | [] => some ([], none)
  | [.spread e] => (ofExpr? e).map fun t => ([], some t)
  | .spread _ :: _ :: _ => none
  | .shorthand text value :: more =>
    let t : Target :=
      match value with
      | none => .name text
      | some value => .withDefault (.name text) value
    (ofProperties? more).map fun (targets, rest) => ((.name text, t) :: targets, rest)
  | .entry key (.assign _ t value) :: more =>
    (ofProperties? more).map fun (targets, rest) => ((key, .withDefault t value) :: targets, rest)
  | .entry key e :: more => do
    let t ← ofExpr? e
    let (targets, rest) ← ofProperties? more
    return ((key, t) :: targets, rest)

end

end TypingsAudit.Script.Target
