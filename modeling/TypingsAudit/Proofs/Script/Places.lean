import TypingsAudit.Script.ModuleSyntax

set_option autoImplicit false

/-! # Where the code of a script stands

A script is a tree of statements, expressions, targets and patterns. `Node.parts` lists what stands
directly inside each of them, without what stands in the bodies of functions and classes, which does
not run with the script. Each part has a `Place`, and a node anywhere in the script is found along a
list of places (`Node.Holds`).

The scan for signs of a module enters some places and leaves out others (`Place.isScanned`). What it
finds is what the expressions at the end of such paths show by themselves (`Node.mem_signs_iff`). -/

namespace TypingsAudit.Script

/-! ## Places -/

/-- How a part of a script stands inside what is around it. -/
inductive Place where
  /-- The expression of a statement. -/
  | expressionStatement
  /-- What a variable starts with. -/
  | initialValue
  /-- What is assigned. -/
  | assignedValue
  | callee
  | argument
  /-- One of the expressions that commas separate. -/
  | sequencePart
  | arrayItem
  | propertyValue
  /-- What `? :` chooses by, and what it chooses from. -/
  | choice
  | parentheses
  /-- A statement inside another one. -/
  | nested
  /-- The condition, the subject or the result of a statement. -/
  | clause
  | exported
  /-- The operand of an operator, of `await` or of `yield`. -/
  | operand
  /-- What has the member that is accessed. -/
  | object
  /-- A key that is computed. -/
  | key
  | spread
  /-- A part of a template with values. -/
  | template
  /-- A part of `new C(e)`. -/
  | construction
  | importedPath
  | chain
  | typed
  /-- What is assigned to. -/
  | target
  /-- What is declared. -/
  | pattern
  /-- What a pattern falls back on. -/
  | fallback
  /-- What a class extends. -/
  | baseClass
  deriving DecidableEq, Repr

/-- Whether the scan for signs of a module enters the place. -/
def Place.isScanned : Place → Bool
  | .expressionStatement => true
  | .initialValue => true
  | .assignedValue => true
  | .callee => true
  | .argument => true
  | .sequencePart => true
  | .arrayItem => true
  | .propertyValue => true
  | .choice => true
  | .parentheses => true
  | _ => false

/-! ## Nodes and their parts -/

/-- A node of the tree that code stands in. -/
inductive Node where
  | statement (s : Stmt)
  | value (e : Expr)
  | target (t : Target)
  | pattern (p : Pattern)

def Key.parts : Key → List (Place × Node)
  | .computed e => [(.key, .value e)]
  | _ => []

/-- The part of an array or a call that an element is, given the place of its items. -/
def Element.parts (place : Place) : Element → List (Place × Node)
  | .hole => []
  | .item e => [(place, .value e)]
  | .spread e => [(.spread, .value e)]

def Property.parts : Property → List (Place × Node)
  | .entry key value => key.parts ++ [(.propertyValue, .value value)]
  | .shorthand _ value => value.toList.map fun e => (.fallback, .value e)
  | .spread e => [(.spread, .value e)]

/-- The members of a class do not run where the class stands. -/
def Class.parts : Class → List (Place × Node)
  | .mk _ base _ => base.toList.map fun e => (.baseClass, .value e)

/-- The parts of an expression. Names and literals have none, and neither has a function. -/
def Expr.parts : Expr → List (Place × Node)
  | .template _ values => values.map fun e => (.template, .value e)
  | .tagged tag values => (tag :: values).map fun e => (.template, .value e)
  | .array elements => elements.flatMap (Element.parts .arrayItem)
  | .object properties => properties.flatMap Property.parts
  | .classValue c => c.parts
  | .unary _ operand => [(.operand, .value operand)]
  | .update _ target => [(.target, .target target)]
  | .binary _ left right => [(.operand, .value left), (.operand, .value right)]
  | .hasPrivate _ base => [(.operand, .value base)]
  | .assign _ target value => [(.target, .target target), (.assignedValue, .value value)]
  | .conditional test yes no => [test, yes, no].map fun e => (.choice, .value e)
  | .sequence parts => parts.map fun e => (.sequencePart, .value e)
  | .paren inner => [(.parentheses, .value inner)]
  | .member base _ => [(.object, .value base)]
  | .index base key => [(.object, .value base), (.key, .value key)]
  | .privateMember base _ => [(.object, .value base)]
  | .call callee arguments =>
    (.callee, .value callee) :: arguments.flatMap (Element.parts .argument)
  | .construct callee arguments =>
    (.construction, .value callee) :: arguments.flatMap (Element.parts .construction)
  | .importCall arguments => arguments.map fun e => (.importedPath, .value e)
  | .chain inner => [(.chain, .value inner)]
  | .await operand => [(.operand, .value operand)]
  | .yield operand => operand.toList.map fun e => (.operand, .value e)
  | .typed _ inner => [(.typed, .value inner)]
  | _ => []

def Target.parts : Target → List (Place × Node)
  | .name _ => []
  | .member base _ => [(.object, .value base)]
  | .index base key => [(.object, .value base), (.key, .value key)]
  | .privateMember base _ => [(.object, .value base)]
  | .typed _ inner => [(.typed, .value inner)]
  | .array elements rest =>
    (elements.flatMap Option.toList ++ rest.toList).map fun t => (.target, .target t)
  | .object properties rest =>
    properties.flatMap (fun (key, t) => key.parts ++ [(.target, .target t)]) ++
      rest.toList.map fun t => (.target, .target t)
  | .withDefault target value => [(.target, .target target), (.fallback, .value value)]

def Pattern.parts : Pattern → List (Place × Node)
  | .name _ => []
  | .array elements rest =>
    (elements.flatMap Option.toList ++ rest.toList).map fun p => (.pattern, .pattern p)
  | .object properties rest =>
    properties.flatMap (fun (key, p) => key.parts ++ [(.pattern, .pattern p)]) ++
      rest.toList.map fun p => (.pattern, .pattern p)
  | .withDefault pattern value => [(.pattern, .pattern pattern), (.fallback, .value value)]

def Declarator.parts : Declarator → List (Place × Node)
  | .mk pattern value =>
    (.pattern, .pattern pattern) :: value.toList.map fun e => (.initialValue, .value e)

/-- The variables of a loop are declared as by a statement of their own. -/
def LoopHead.node : LoopHead → Node
  | .variableList kind declarators => .statement (.variableList kind declarators)
  | .value e => .value e
  | .target t => .target t

def SwitchCase.parts : SwitchCase → List (Place × Node)
  | .mk test body =>
    test.toList.map (fun e => (.clause, .value e)) ++ body.map fun s => (.nested, .statement s)

/-- The parts of a statement. The declaration of a function has none. -/
def Stmt.parts : Stmt → List (Place × Node)
  | .expression e => [(.expressionStatement, .value e)]
  | .variableList _ declarators => declarators.flatMap Declarator.parts
  | .classDeclaration c => c.parts
  | .block body => body.map fun s => (.nested, .statement s)
  | .ifElse test yes no =>
    (.clause, .value test) :: (yes :: no.toList).map fun s => (.nested, .statement s)
  | .whileLoop test body => [(.clause, .value test), (.nested, .statement body)]
  | .doWhile body test => [(.nested, .statement body), (.clause, .value test)]
  | .forLoop init test update body =>
    init.toList.map (fun head => (.clause, head.node)) ++
      (test.toList ++ update.toList).map (fun e => (.clause, .value e)) ++
      [(.nested, .statement body)]
  | .forEach head subject body =>
    [(.clause, head.node), (.clause, .value subject), (.nested, .statement body)]
  | .returnValue value => value.toList.map fun e => (.clause, .value e)
  | .throwValue value => [(.clause, .value value)]
  | .tryCatch body parameter handler finalizer =>
    parameter.toList.map (fun p => (.pattern, .pattern p)) ++
      (body ++ handler.getD [] ++ finalizer.getD []).map fun s => (.nested, .statement s)
  | .switchOn subject cases => (.clause, .value subject) :: cases.flatMap SwitchCase.parts
  | .labeled _ body => [(.nested, .statement body)]
  | .withObject object body => [(.clause, .value object), (.nested, .statement body)]
  | .enumeration _ values => values.map fun e => (.clause, .value e)
  | .namespaceBlock _ body => body.map fun s => (.nested, .statement s)
  | .exportDeclaration declaration => [(.exported, .statement declaration)]
  | .exportDefault value => value.toList.map fun e => (.exported, .value e)
  | .exportAssignment value => [(.exported, .value value)]
  | _ => []

/-- What stands directly inside a node, and where. -/
def Node.parts : Node → List (Place × Node)
  | .statement s => s.parts
  | .value e => e.parts
  | .target t => t.parts
  | .pattern p => p.parts

/-- A node holds another one, which is found along a list of places. -/
inductive Node.Holds : Node → List Place → Node → Prop
  | here (p : Node) : Holds p [] p
  | inside {p q r : Node} {place : Place} {path : List Place} (hpart : (place, q) ∈ p.parts)
      (h : Holds q path r) : Holds p (place :: path) r

/-- An expression runs with a script: it stands in one of its statements, along a list of places. -/
def Runs (script : List Stmt) (path : List Place) (e : Expr) : Prop :=
  ∃ s ∈ script, (Node.statement s).Holds path (.value e)

/-! ## Looking for a node -/

/-- Look for a node as wanted, at most so deep, through places that may be entered. -/
def Node.holdsSome (enters : Place → Bool) (wanted : Node → Bool) : Nat → Node → Bool
  | 0, _ => false
  | depth + 1, n =>
    wanted n || n.parts.any fun part => enters part.1 && holdsSome enters wanted depth part.2

theorem Node.exists_of_holdsSome {enters : Place → Bool} {wanted : Node → Bool} {depth : Nat}
    {n : Node} (h : n.holdsSome enters wanted depth) :
    ∃ path m, n.Holds path m ∧ (∀ place ∈ path, enters place) ∧ wanted m := by
  induction depth generalizing n with
  | zero => exact absurd h Bool.false_ne_true
  | succ depth ih =>
      rw [holdsSome, Bool.or_eq_true, List.any_eq_true] at h
      rcases h with h | ⟨part, hpart, h⟩
      · exact ⟨[], n, .here n, by simp, h⟩
      · rw [Bool.and_eq_true] at h
        obtain ⟨path, m, hholds, hpath, hm⟩ := ih h.2
        exact ⟨part.1 :: path, m, .inside hpart hholds, List.forall_mem_cons.2 ⟨h.1, hpath⟩, hm⟩

/-- Whether the node is an expression as wanted. -/
def Node.isValue (wanted : Expr → Bool) : Node → Bool
  | .value e => wanted e
  | _ => false

/-- Look for an expression as wanted in the statements of a script. -/
def someRuns (enters : Place → Bool) (wanted : Expr → Bool) (depth : Nat) (script : List Stmt) :
    Bool :=
  script.any fun s => (Node.statement s).holdsSome enters (Node.isValue wanted) depth

theorem exists_of_someRuns {enters : Place → Bool} {wanted : Expr → Bool} {depth : Nat}
    {script : List Stmt} (h : someRuns enters wanted depth script) :
    ∃ path e, Runs script path e ∧ (∀ place ∈ path, enters place) ∧ wanted e := by
  obtain ⟨s, hs, h⟩ := List.any_eq_true.1 h
  obtain ⟨path, m, hholds, hpath, hm⟩ := Node.exists_of_holdsSome h
  cases m with
  | value e => exact ⟨path, e, ⟨s, hs, hholds⟩, hpath, hm⟩
  | _ => exact absurd hm Bool.false_ne_true

/-! ## What a node shows by itself -/

/-- What an expression shows apart from its parts. -/
def Expr.ownSigns : Expr → List Sign
  | .assign _ target value => target.signs value
  | .call callee arguments => callSigns callee arguments
  | .member base text => (Expr.member base text).signs
  | _ => []

/-- What a statement shows apart from its parts: imports and exports. -/
def Stmt.ownSigns : Stmt → List Sign
  | .expression _ => []
  | .variableList _ _ => []
  | s => s.signs

def Node.ownSigns : Node → List Sign
  | .statement s => s.ownSigns
  | .value e => e.ownSigns
  | _ => []

/-- What the scan finds in a node. -/
def Node.signs : Node → List Sign
  | .statement s => s.signs
  | .value e => e.signs
  | _ => []

/-! ## One step of the scan -/

section

variable {sign : Sign}

theorem mem_partSigns {parts : List Expr} :
    sign ∈ partSigns parts ↔ ∃ e ∈ parts, sign ∈ e.signs := by
  induction parts with
  | nil => simp [partSigns]
  | cons e more ih => simp [partSigns, ih]

theorem mem_elementSigns {elements : List Element} :
    sign ∈ elementSigns elements ↔
      ∃ element ∈ elements, ∃ e, element = .item e ∧ sign ∈ e.signs := by
  induction elements with
  | nil => simp [elementSigns]
  | cons element more ih => cases element <;> simp [elementSigns, ih]

theorem mem_propertySigns {properties : List Property} :
    sign ∈ propertySigns properties ↔
      ∃ property ∈ properties, ∃ e, (∃ key, property = .entry key e) ∧ sign ∈ e.signs := by
  induction properties with
  | nil => simp [propertySigns]
  | cons property more ih =>
      simp only [List.mem_cons, exists_eq_or_imp, ← ih]
      cases property <;> simp [propertySigns]

/-- Some part whose place the scan enters is as given. -/
def AnyEntered (P : Node → Prop) (parts : List (Place × Node)) : Prop :=
  ∃ part ∈ parts, part.1.isScanned ∧ P part.2

variable {P : Node → Prop}

@[simp] theorem anyEntered_nil : ¬ AnyEntered P [] := by
  simp [AnyEntered]

@[simp] theorem anyEntered_cons {place : Place} {n : Node} {more : List (Place × Node)} :
    AnyEntered P ((place, n) :: more) ↔ (place.isScanned ∧ P n) ∨ AnyEntered P more := by
  simp [AnyEntered]

@[simp] theorem anyEntered_append {parts more : List (Place × Node)} :
    AnyEntered P (parts ++ more) ↔ AnyEntered P parts ∨ AnyEntered P more := by
  simp [AnyEntered, or_and_right, exists_or]

@[simp] theorem anyEntered_map {α : Type} {place : Place} {node : α → Node} {items : List α} :
    AnyEntered P (items.map fun item => (place, node item)) ↔
      place.isScanned ∧ ∃ item ∈ items, P (node item) := by
  induction items with
  | nil => simp
  | cons item more ih => simp [ih, and_or_left]

@[simp] theorem anyEntered_flatMap {α : Type} {parts : α → List (Place × Node)} {items : List α} :
    AnyEntered P (items.flatMap parts) ↔ ∃ item ∈ items, AnyEntered P (parts item) := by
  induction items with
  | nil => simp
  | cons item more ih => simp [ih]

@[simp] theorem not_anyEntered_key {key : Key} : ¬ AnyEntered P key.parts := by
  cases key <;> simp [Key.parts, Place.isScanned]

@[simp] theorem not_anyEntered_class {c : Class} : ¬ AnyEntered P c.parts := by
  cases c
  simp [Class.parts, Place.isScanned]

@[simp] theorem not_anyEntered_case {c : SwitchCase} : ¬ AnyEntered P c.parts := by
  cases c
  simp [SwitchCase.parts, Place.isScanned]

@[simp] theorem not_anyEntered_target {t : Target} : ¬ AnyEntered P t.parts := by
  cases t <;> simp [Target.parts, Place.isScanned]

@[simp] theorem not_anyEntered_pattern {p : Pattern} : ¬ AnyEntered P p.parts := by
  cases p <;> simp [Pattern.parts, Place.isScanned]

@[simp] theorem anyEntered_element {place : Place} {element : Element} :
    AnyEntered P (element.parts place) ↔
      place.isScanned ∧ ∃ e, element = .item e ∧ P (.value e) := by
  cases element <;> simp [Element.parts, Place.isScanned]

@[simp] theorem anyEntered_property {property : Property} :
    AnyEntered P property.parts ↔ ∃ e, (∃ key, property = .entry key e) ∧ P (.value e) := by
  cases property <;> simp [Property.parts, Place.isScanned]

@[simp] theorem anyEntered_declarator {declarator : Declarator} :
    AnyEntered P declarator.parts ↔ ∃ e, (∃ p, declarator = .mk p (some e)) ∧ P (.value e) := by
  obtain ⟨pattern, _ | value⟩ := declarator <;> simp [Declarator.parts, Place.isScanned]

theorem mem_declaratorSigns {declarator : Declarator} :
    sign ∈ declarator.signs ↔ ∃ e, (∃ p, declarator = .mk p (some e)) ∧ sign ∈ e.signs := by
  obtain ⟨pattern, _ | value⟩ := declarator <;> simp [Declarator.signs]

/-- The scan finds in a node what the node shows by itself, and what it finds in the parts whose
    places it enters. -/
theorem Node.mem_signs_step {n : Node} :
    sign ∈ n.signs ↔ sign ∈ n.ownSigns ∨ AnyEntered (sign ∈ ·.signs) n.parts := by
  cases n with
  | statement s =>
      cases s <;> simp [signs, ownSigns, parts, Stmt.signs, Stmt.ownSigns, Stmt.parts,
        Place.isScanned, mem_declaratorSigns]
  | value e =>
      cases e with
      | call callee arguments =>
          -- The scan reads the arguments before the callee.
          simp [signs, ownSigns, parts, Expr.signs, Expr.ownSigns, Expr.parts, Place.isScanned,
            mem_elementSigns, or_comm (a := sign ∈ callee.signs)]
      | _ =>
          simp [signs, ownSigns, parts, Expr.signs, Expr.ownSigns, Expr.parts, Place.isScanned,
            mem_partSigns, mem_elementSigns, mem_propertySigns]
  | target t => simp [signs, ownSigns, parts]
  | pattern p => simp [signs, ownSigns, parts]

/-! ## The whole scan -/

theorem sizeOf_item_lt {elements : List Element} {e : Expr} (h : .item e ∈ elements) :
    sizeOf e < sizeOf elements := by
  have hlt := List.sizeOf_lt_of_mem h
  rw [Element.item.sizeOf_spec] at hlt
  omega

theorem sizeOf_entry_lt {properties : List Property} {key : Key} {e : Expr}
    (h : .entry key e ∈ properties) : sizeOf e < sizeOf properties := by
  have hlt := List.sizeOf_lt_of_mem h
  rw [Property.entry.sizeOf_spec] at hlt
  omega

theorem sizeOf_initialValue_lt {declarators : List Declarator} {pattern : Pattern} {e : Expr}
    (h : .mk pattern (some e) ∈ declarators) : sizeOf e < sizeOf declarators := by
  have hlt := List.sizeOf_lt_of_mem h
  rw [Declarator.mk.sizeOf_spec, Option.some.sizeOf_spec] at hlt
  omega

/-- The parts that the scan enters are smaller than what they stand in. -/
theorem Node.not_anyEntered_larger {n : Node} :
    ¬ AnyEntered (fun m => sizeOf n ≤ sizeOf m) n.parts := by
  intro h
  cases n with
  | statement s =>
      cases s with
      | expression e =>
          simp only [parts, Stmt.parts, anyEntered_cons, anyEntered_nil, or_false,
            statement.sizeOf_spec, Stmt.expression.sizeOf_spec, value.sizeOf_spec] at h
          omega
      | variableList kind declarators =>
          simp only [parts, Stmt.parts, anyEntered_flatMap, anyEntered_declarator,
            statement.sizeOf_spec, Stmt.variableList.sizeOf_spec, value.sizeOf_spec] at h
          obtain ⟨_, hmem, e, ⟨pattern, rfl⟩, hle⟩ := h
          have hlt := sizeOf_initialValue_lt hmem
          omega
      | _ => simp [parts, Stmt.parts, Place.isScanned] at h
  | value e =>
      cases e with
      | assign operator target assigned =>
          simp only [parts, Expr.parts, anyEntered_cons, anyEntered_nil, or_false, Place.isScanned,
            Bool.false_eq_true, false_and, false_or, true_and, value.sizeOf_spec,
            Expr.assign.sizeOf_spec] at h
          omega
      | array elements =>
          simp only [parts, Expr.parts, anyEntered_flatMap, anyEntered_element, value.sizeOf_spec,
            Expr.array.sizeOf_spec] at h
          obtain ⟨_, hmem, -, e, rfl, hle⟩ := h
          have hlt := sizeOf_item_lt hmem
          omega
      | call callee arguments =>
          simp only [parts, Expr.parts, anyEntered_cons, anyEntered_flatMap, anyEntered_element,
            value.sizeOf_spec, Expr.call.sizeOf_spec] at h
          rcases h with ⟨-, hle⟩ | ⟨_, hmem, -, e, rfl, hle⟩
          · omega
          · have hlt := sizeOf_item_lt hmem
            omega
      | conditional test yes no =>
          simp only [parts, Expr.parts, List.map_cons, List.map_nil, anyEntered_cons, anyEntered_nil,
            or_false, value.sizeOf_spec, Expr.conditional.sizeOf_spec] at h
          omega
      | object properties =>
          simp only [parts, Expr.parts, anyEntered_flatMap, anyEntered_property, value.sizeOf_spec,
            Expr.object.sizeOf_spec] at h
          obtain ⟨_, hmem, e, ⟨key, rfl⟩, hle⟩ := h
          have hlt := sizeOf_entry_lt hmem
          omega
      | paren inner =>
          simp only [parts, Expr.parts, anyEntered_cons, anyEntered_nil, or_false, value.sizeOf_spec,
            Expr.paren.sizeOf_spec] at h
          omega
      | sequence parts =>
          simp only [Node.parts, Expr.parts, anyEntered_map, value.sizeOf_spec,
            Expr.sequence.sizeOf_spec] at h
          obtain ⟨-, e, hmem, hle⟩ := h
          have hlt := List.sizeOf_lt_of_mem hmem
          omega
      | _ => simp [parts, Expr.parts, Place.isScanned] at h
  | target t => exact not_anyEntered_target h
  | pattern p => exact not_anyEntered_pattern h

/-- **What the scan finds in a node**: what is shown by the nodes in it, and itself, that are reached
    through places that the scan enters. -/
theorem Node.mem_signs_iff {n : Node} :
    sign ∈ n.signs ↔
      ∃ path m, n.Holds path m ∧ (∀ place ∈ path, place.isScanned) ∧ sign ∈ m.ownSigns := by
  constructor
  · intro h
    rcases mem_signs_step.1 h with hown | ⟨⟨place, part⟩, hpart, hscanned, hsign⟩
    · exact ⟨[], n, .here n, by simp, hown⟩
    · have hsmaller : sizeOf part < sizeOf n :=
        Nat.lt_of_not_le fun hle => not_anyEntered_larger ⟨(place, part), hpart, hscanned, hle⟩
      obtain ⟨path, m, hholds, hpath, hown⟩ := mem_signs_iff.1 hsign
      exact ⟨place :: path, m, .inside hpart hholds, by simpa using ⟨hscanned, hpath⟩, hown⟩
  · rintro ⟨path, m, hholds, hpath, hown⟩
    induction hholds with
    | here n => exact mem_signs_step.2 (.inl hown)
    | inside hpart _ ih =>
        have ⟨hscanned, hpath⟩ := List.forall_mem_cons.1 hpath
        exact mem_signs_step.2 (.inr ⟨_, hpart, hscanned, ih hpath hown⟩)
termination_by sizeOf n

/-- Only expressions stand in the places that the scan enters. -/
theorem Node.not_anyEntered_other {n : Node} :
    ¬ AnyEntered (fun m => ∀ e, m ≠ .value e) n.parts := by
  cases n with
  | statement s => cases s <;> simp [parts, Stmt.parts, Place.isScanned]
  | value e => cases e <;> simp [parts, Expr.parts, Place.isScanned]
  | target t => simp [parts]
  | pattern p => simp [parts]

theorem Node.Holds.eq_or_value {n m : Node} {path : List Place} (h : n.Holds path m)
    (hpath : ∀ place ∈ path, place.isScanned) : m = n ∨ ∃ e, m = .value e := by
  induction h with
  | here n => exact .inl rfl
  | @inside p q r place path hpart _ ih =>
      have ⟨hscanned, hpath⟩ := List.forall_mem_cons.1 hpath
      rcases ih hpath with rfl | hvalue
      · refine .inr (Classical.byContradiction fun hother => ?_)
        exact not_anyEntered_other ⟨_, hpart, hscanned, fun e he => hother ⟨e, he⟩⟩
      · exact .inr hvalue

/-- **What the scan finds in a script**: imports and exports, and what is shown by the expressions
    that run with the script in places that the scan enters. -/
theorem mem_signs_iff {script : List Stmt} :
    sign ∈ signs script ↔
      (∃ s ∈ script, sign ∈ s.ownSigns) ∨
        ∃ path e, Runs script path e ∧ (∀ place ∈ path, place.isScanned) ∧ sign ∈ e.ownSigns := by
  have hstatement {s : Stmt} : sign ∈ s.signs ↔ sign ∈ (Node.statement s).signs := .rfl
  constructor
  · intro h
    obtain ⟨s, hs, hsign⟩ := List.mem_flatMap.1 h
    obtain ⟨path, m, hholds, hpath, hown⟩ := Node.mem_signs_iff.1 (hstatement.1 hsign)
    rcases hholds.eq_or_value hpath with rfl | ⟨e, rfl⟩
    · exact .inl ⟨s, hs, hown⟩
    · exact .inr ⟨path, e, ⟨s, hs, hholds⟩, hpath, hown⟩
  · rintro (⟨s, hs, hown⟩ | ⟨path, e, ⟨s, hs, hholds⟩, hpath, hown⟩)
    · exact List.mem_flatMap.2 ⟨s, hs, hstatement.2 (Node.mem_signs_step.2 (.inl hown))⟩
    · exact List.mem_flatMap.2
        ⟨s, hs, hstatement.2 (Node.mem_signs_iff.2 ⟨path, _, hholds, hpath, hown⟩)⟩

end

end TypingsAudit.Script
