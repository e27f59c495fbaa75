import TypingsAudit.Proofs.Script.CommonJs
import TypingsAudit.Proofs.Script.Sums

set_option autoImplicit false

/-! # The names that are set on the object of exports

The scan for signs of a module visits the expressions of `Visited`: a least set with one closure rule
for each place that the scan enters. What it reads off a visited expression is one of two forms, the
setting of a property of the object of exports (`Expr.SetsProperty`) and the setting of
`module.exports` to a value (`Expr.SetsModuleExports`).

`ModuleSyntax.commonJs_iff_visited` says that the names and flags of `CommonJsExports` are exactly what
the visited expressions of these forms give. -/

namespace TypingsAudit

namespace Script

/-! ## Visited expressions -/

/-- The value that a property has, unless it is spread from an object. -/
def Property.value? : Property → Option Expr
  | .entry _ value => some value
  | .shorthand text _ => some (.name text)
  | .spread _ => none

/-- The expressions of a script that the scan visits. The statements are those of the script itself:
    what an export declares or exports is not visited. -/
inductive Visited (script : List Stmt) : Expr → Prop
  | statement {e : Expr} (h : .expression e ∈ script) : Visited script e
  | initialValue {kind : VariableKind} {declarators : List Declarator} {pattern : Pattern} {e : Expr}
      (h : .variableList kind declarators ∈ script) (hmem : .mk pattern (some e) ∈ declarators) :
      Visited script e
  | assignedValue {operator : String} {target : Target} {value : Expr}
      (h : Visited script (.assign operator target value)) : Visited script value
  | callee {callee : Expr} {arguments : List Element} (h : Visited script (.call callee arguments)) :
      Visited script callee
  | argument {callee : Expr} {arguments : List Element} {e : Expr}
      (h : Visited script (.call callee arguments)) (hmem : .item e ∈ arguments) : Visited script e
  | sequencePart {parts : List Expr} {e : Expr} (h : Visited script (.sequence parts))
      (hmem : e ∈ parts) : Visited script e
  | arrayItem {elements : List Element} {e : Expr} (h : Visited script (.array elements))
      (hmem : .item e ∈ elements) : Visited script e
  | propertyValue {properties : List Property} {property : Property} {e : Expr}
      (h : Visited script (.object properties)) (hmem : property ∈ properties)
      (hvalue : property.value? = some e) : Visited script e
  | test {test yes no : Expr} (h : Visited script (.conditional test yes no)) : Visited script test
  | yes {test yes no : Expr} (h : Visited script (.conditional test yes no)) : Visited script yes
  | no {test yes no : Expr} (h : Visited script (.conditional test yes no)) : Visited script no
  | parentheses {inner : Expr} (h : Visited script (.paren inner)) : Visited script inner

variable {script : List Stmt} {sign : Sign}

/-- What a visited expression shows is found in the script. -/
theorem Visited.mem_signs {e : Expr} (h : Visited script e) (hsign : sign ∈ e.signs) :
    sign ∈ signs script := by
  induction h with
  | statement h => exact List.mem_flatMap.2 ⟨_, h, hsign⟩
  | initialValue h hmem =>
      exact List.mem_flatMap.2 ⟨_, h, List.mem_flatMap.2 ⟨_, hmem, hsign⟩⟩
  | assignedValue _ ih => exact ih (by simp [Expr.signs, hsign])
  | callee _ ih => exact ih (by simp [Expr.signs, hsign])
  | argument _ hmem ih =>
      have hfound := mem_elementSigns.2 ⟨_, hmem, _, rfl, hsign⟩
      exact ih (by simp [Expr.signs, hfound])
  | sequencePart _ hmem ih => exact ih (mem_partSigns.2 ⟨_, hmem, hsign⟩)
  | arrayItem _ hmem ih => exact ih (mem_elementSigns.2 ⟨_, hmem, _, rfl, hsign⟩)
  | @propertyValue properties property e _ hmem hvalue ih =>
      cases property with
      | entry key value =>
          obtain rfl := Option.some.inj hvalue
          exact ih (mem_propertySigns.2 ⟨_, hmem, _, ⟨key, rfl⟩, hsign⟩)
      | shorthand text fallback =>
          -- The value of a shorthand property is a name, which shows nothing.
          obtain rfl := Option.some.inj hvalue
          exact absurd hsign List.not_mem_nil
      | spread e => exact absurd hvalue (by simp [Property.value?])
  | test _ ih => exact ih (by simp [Expr.signs, hsign])
  | yes _ ih => exact ih (by simp [Expr.signs, hsign])
  | no _ ih => exact ih (by simp [Expr.signs, hsign])
  | parentheses _ ih => exact ih hsign

/-- The node is a statement of the script or a visited expression. -/
def Node.Reached (script : List Stmt) : Node → Prop
  | .statement s => s ∈ script
  | .value e => Visited script e
  | _ => False

@[simp] theorem Node.reached_statement {s : Stmt} :
    (Node.statement s).Reached script ↔ s ∈ script :=
  .rfl

@[simp] theorem Node.reached_value {e : Expr} : (Node.value e).Reached script ↔ Visited script e :=
  .rfl

/-- What stands in a place that the scan enters is reached with what is around it. -/
theorem Node.Reached.step {n : Node} (h : n.Reached script) :
    ¬ AnyEntered (fun m => ¬ m.Reached script) n.parts := by
  cases n with
  | statement s =>
      cases s with
      | expression e => simpa [parts, Stmt.parts, Place.isScanned] using Visited.statement h
      | variableList kind declarators =>
          simp only [parts, Stmt.parts, anyEntered_flatMap, anyEntered_declarator]
          rintro ⟨_, hmem, e, ⟨pattern, rfl⟩, hnot⟩
          exact hnot (.initialValue h hmem)
      | _ => simp [parts, Stmt.parts, Place.isScanned]
  | value e =>
      cases e with
      | assign operator target value =>
          simpa [parts, Expr.parts, Place.isScanned] using Visited.assignedValue h
      | call callee arguments =>
          simp only [parts, Expr.parts, anyEntered_cons, anyEntered_flatMap, anyEntered_element]
          rintro (⟨-, hnot⟩ | ⟨_, hmem, -, e, rfl, hnot⟩)
          · exact hnot (.callee h)
          · exact hnot (.argument h hmem)
      | sequence parts =>
          simp only [Node.parts, Expr.parts, anyEntered_map]
          rintro ⟨-, e, hmem, hnot⟩
          exact hnot (.sequencePart h hmem)
      | array elements =>
          simp only [parts, Expr.parts, anyEntered_flatMap, anyEntered_element]
          rintro ⟨_, hmem, -, e, rfl, hnot⟩
          exact hnot (.arrayItem h hmem)
      | object properties =>
          simp only [parts, Expr.parts, anyEntered_flatMap, anyEntered_property]
          rintro ⟨_, hmem, e, ⟨key, rfl⟩, hnot⟩
          exact hnot (.propertyValue h hmem rfl)
      | conditional test yes no =>
          simpa [parts, Expr.parts, Place.isScanned] using
            ⟨Visited.test h, Visited.yes h, Visited.no h⟩
      | paren inner => simpa [parts, Expr.parts, Place.isScanned] using Visited.parentheses h
      | _ => simp [parts, Expr.parts, Place.isScanned]
  | target t => exact h.elim
  | pattern p => exact h.elim

theorem Node.Reached.of_holds {n m : Node} {path : List Place} (h : n.Reached script)
    (hholds : n.Holds path m) (hpath : ∀ place ∈ path, place.isScanned) : m.Reached script := by
  induction hholds with
  | here n => exact h
  | inside hpart _ ih =>
      have ⟨hscanned, hpath⟩ := List.forall_mem_cons.1 hpath
      refine ih (Classical.byContradiction fun hnot => ?_) hpath
      exact h.step ⟨_, hpart, hscanned, hnot⟩

/-- **The signs of CommonJS in a script are what the visited expressions show by themselves.** -/
theorem mem_signs_iff_visited (hsign : sign.isEsm = false) :
    sign ∈ signs script ↔ ∃ e, Visited script e ∧ sign ∈ e.ownSigns := by
  constructor
  · intro h
    rcases mem_signs_iff.1 h with ⟨s, -, hown⟩ | ⟨path, e, ⟨s, hs, hholds⟩, hpath, hown⟩
    · rw [Stmt.isEsm_of_mem_ownSigns _ hown] at hsign
      contradiction
    · exact ⟨e, (Node.reached_statement.2 hs).of_holds hholds hpath, hown⟩
  · rintro ⟨e, hvisited, hown⟩
    exact hvisited.mem_signs (Node.mem_signs_step (n := .value e) |>.2 (.inl hown))

/-! ## The two forms -/

/-- The expression sets a property of the object of exports by a name that is written out. -/
inductive Expr.SetsProperty : Expr → String → Prop
  | member {operator name : String} {base value : Expr} (h : base.isExports) :
      SetsProperty (.assign operator (.member base name) value) name
  | index {operator name : String} {base value : Expr} (h : base.isExports) :
      SetsProperty (.assign operator (.index base (.string name)) value) name
  /-- `Object.defineProperty(exports, "name", e)` -/
  | definesProperty {base : Expr} {name : String} {more : List Element} (h : base.isExports) :
      SetsProperty (.call (.member (.name "Object") "defineProperty")
        (.item base :: .item (.string name) :: more)) name

/-- The name a property has whatever is computed in the object. -/
def Property.staticName? : Property → Option String
  | .entry key _ => key.staticName?
  | .shorthand text _ => some text
  | .spread _ => none

/-- The expression gives the name to a value that the module exports. -/
inductive Expr.GivesName : Expr → String → Prop
  | property {e : Expr} {name : String} (h : e.SetsProperty name) (hname : name ≠ markerName) :
      GivesName e name
  /-- `module.exports = { name: e }` -/
  | key {operator name : String} {target : Target} {properties : List Property} {property : Property}
      (htarget : target.IsModuleExports) (hmem : property ∈ properties)
      (hname : property.staticName? = some name) :
      GivesName (.assign operator target (.object properties)) name

/-- The expression sets `module.exports` to a value whose names cannot all be seen. -/
inductive Expr.HidesNames : Expr → Prop
  | value {operator : String} {target : Target} {value : Expr} (htarget : target.IsModuleExports)
      (hvalue : ∀ properties, value ≠ .object properties) : HidesNames (.assign operator target value)
  | property {operator : String} {target : Target} {properties : List Property} {property : Property}
      (htarget : target.IsModuleExports) (hmem : property ∈ properties)
      (hname : property.staticName? = none) :
      HidesNames (.assign operator target (.object properties))

/-! ## What the forms show -/

theorem Expr.isExports_iff {e : Expr} :
    e.isExports ↔ e = .name "exports" ∨ e = .member (.name "module") "exports" := by
  rw [isExports, Bool.or_eq_true, isName_iff, isModuleExports_iff]

theorem Expr.SetsProperty.ownSigns_eq {e : Expr} {name : String} (h : e.SetsProperty name) :
    e.ownSigns = [.usesExports, .setting name] := by
  cases h with
  | member h =>
      rcases isExports_iff.1 h with rfl | rfl <;>
        simp [ownSigns, Target.signs, Target.member?, isExports, isName, isModuleExports]
  | index h =>
      rcases isExports_iff.1 h with rfl | rfl <;>
        simp [ownSigns, Target.signs, Target.member?, isExports, isName, isModuleExports]
  | definesProperty h =>
      rcases isExports_iff.1 h with rfl | rfl <;>
        simp [ownSigns, callSigns, isDefineProperty, isExports, isName, isModuleExports]

theorem Expr.ownSigns_of_isModuleExports {operator : String} {target : Target} {value : Expr}
    (h : target.IsModuleExports) :
    (Expr.assign operator target value).ownSigns =
      .usesExports :: .setsExports :: value.exportSigns := by
  rcases Target.signs_cases target value with ⟨-, hsigns⟩ | ⟨hnot, -⟩ | ⟨hnot, -⟩
  · exact hsigns
  · exact absurd h hnot
  · exact absurd h hnot

/-- An expression of neither form shows at most that it loads a module or uses the object of
    exports. -/
theorem Expr.forms (e : Expr) :
    (∃ operator target value, e = .assign operator target value ∧ target.IsModuleExports) ∨
    (∃ name, e.SetsProperty name) ∨
    ∀ sign ∈ e.ownSigns, sign = .requires ∨ sign = .usesExports := by
  cases e with
  | assign operator target value =>
      rcases Target.signs_cases target value with ⟨h, -⟩ | ⟨-, hproperty, -⟩ | ⟨-, -, hsigns⟩
      · exact .inl ⟨operator, target, value, rfl, h⟩
      · cases hproperty with
        | member h => exact .inr (.inl ⟨_, .member h⟩)
        | @index base key h =>
            cases key with
            | string name => exact .inr (.inl ⟨name, .index h⟩)
            | _ =>
                -- A computed name is not known.
                refine .inr (.inr ?_)
                simp [ownSigns, Target.signs, Target.member?, h]
      · exact .inr (.inr (by simp [ownSigns, hsigns]))
  | call callee arguments =>
      rcases callSigns_cases callee arguments with ⟨-, hsigns⟩ |
        ⟨base, name, more, rfl, hbase, rfl, -⟩ | ⟨-, -, hsigns⟩
      · exact .inr (.inr (by simp [ownSigns, hsigns]))
      · exact .inr (.inl ⟨name, .definesProperty hbase⟩)
      · exact .inr (.inr (by simp [ownSigns, hsigns]))
  | member base text =>
      refine .inr (.inr ?_)
      rw [ownSigns, signs]
      split <;> simp
  | _ => exact .inr (.inr (by simp [ownSigns]))

/-- What an expression shows by itself comes from one of the two forms, apart from a module that is
    loaded and the use of the object of exports. -/
theorem Expr.mem_ownSigns_cases {e : Expr} (h : sign ∈ e.ownSigns) :
    sign = .requires ∨ sign = .usesExports ∨ (∃ name, e.SetsProperty name ∧ sign = .setting name) ∨
    ∃ operator target value, e = .assign operator target value ∧ target.IsModuleExports ∧
      (sign = .setsExports ∨ sign ∈ value.exportSigns) := by
  rcases e.forms with ⟨operator, target, value, rfl, htarget⟩ | ⟨name, hsets⟩ | hother
  · rw [ownSigns_of_isModuleExports htarget, List.mem_cons, List.mem_cons] at h
    rcases h with h | h
    · exact .inr (.inl h)
    · exact .inr (.inr (.inr ⟨operator, target, value, rfl, htarget, h⟩))
  · rw [hsets.ownSigns_eq, List.mem_cons, List.mem_singleton] at h
    rcases h with h | h
    · exact .inr (.inl h)
    · exact .inr (.inr (.inl ⟨name, hsets, h⟩))
  · rcases hother sign h with h | h
    · exact .inl h
    · exact .inr (.inl h)

/-- Nothing is set without a use of the object of exports. -/
theorem Expr.usesExports_mem_ownSigns {e : Expr} (h : sign ∈ e.ownSigns)
    (hother : sign ≠ .requires) : .usesExports ∈ e.ownSigns := by
  rcases mem_ownSigns_cases h with h | rfl | ⟨name, hsets, -⟩ |
    ⟨operator, target, value, rfl, htarget, -⟩
  · exact absurd h hother
  · exact h
  · simp [hsets.ownSigns_eq]
  · simp [ownSigns_of_isModuleExports htarget]

theorem Sign.setting_eq_setsName_iff {name other : String} :
    setting other = .setsName name ↔ other = name ∧ name ≠ markerName := by
  unfold setting
  split
  · next h => exact iff_of_false (by simp) fun hname => hname.2 (hname.1 ▸ h)
  · next h =>
    rw [setsName.injEq]
    exact ⟨fun hname => ⟨hname, hname ▸ h⟩, And.left⟩

theorem Sign.setting_eq_setsMarker_iff {name : String} :
    setting name = .setsMarker ↔ name = markerName := by
  unfold setting
  split <;> simp [*]

theorem Property.exportSign_eq (property : Property) :
    property.exportSign =
      match property.staticName? with
      | some name => .setsName name
      | none => .setsUnknown := by
  cases property <;> rfl

theorem Expr.setsName_mem_exportSigns_iff {value : Expr} {name : String} :
    .setsName name ∈ value.exportSigns ↔
      ∃ properties, value = .object properties ∧
        ∃ property ∈ properties, property.staticName? = some name := by
  have hsign (property : Property) :
      property.exportSign = .setsName name ↔ property.staticName? = some name := by
    rw [Property.exportSign_eq]
    cases property.staticName? <;> simp
  cases value <;> simp [exportSigns, hsign]

theorem Expr.setsUnknown_mem_exportSigns_iff {value : Expr} :
    .setsUnknown ∈ value.exportSigns ↔
      (∀ properties, value ≠ .object properties) ∨
      ∃ properties, value = .object properties ∧
        ∃ property ∈ properties, property.staticName? = none := by
  have hsign (property : Property) :
      property.exportSign = .setsUnknown ↔ property.staticName? = none := by
    rw [Property.exportSign_eq]
    cases property.staticName? <;> simp
  cases value <;> simp [exportSigns, hsign]

theorem Expr.givesName_iff {e : Expr} {name : String} :
    e.GivesName name ↔ .setsName name ∈ e.ownSigns := by
  constructor
  · intro h
    cases h with
    | property h hname => simp [h.ownSigns_eq, Sign.setting, hname]
    | key htarget hmem hname =>
        have hsign := setsName_mem_exportSigns_iff.2 ⟨_, rfl, _, hmem, hname⟩
        simp [ownSigns_of_isModuleExports htarget, hsign]
  · intro h
    rcases mem_ownSigns_cases h with h | h | ⟨other, hsets, h⟩ |
      ⟨operator, target, value, rfl, htarget, h | h⟩
    · cases h
    · cases h
    · obtain ⟨rfl, hname⟩ := Sign.setting_eq_setsName_iff.1 h.symm
      exact .property hsets hname
    · cases h
    · obtain ⟨properties, rfl, property, hmem, hname⟩ := setsName_mem_exportSigns_iff.1 h
      exact .key htarget hmem hname

theorem Expr.hidesNames_iff {e : Expr} : e.HidesNames ↔ .setsUnknown ∈ e.ownSigns := by
  constructor
  · intro h
    cases h with
    | value htarget hvalue =>
        have hsign := setsUnknown_mem_exportSigns_iff.2 (.inl hvalue)
        simp [ownSigns_of_isModuleExports htarget, hsign]
    | property htarget hmem hname =>
        have hsign := setsUnknown_mem_exportSigns_iff.2 (.inr ⟨_, rfl, _, hmem, hname⟩)
        simp [ownSigns_of_isModuleExports htarget, hsign]
  · intro h
    rcases mem_ownSigns_cases h with h | h | ⟨name, -, h⟩ |
      ⟨operator, target, value, rfl, htarget, h | h⟩
    · cases h
    · cases h
    · rcases Sign.setting_cases name with hname | ⟨_, hname⟩ <;> cases h.trans hname
    · cases h
    · rcases setsUnknown_mem_exportSigns_iff.1 h with hvalue |
        ⟨properties, rfl, property, hmem, hname⟩
      · exact .value htarget hvalue
      · exact .property htarget hmem hname

theorem Expr.setsMarker_iff {e : Expr} : e.SetsProperty markerName ↔ .setsMarker ∈ e.ownSigns := by
  constructor
  · intro h
    simp [h.ownSigns_eq, Sign.setting]
  · intro h
    rcases mem_ownSigns_cases h with h | h | ⟨name, hsets, h⟩ |
      ⟨operator, target, value, rfl, htarget, h | h⟩
    · cases h
    · cases h
    · exact Sign.setting_eq_setsMarker_iff.1 h.symm ▸ hsets
    · cases h
    · rcases eq_of_mem_exportSigns h with ⟨_, h⟩ | h <;> cases h

end Script

namespace ModuleSyntax

open Script

variable {path source : String} {script : List Stmt}

/-- A script is a module of some style where something is set on the object of exports. -/
theorem kindOf_of_mem {sign : Sign} (h : sign ∈ signs script) (hsign : sign.isEsm = false)
    (hother : sign ≠ .requires) :
    kindOf (signs script) = .esm ∨ kindOf (signs script) = .cjs := by
  obtain ⟨e, hvisited, hown⟩ := (mem_signs_iff_visited hsign).1 h
  exact kindOf_of_usesExports
    ((mem_signs_iff_visited rfl).2 ⟨e, hvisited, Expr.usesExports_mem_ownSigns hown hother⟩)

/-- **What a script is found to set on its object of exports**: the names and the flags are those that
    visited expressions give. A script with one of them is never taken for one of no style. What is
    found depends on which statements stand in the script, and not on their order. -/
theorem commonJs_iff_visited (hparse : parse? (dialect path) source = some script) :
    let found := ofSource path source
    (∀ name, name ∈ found.commonJs.names ↔ ∃ e, Visited script e ∧ e.GivesName name) ∧
    (found.commonJs.setsExports = true ↔ ∃ e, Visited script e ∧ e.SetsModuleExports) ∧
    (found.commonJs.hasUnknown = true ↔ ∃ e, Visited script e ∧ e.HidesNames) ∧
    (found.commonJs.hasMarker = true ↔ ∃ e, Visited script e ∧ e.SetsProperty markerName) ∧
    (found.commonJs.names ≠ [] ∨ found.commonJs.setsExports = true ∨
        found.commonJs.hasUnknown = true ∨ found.commonJs.hasMarker = true →
      found.kind = .esm ∨ found.kind = .cjs) ∧
    ∀ source' script', parse? (dialect path) source' = some script' →
      (∀ s, s ∈ script' ↔ s ∈ script) → ofSource path source' = found := by
  intro found
  have hfound : found = ofSigns (signs script) := ofSource_eq hparse
  rw [hfound]
  refine ⟨fun name => ?_, ?_, ?_, ?_, ?_, fun source' script' hparse' hsame => ?_⟩
  · rw [mem_names_ofSigns, mem_signs_iff_visited rfl]
    simp only [Expr.givesName_iff]
  · show decide (.setsExports ∈ signs script) = true ↔ _
    rw [decide_eq_true_iff, mem_signs_iff_visited rfl]
    simp only [Expr.setsModuleExports_iff]
  · show decide (.setsUnknown ∈ signs script) = true ↔ _
    rw [decide_eq_true_iff, mem_signs_iff_visited rfl]
    simp only [Expr.hidesNames_iff]
  · show decide (.setsMarker ∈ signs script) = true ↔ _
    rw [decide_eq_true_iff, mem_signs_iff_visited rfl]
    simp only [Expr.setsMarker_iff]
  · rintro (h | h | h | h)
    · obtain ⟨name, h⟩ := List.exists_mem_of_ne_nil _ h
      exact kindOf_of_mem (mem_names_ofSigns.1 h) rfl (by simp)
    · exact kindOf_of_mem (of_decide_eq_true h) rfl (by simp)
    · exact kindOf_of_mem (of_decide_eq_true h) rfl (by simp)
    · exact kindOf_of_mem (of_decide_eq_true h) rfl (by simp)
  · rw [ofSource_eq hparse']
    refine ofSigns_congr fun sign => ?_
    simp only [signs, List.mem_flatMap, hsame]

/-- A script that sets a name in a sequence, another one by a value in one branch of an argument, and
    the marker by a call. -/
theorem nested_settings_found :
    let source := "exports.a = (exports['b'] = 0, c); f(g ? (module.exports = \x7b d \x7d) : h);
      Object.defineProperty(exports, '__esModule', i);"
    ∃ script, parse? (dialect "index.js") source = some script ∧
      (∀ name ∈ ["a", "b", "d"], ∃ e, Visited script e ∧ e.GivesName name) ∧
      (∃ e, Visited script e ∧ e.SetsModuleExports) ∧
      (¬ ∃ e, Visited script e ∧ e.HidesNames) ∧
      (∃ e, Visited script e ∧ e.SetsProperty markerName) ∧
      ((ofSource "index.js" source).kind = .esm ∨ (ofSource "index.js" source).kind = .cjs) := by
  intro source
  have hread : (parse? (dialect "index.js") source).any (fun script =>
      ["a", "b", "d"].all (fun name => decide (.setsName name ∈ signs script)) &&
      decide (.setsExports ∈ signs script) && decide (.setsUnknown ∉ signs script) &&
      decide (.setsMarker ∈ signs script)) = true := by
    decide +kernel
  obtain ⟨script, hparse, h⟩ := (Option.any_eq_true _ _).1 hread
  simp only [Bool.and_eq_true, List.all_eq_true, decide_eq_true_iff] at h
  obtain ⟨⟨⟨hset, hwhole⟩, hseen⟩, hmarked⟩ := h
  obtain ⟨hnames, hexports, hunknown, hmarker, hkind, -⟩ := commonJs_iff_visited hparse
  rw [ofSource_eq hparse] at hnames hexports hunknown hmarker hkind ⊢
  have hwhole := decide_eq_true hwhole
  exact ⟨script, hparse, fun name hname => (hnames name).1 (mem_names_ofSigns.2 (hset name hname)),
    hexports.1 hwhole, fun h => hseen (of_decide_eq_true (hunknown.2 h)),
    hmarker.1 (decide_eq_true hmarked), hkind (.inr (.inl hwhole))⟩

end ModuleSyntax

end TypingsAudit
