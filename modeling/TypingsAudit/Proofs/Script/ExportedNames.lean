import TypingsAudit.Proofs.Script.CommonJs
import TypingsAudit.Proofs.Script.Sums

set_option autoImplicit false

/-! # Which names a script is found to export

A statement exports a name in one of several forms (`Stmt.Exports`). The names that are found are those
of every form but one, for patterns are not looked into; and a default export counts even when it is an
interface and has no value. So the names found are the values exported where neither of the two
occurs. -/

namespace TypingsAudit

namespace Script

/-! ## Exports -/

/-- A pattern binds a name: the name stands in it, at any depth, through patterns alone. -/
def Pattern.Binds (p : Pattern) (text : String) : Prop :=
  ∃ path, (Node.pattern p).Holds path (.pattern (.name text)) ∧ ∀ place ∈ path, place = .pattern

/-- How a name is exported. -/
inductive ExportForm where
  /-- As the default, with a value. -/
  | default
  /-- As the default, without a value. -/
  | defaultType
  /-- As an object of the exports of another module. -/
  | starAs
  /-- By a list of names. -/
  | listed
  /-- By the declaration of a variable, a function, a class, an enumeration or a namespace. -/
  | declared
  /-- By a pattern that takes the value of a variable apart. -/
  | destructured
  deriving DecidableEq, Repr

/-- A statement exports a name. Names that stand for types alone are exported in no form, but for
    the default. -/
inductive Stmt.Exports : Stmt → ExportForm → String → Prop
  | default {value : Expr} : Exports (.exportDefault (some value)) .default "default"
  | defaultType : Exports (.exportDefault none) .defaultType "default"
  | starAs {name : String} : Exports (.exportAll false (some name)) .starAs name
  | listed {specifiers : List ExportSpecifier} {specifier : ExportSpecifier}
      (hmem : specifier ∈ specifiers) (hvalue : specifier.typeOnly = false) :
      Exports (.exportList false specifiers) .listed specifier.exported
  | variableName {kind : VariableKind} {declarators : List Declarator} {name : String}
      {value : Option Expr} (hmem : .mk (.name name) value ∈ declarators) :
      Exports (.exportDeclaration (.variableList kind declarators)) .declared name
  | destructured {kind : VariableKind} {declarators : List Declarator} {pattern : Pattern}
      {value : Option Expr} {name : String} (hmem : .mk pattern value ∈ declarators)
      (hpattern : ∀ text, pattern ≠ .name text) (hbinds : pattern.Binds name) :
      Exports (.exportDeclaration (.variableList kind declarators)) .destructured name
  | functionDeclaration {name : String} {f : Function} :
      Exports (.exportDeclaration (.functionDeclaration (some name) f)) .declared name
  | classDeclaration {name : String} {base : Option Expr} {members : List ClassMember} :
      Exports (.exportDeclaration (.classDeclaration (.mk (some name) base members))) .declared name
  | enumeration {name : String} {values : List Expr} :
      Exports (.exportDeclaration (.enumeration name values)) .declared name
  | namespaceBlock {name : String} {body : List Stmt} :
      Exports (.exportDeclaration (.namespaceBlock name body)) .declared name

/-! ## Exports by patterns and of types -/

/-- Whether the node is a pattern that is just a name. -/
def Node.isPatternName (text : String) : Node → Bool
  | .pattern (.name other) => other == text
  | _ => false

/-- Look for a name in a pattern, at most so deep. -/
def Pattern.binds (text : String) (depth : Nat) (p : Pattern) : Bool :=
  (Node.pattern p).holdsSome (· = .pattern) (Node.isPatternName text) depth

theorem Pattern.binds_of_binds {text : String} {depth : Nat} {p : Pattern}
    (h : p.binds text depth) : p.Binds text := by
  obtain ⟨path, m, hholds, hpath, hm⟩ := Node.exists_of_holdsSome h
  have hname : m = .pattern (.name text) := by
    unfold Node.isPatternName at hm
    split at hm
    · rw [eq_of_beq hm]
    · exact absurd hm Bool.false_ne_true
  exact ⟨path, hname ▸ hholds, fun place hplace => of_decide_eq_true (hpath place hplace)⟩

/-- The pattern of a variable that takes its value apart. -/
def Declarator.pattern? : Declarator → Option Pattern
  | .mk (.name _) _ => none
  | .mk pattern _ => some pattern

theorem Declarator.pattern?_eq_some_iff {declarator : Declarator} {pattern : Pattern} :
    declarator.pattern? = some pattern ↔
      (∃ value, declarator = .mk pattern value) ∧ ∀ text, pattern ≠ .name text := by
  obtain ⟨own, value⟩ := declarator
  constructor
  · intro h
    cases own with
    | name text => exact absurd h (by simp [pattern?])
    | _ =>
        obtain rfl := Option.some.inj h
        exact ⟨⟨value, rfl⟩, fun text h => by cases h⟩
  · rintro ⟨⟨_, h⟩, hpattern⟩
    obtain ⟨rfl, -⟩ := Declarator.mk.inj h
    cases own with
    | name text => exact absurd rfl (hpattern text)
    | _ => rfl

/-- The patterns by which a statement exports. -/
def Stmt.exportedPatterns : Stmt → List Pattern
  | .exportDeclaration (.variableList _ declarators) => declarators.filterMap Declarator.pattern?
  | _ => []

theorem Stmt.exports_destructured_iff {s : Stmt} {name : String} :
    s.Exports .destructured name ↔ ∃ pattern ∈ s.exportedPatterns, pattern.Binds name := by
  constructor
  · intro h
    cases h with
    | destructured hmem hpattern hbinds =>
        refine ⟨_, List.mem_filterMap.2 ⟨_, hmem, ?_⟩, hbinds⟩
        exact Declarator.pattern?_eq_some_iff.2 ⟨⟨_, rfl⟩, hpattern⟩
  · rintro ⟨pattern, hmem, hbinds⟩
    unfold exportedPatterns at hmem
    split at hmem
    · obtain ⟨_, hmem, hfound⟩ := List.mem_filterMap.1 hmem
      obtain ⟨⟨value, rfl⟩, hpattern⟩ := Declarator.pattern?_eq_some_iff.1 hfound
      exact .destructured hmem hpattern hbinds
    · exact absurd hmem List.not_mem_nil

/-- Whether the statement exports a type as the default. -/
def Stmt.isDefaultType : Stmt → Bool
  | .exportDefault none => true
  | _ => false

theorem Stmt.isDefaultType_iff {s : Stmt} : s.isDefaultType ↔ s = .exportDefault none := by
  cases s with
  | exportDefault value => cases value <;> simp [isDefaultType]
  | _ => simp [isDefaultType]

/-! ## The signs of an export -/

theorem Declarator.name?_eq_some_iff {declarator : Declarator} {name : String} :
    declarator.name? = some name ↔ ∃ value, declarator = .mk (.name name) value := by
  obtain ⟨pattern, value⟩ := declarator
  cases pattern <;> simp [name?]

theorem Stmt.mem_declaredNames_iff {declaration : Stmt} {name : String} :
    name ∈ declaration.declaredNames ↔ (Stmt.exportDeclaration declaration).Exports .declared name := by
  constructor
  · intro h
    cases declaration with
    | variableList kind declarators =>
        obtain ⟨declarator, hmem, hname⟩ := List.mem_filterMap.1 h
        obtain ⟨value, rfl⟩ := Declarator.name?_eq_some_iff.1 hname
        exact .variableName hmem
    | functionDeclaration other f =>
        obtain rfl := Option.mem_toList.1 h
        exact .functionDeclaration
    | classDeclaration c =>
        obtain ⟨other, base, members⟩ := c
        obtain rfl := Option.mem_toList.1 h
        exact .classDeclaration
    | enumeration other values =>
        obtain rfl := List.mem_singleton.1 h
        exact .enumeration
    | namespaceBlock other body =>
        obtain rfl := List.mem_singleton.1 h
        exact .namespaceBlock
    | _ => exact absurd h List.not_mem_nil
  · intro h
    cases h with
    | variableName hmem =>
        exact List.mem_filterMap.2 ⟨_, hmem, Declarator.name?_eq_some_iff.2 ⟨_, rfl⟩⟩
    | functionDeclaration => exact .head _
    | classDeclaration => exact .head _
    | enumeration => exact .head _
    | namespaceBlock => exact .head _

/-- A statement shows the names that it exports in any form but by a pattern. -/
theorem Stmt.exported_mem_ownSigns_iff {s : Stmt} {name : String} :
    .exported name ∈ s.ownSigns ↔ ∃ form, s.Exports form name ∧ form ≠ .destructured := by
  cases s with
  | exportDefault value =>
      constructor
      · intro h
        obtain rfl : name = "default" := by simpa [ownSigns, signs] using h
        cases value with
        | none => exact ⟨_, .defaultType, by decide⟩
        | some value => exact ⟨_, .default, by decide⟩
      · rintro ⟨form, h, -⟩
        cases h <;> exact .tail _ (.head _)
  | exportAll typeOnly other =>
      constructor
      · intro h
        cases typeOnly with
        | true => simp [ownSigns, signs] at h
        | false =>
            cases other with
            | none => simp [ownSigns, signs] at h
            | some other =>
                obtain rfl : name = other := by simpa [ownSigns, signs] using h
                exact ⟨_, .starAs, by decide⟩
      · rintro ⟨form, h, -⟩
        cases h
        exact .tail _ (.head _)
  | exportList typeOnly specifiers =>
      constructor
      · intro h
        cases typeOnly with
        | true => simp [ownSigns, signs] at h
        | false =>
            have hlisted : ∃ specifier ∈ specifiers,
                specifier.typeOnly = false ∧ specifier.exported = name := by
              simpa [ownSigns, signs, and_assoc] using h
            obtain ⟨specifier, hmem, hvalue, rfl⟩ := hlisted
            exact ⟨_, .listed hmem hvalue, by decide⟩
      · rintro ⟨form, h, -⟩
        cases h with
        | listed hmem hvalue =>
            exact .tail _ (List.mem_map.2 ⟨_, List.mem_filter.2 ⟨hmem, by simp [hvalue]⟩, rfl⟩)
  | exportDeclaration declaration =>
      have hsign : .exported name ∈ (exportDeclaration declaration).ownSigns ↔
          name ∈ declaration.declaredNames := by simp [ownSigns, signs]
      rw [hsign, mem_declaredNames_iff]
      constructor
      · intro h
        exact ⟨_, h, by decide⟩
      · rintro ⟨form, h, hform⟩
        cases form with
        | declared => exact h
        | destructured => exact absurd rfl hform
        | _ => cases h
  | _ =>
      refine iff_of_false (by simp [ownSigns, signs]) ?_
      rintro ⟨form, h, -⟩
      cases h

instance {s : Stmt} {name : String} :
    Decidable (∃ form, s.Exports form name ∧ form ≠ .destructured) :=
  decidable_of_iff _ Stmt.exported_mem_ownSigns_iff

end Script

namespace ModuleSyntax

open Script

variable {path source : String} {script : List Stmt}

/-- **Which names are found to be exported**: those that some statement exports in any form but by a
    pattern. Where no statement exports by a pattern, or an interface as the default, they are the
    names under which values are exported. -/
theorem mem_exports_iff (hparse : parse? (dialect path) source = some script) :
    (∀ name, name ∈ (ofSource path source).exports ↔
      ∃ s ∈ script, ∃ form, s.Exports form name ∧ form ≠ .destructured) ∧
    ((∀ s ∈ script, ∀ form name, s.Exports form name →
        form ≠ .destructured ∧ form ≠ .defaultType) →
      ∀ name, name ∈ (ofSource path source).exports ↔
        ∃ s ∈ script, ∃ form, s.Exports form name ∧ form ≠ .defaultType) := by
  have hfound (name : String) : name ∈ (ofSource path source).exports ↔
      ∃ s ∈ script, ∃ form, s.Exports form name ∧ form ≠ .destructured := by
    rw [ofSource_eq hparse]
    show name ∈ sorted (exportedNames (signs script)) ↔ _
    rw [mem_sorted, mem_exportedNames, mem_signs_iff_of_isEsm rfl]
    simp only [Stmt.exported_mem_ownSigns_iff]
  refine ⟨hfound, fun hplain name => (hfound name).trans ?_⟩
  constructor
  · rintro ⟨s, hs, form, hexports, -⟩
    exact ⟨s, hs, form, hexports, (hplain s hs form name hexports).2⟩
  · rintro ⟨s, hs, form, hexports, -⟩
    exact ⟨s, hs, form, hexports, (hplain s hs form name hexports).1⟩

/-- A script that exports values in three forms, and a type by a list. -/
theorem mem_exports_of_three_forms :
    let source := "export * as n from 'm'; export { a as b, type T }; export function f() {}"
    let exports := (ofSource "index.ts" source).exports
    ∃ script, parse? (dialect "index.ts") source = some script ∧
      (∀ s ∈ script, ∀ form name, s.Exports form name →
        form ≠ .destructured ∧ form ≠ .defaultType) ∧
      "n" ∈ exports ∧ "b" ∈ exports ∧ "f" ∈ exports ∧ "T" ∉ exports := by
  intro source exports
  have hread : (parse? (dialect "index.ts") source).any (fun script =>
      script.all (fun s => s.exportedPatterns.isEmpty && !s.isDefaultType) &&
      ["n", "b", "f"].all (fun name =>
        decide (∃ s ∈ script, ∃ form, s.Exports form name ∧ form ≠ .destructured)) &&
      decide (¬ ∃ s ∈ script, ∃ form, s.Exports form "T" ∧ form ≠ .destructured)) = true := by
    decide +kernel
  obtain ⟨script, hparse, h⟩ := (Option.any_eq_true _ _).1 hread
  simp only [Bool.and_eq_true, List.all_eq_true, Bool.not_eq_true', decide_eq_true_iff] at h
  obtain ⟨⟨hstatements, hnames⟩, htype⟩ := h
  have hplain : ∀ s ∈ script, ∀ form name, s.Exports form name →
      form ≠ .destructured ∧ form ≠ .defaultType := by
    intro s hs form name h
    constructor
    · rintro rfl
      obtain ⟨pattern, hmem, -⟩ := Stmt.exports_destructured_iff.1 h
      rw [List.isEmpty_iff.1 (hstatements s hs).1] at hmem
      exact List.not_mem_nil hmem
    · rintro rfl
      cases h
      exact absurd (hstatements _ hs).2 (by decide)
  obtain ⟨hfound, hvalues⟩ := mem_exports_iff hparse
  obtain ⟨s, hs, form, h, -⟩ := hnames "f" (by simp)
  exact ⟨script, hparse, hplain, (hfound "n").2 (hnames "n" (by simp)),
    (hfound "b").2 (hnames "b" (by simp)),
    (hvalues hplain "f").2 ⟨s, hs, form, h, (hplain s hs form "f" h).2⟩, mt (hfound "T").1 htype⟩

/-- A script that exports what a pattern binds, and a declaration that exports an interface as the
    default: the names of the first are not found, and the second is found to export a value. -/
theorem patterns_missed_and_type_found :
    let taking := "export const { a, b: [c] } = d;"
    let typing := "export default interface F {}"
    (∃ script, parse? (dialect "index.js") taking = some script ∧
      (∀ name ∈ ["a", "c"], ∃ s ∈ script, s.Exports .destructured name) ∧
      (ofSource "index.js" taking).exports = []) ∧
    (∃ script, parse? (dialect "index.ts") typing = some script ∧
      (∀ s ∈ script, ∀ form, s.Exports form "default" → form = .defaultType) ∧
      (ofSource "index.ts" typing).exports = ["default"]) := by
  intro taking typing
  have htaking : (parse? (dialect "index.js") taking).any (fun script =>
      ["a", "c"].all fun name => script.any fun s =>
        s.exportedPatterns.any fun pattern => pattern.binds name 3) = true := by decide +kernel
  have htyping : (parse? (dialect "index.ts") typing).any (fun script =>
      script.all fun s => s.isDefaultType) = true := by decide +kernel
  constructor
  · obtain ⟨script, hparse, h⟩ := (Option.any_eq_true _ _).1 htaking
    refine ⟨script, hparse, fun name hname => ?_, by decide +kernel⟩
    obtain ⟨s, hs, hpatterns⟩ := List.any_eq_true.1 (List.all_eq_true.1 h name hname)
    obtain ⟨pattern, hmem, hbinds⟩ := List.any_eq_true.1 hpatterns
    exact ⟨s, hs, Stmt.exports_destructured_iff.2 ⟨pattern, hmem, Pattern.binds_of_binds hbinds⟩⟩
  · obtain ⟨script, hparse, h⟩ := (Option.any_eq_true _ _).1 htyping
    refine ⟨script, hparse, fun s hs form hexports => ?_, by decide +kernel⟩
    obtain rfl := Stmt.isDefaultType_iff.1 (List.all_eq_true.1 h s hs)
    cases hexports
    rfl

end ModuleSyntax

end TypingsAudit
