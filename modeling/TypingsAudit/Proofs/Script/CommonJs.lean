import TypingsAudit.Proofs.Script.Places

set_option autoImplicit false

/-! # Which scripts are seen to be CommonJS modules

A script without imports and exports is a CommonJS module when it calls `require` or uses `exports`.
That is seen where the scan for signs goes, and only there: a script that does so inside another
statement, an operand or the object of a member runs just the same and shows nothing. -/

namespace TypingsAudit

namespace Script

/-! ## Uses of CommonJS -/

/-- The target is `module.exports`. -/
inductive Target.IsModuleExports : Target → Prop
  | member : IsModuleExports (.member (.name "module") "exports")
  | index : IsModuleExports (.index (.name "module") (.string "exports"))

/-- The target is a property of `exports` or of `module.exports`. -/
inductive Target.IsExportsProperty : Target → Prop
  | member {base : Expr} {text : String} (h : base.isExports) :
      IsExportsProperty (.member base text)
  | index {base key : Expr} (h : base.isExports) : IsExportsProperty (.index base key)

/-- The expression sets `module.exports`. -/
inductive Expr.SetsModuleExports : Expr → Prop
  | assign {operator : String} {target : Target} {value : Expr} (h : target.IsModuleExports) :
      SetsModuleExports (.assign operator target value)

/-- The expression loads a module: `require("m")`. -/
inductive Expr.LoadsModule : Expr → Prop
  | call {module : String} {more : List Element} :
      LoadsModule (.call (.name "require") (.item (.string module) :: more))

/-- The expression uses the object of exports. -/
inductive Expr.UsesExports : Expr → Prop
  | setsModuleExports {e : Expr} (h : e.SetsModuleExports) : UsesExports e
  | setsProperty {operator : String} {target : Target} {value : Expr}
      (h : target.IsExportsProperty) : UsesExports (.assign operator target value)
  /-- `Object.defineProperty(exports, "name", e)` -/
  | definesProperty {base : Expr} {name : String} {more : List Element} (h : base.isExports) :
      UsesExports (.call (.member (.name "Object") "defineProperty")
        (.item base :: .item (.string name) :: more))
  | readsModuleExports : UsesExports (.member (.name "module") "exports")
  | readsProperty {text : String} : UsesExports (.member (.name "exports") text)

/-! ## The signs of a use -/

theorem Expr.isName_iff {e : Expr} {text : String} : e.isName text ↔ e = .name text := by
  cases e <;> simp [isName]

theorem Expr.isModuleExports_iff {e : Expr} :
    e.isModuleExports ↔ e = .member (.name "module") "exports" := by
  cases e <;> simp [isModuleExports, isName_iff]

theorem Expr.isDefineProperty_iff {e : Expr} :
    e.isDefineProperty ↔ e = .member (.name "Object") "defineProperty" := by
  cases e <;> simp [isDefineProperty, isName_iff]

/-- A value that is exported as a whole shows names, or that there are names that are not seen. -/
theorem Expr.eq_of_mem_exportSigns {e : Expr} {sign : Sign} (h : sign ∈ e.exportSigns) :
    (∃ name, sign = .setsName name) ∨ sign = .setsUnknown := by
  unfold exportSigns at h
  split at h
  · obtain ⟨property, -, rfl⟩ := List.mem_map.1 h
    unfold Property.exportSign
    split
    · split
      · exact .inl ⟨_, rfl⟩
      · exact .inr rfl
    · exact .inl ⟨_, rfl⟩
    · exact .inr rfl
  · exact .inr (List.mem_singleton.1 h)

theorem Target.isModuleExports_iff {target : Target} :
    target.IsModuleExports ↔
      ∃ base, target.member? = some (base, some "exports") ∧ base.isName "module" := by
  constructor
  · rintro (_ | _)
    · exact ⟨_, rfl, by simp [Expr.isName]⟩
    · exact ⟨_, rfl, by simp [Expr.isName]⟩
  · rintro ⟨base, hmember, hbase⟩
    obtain rfl := Expr.isName_iff.1 hbase
    unfold member? at hmember
    split at hmember <;> simp at hmember
    · obtain ⟨rfl, rfl⟩ := hmember
      exact .member
    · obtain ⟨rfl, rfl⟩ := hmember
      exact .index

theorem Target.isExportsProperty_iff {target : Target} :
    target.IsExportsProperty ↔
      ∃ base property, target.member? = some (base, property) ∧ base.isExports := by
  constructor
  · rintro (h | h)
    · exact ⟨_, _, rfl, h⟩
    · unfold member?
      split <;> simp_all
  · rintro ⟨base, property, hmember, hbase⟩
    unfold member? at hmember
    split at hmember <;> simp at hmember
    · exact .member (hmember.1 ▸ hbase)
    · exact .index (hmember.1 ▸ hbase)
    · exact .index (hmember.1 ▸ hbase)

/-- What setting a target shows: that `module.exports` is set, that a property of it is, or nothing. -/
theorem Target.signs_cases (target : Target) (value : Expr) :
    (target.IsModuleExports ∧
      target.signs value = .usesExports :: .setsExports :: value.exportSigns) ∨
    (¬ target.IsModuleExports ∧ target.IsExportsProperty ∧
      ∃ property : Option String,
        target.signs value = .usesExports :: (property.map Sign.setting).toList) ∨
    (¬ target.IsModuleExports ∧ ¬ target.IsExportsProperty ∧ target.signs value = []) := by
  rw [isModuleExports_iff, isExportsProperty_iff]
  unfold signs
  split
  · next hnone => exact .inr (.inr ⟨by simp [hnone], by simp [hnone], rfl⟩)
  · next base property hmember =>
    by_cases hmodule : base.isName "module" ∧ property = some "exports"
    · obtain ⟨hbase, rfl⟩ := hmodule
      exact .inl ⟨⟨base, hmember, hbase⟩, by simp [hbase]⟩
    · have hnot : ¬ ∃ base, target.member? = some (base, some "exports") ∧ base.isName "module" := by
        rintro ⟨other, hother, hbase⟩
        obtain ⟨rfl, rfl⟩ := Prod.mk.inj (Option.some.inj (hmember.symm.trans hother))
        exact hmodule ⟨hbase, rfl⟩
      rw [if_neg hmodule]
      by_cases hexports : base.isExports
      · exact .inr (.inl ⟨hnot, ⟨base, property, hmember, hexports⟩, property, by simp [hexports]⟩)
      · refine .inr (.inr ⟨hnot, ?_, by simp [hexports]⟩)
        rintro ⟨other, _, hother, hbase⟩
        obtain ⟨rfl, -⟩ := Prod.mk.inj (Option.some.inj (hmember.symm.trans hother))
        exact hexports hbase

theorem Sign.setting_cases (name : String) :
    setting name = .setsMarker ∨ ∃ other, setting name = .setsName other := by
  unfold setting
  split
  · exact .inl rfl
  · exact .inr ⟨name, rfl⟩

/-- What a call shows: that a module is loaded, that an exported property is defined, or nothing. -/
theorem callSigns_cases (callee : Expr) (arguments : List Element) :
    ((∃ module more, callee = .name "require" ∧ arguments = .item (.string module) :: more) ∧
      callSigns callee arguments = [.requires]) ∨
    (∃ base name more, callee = .member (.name "Object") "defineProperty" ∧ base.isExports ∧
      arguments = .item base :: .item (.string name) :: more ∧
      callSigns callee arguments = [.usesExports, .setting name]) ∨
    (¬ (Expr.call callee arguments).LoadsModule ∧ ¬ (Expr.call callee arguments).UsesExports ∧
      callSigns callee arguments = []) := by
  unfold callSigns
  split
  · next module more =>
    by_cases hcallee : callee.isName "require"
    · exact .inl ⟨⟨module, more, Expr.isName_iff.1 hcallee, rfl⟩, by simp [hcallee]⟩
    · refine .inr (.inr ⟨fun h => ?_, fun h => ?_, by simp [hcallee]⟩)
      · cases h
        exact hcallee (Expr.isName_iff.2 rfl)
      · cases h with
        | setsModuleExports h => cases h
        | definesProperty h => simp [Expr.isExports, Expr.isName, Expr.isModuleExports] at h
  · next base name more hfirst =>
    by_cases hcallee : callee.isDefineProperty ∧ base.isExports
    · exact .inr (.inl ⟨base, name, more, Expr.isDefineProperty_iff.1 hcallee.1, hcallee.2, rfl,
        by simp [hcallee]⟩)
    · refine .inr (.inr ⟨fun h => ?_, fun h => ?_, if_neg hcallee⟩)
      · cases h
        exact hfirst _ rfl
      · cases h with
        | setsModuleExports h => cases h
        | definesProperty h => exact hcallee ⟨Expr.isDefineProperty_iff.2 rfl, h⟩
  · next hfirst hdefine =>
    refine .inr (.inr ⟨fun h => ?_, fun h => ?_, rfl⟩)
    · cases h
      exact hfirst _ _ rfl
    · cases h with
      | setsModuleExports h => cases h
      | definesProperty h => exact hdefine _ _ _ rfl

theorem Expr.LoadsModule.not_usesExports {e : Expr} (h : e.LoadsModule) : ¬ e.UsesExports := by
  intro huses
  cases h
  cases huses with
  | setsModuleExports h => cases h

/-- What an expression shows apart from its parts: that `module.exports` is set, that a module is
    loaded, that the object of exports is used otherwise, or nothing. -/
theorem Expr.ownSigns_cases (e : Expr) :
    (e.SetsModuleExports ∧
      ∃ value : Expr, e.ownSigns = .usesExports :: .setsExports :: value.exportSigns) ∨
    (e.LoadsModule ∧ e.ownSigns = [.requires]) ∨
    (¬ e.SetsModuleExports ∧ e.UsesExports ∧ ∃ signs, e.ownSigns = .usesExports :: signs ∧
      ∀ sign ∈ signs, sign = .setsMarker ∨ ∃ name, sign = .setsName name) ∨
    (¬ e.LoadsModule ∧ ¬ e.UsesExports ∧ e.ownSigns = []) := by
  cases e with
  | assign operator target value =>
      rw [ownSigns]
      rcases Target.signs_cases target value with ⟨h, hsigns⟩ | ⟨h, hproperty, property, hsigns⟩ |
        ⟨h, hproperty, hsigns⟩
      · exact .inl ⟨.assign h, value, hsigns⟩
      · refine .inr (.inr (.inl ⟨?_, .setsProperty hproperty, _, hsigns, fun sign hsign => ?_⟩))
        · rintro ⟨hsets⟩
          exact h hsets
        · obtain ⟨name, -, rfl⟩ := Option.map_eq_some_iff.1 (Option.mem_toList.1 hsign)
          exact Sign.setting_cases name
      · refine .inr (.inr (.inr ⟨(fun hloads => by cases hloads), ?_, hsigns⟩))
        rintro (⟨⟨hsets⟩⟩ | hsets)
        · exact h hsets
        · exact hproperty hsets
  | call callee arguments =>
      rw [ownSigns]
      rcases callSigns_cases callee arguments with ⟨⟨module, more, rfl, rfl⟩, hsigns⟩ |
        ⟨base, name, more, rfl, hbase, rfl, hsigns⟩ | hnone
      · exact .inr (.inl ⟨.call, hsigns⟩)
      · refine .inr (.inr (.inl ⟨(fun hsets => by cases hsets), .definesProperty hbase, _, hsigns,
          fun sign hsign => ?_⟩))
        rw [List.mem_singleton.1 hsign]
        exact Sign.setting_cases name
      · exact .inr (.inr (.inr hnone))
  | member base text =>
      rw [ownSigns, signs]
      by_cases hexports : (Expr.member base text).isModuleExports ∨ base.isName "exports"
      · rw [if_pos hexports]
        refine .inr (.inr (.inl ⟨(fun hsets => by cases hsets), ?_, [], rfl, by simp⟩))
        rw [isModuleExports_iff, isName_iff] at hexports
        rcases hexports with h | rfl
        · exact h ▸ .readsModuleExports
        · exact .readsProperty
      · rw [if_neg hexports]
        rw [isModuleExports_iff, isName_iff] at hexports
        refine .inr (.inr (.inr ⟨(fun hloads => by cases hloads), fun huses => hexports ?_, rfl⟩))
        cases huses with
        | setsModuleExports h => cases h
        | readsModuleExports => exact .inl rfl
        | readsProperty => exact .inr rfl
  | _ =>
      refine .inr (.inr (.inr ⟨(fun hloads => by cases hloads), fun huses => ?_, rfl⟩))
      cases huses with
      | setsModuleExports h => cases h

theorem Expr.loadsModule_iff {e : Expr} : e.LoadsModule ↔ .requires ∈ e.ownSigns := by
  rcases e.ownSigns_cases with ⟨hsets, value, hsigns⟩ | ⟨hloads, hsigns⟩ |
    ⟨-, huses, signs, hsigns, hother⟩ | ⟨hloads, -, hsigns⟩
  · refine iff_of_false (fun h => h.not_usesExports (.setsModuleExports hsets)) ?_
    have hvalue : .requires ∉ value.exportSigns := by
      intro h
      rcases eq_of_mem_exportSigns h with ⟨_, h⟩ | h <;> cases h
    simp [hsigns, hvalue]
  · exact iff_of_true hloads (by simp [hsigns])
  · refine iff_of_false (fun h => h.not_usesExports huses) ?_
    have hsigns' : .requires ∉ signs := by
      intro h
      rcases hother _ h with h | ⟨_, h⟩ <;> cases h
    simp [hsigns, hsigns']
  · exact iff_of_false hloads (by simp [hsigns])

theorem Expr.usesExports_iff {e : Expr} : e.UsesExports ↔ .usesExports ∈ e.ownSigns := by
  rcases e.ownSigns_cases with ⟨hsets, value, hsigns⟩ | ⟨hloads, hsigns⟩ |
    ⟨-, huses, signs, hsigns, -⟩ | ⟨-, huses, hsigns⟩
  · exact iff_of_true (.setsModuleExports hsets) (by simp [hsigns])
  · exact iff_of_false hloads.not_usesExports (by simp [hsigns])
  · exact iff_of_true huses (by simp [hsigns])
  · exact iff_of_false huses (by simp [hsigns])

theorem Expr.setsModuleExports_iff {e : Expr} :
    e.SetsModuleExports ↔ .setsExports ∈ e.ownSigns := by
  rcases e.ownSigns_cases with ⟨hsets, value, hsigns⟩ | ⟨hloads, hsigns⟩ |
    ⟨hsets, -, signs, hsigns, hother⟩ | ⟨-, huses, hsigns⟩
  · exact iff_of_true hsets (by simp [hsigns])
  · exact iff_of_false (fun h => hloads.not_usesExports (.setsModuleExports h)) (by simp [hsigns])
  · refine iff_of_false hsets ?_
    have hsigns' : .setsExports ∉ signs := by
      intro h
      rcases hother _ h with h | ⟨_, h⟩ <;> cases h
    simp [hsigns, hsigns']
  · exact iff_of_false (fun h => huses (.setsModuleExports h)) (by simp [hsigns])

instance : DecidablePred Expr.LoadsModule :=
  fun _ => decidable_of_iff _ Expr.loadsModule_iff.symm

instance : DecidablePred Expr.SetsModuleExports :=
  fun _ => decidable_of_iff _ Expr.setsModuleExports_iff.symm

/-! ## Imports and exports -/

/-- The sign tells of an import or of an export. -/
def Sign.isEsm : Sign → Bool
  | .moduleSyntax => true
  | .exported _ => true
  | .starExport => true
  | .exportAssignment => true
  | _ => false

theorem Expr.isEsm_of_mem_ownSigns {e : Expr} {sign : Sign} (h : sign ∈ e.ownSigns) :
    sign.isEsm = false := by
  rcases e.ownSigns_cases with ⟨-, value, hsigns⟩ | ⟨-, hsigns⟩ | ⟨-, -, signs, hsigns, hother⟩ |
    ⟨-, -, hsigns⟩
  · rw [hsigns, List.mem_cons, List.mem_cons] at h
    rcases h with rfl | rfl | h
    · rfl
    · rfl
    · rcases eq_of_mem_exportSigns h with ⟨_, rfl⟩ | rfl <;> rfl
  · rw [hsigns] at h
    rw [List.mem_singleton.1 h]
    rfl
  · rw [hsigns, List.mem_cons] at h
    rcases h with rfl | h
    · rfl
    · rcases hother _ h with rfl | ⟨_, rfl⟩ <;> rfl
  · rw [hsigns] at h
    exact absurd h List.not_mem_nil

/-- Imports and exports are shown by statements alone. -/
theorem mem_signs_iff_of_isEsm {script : List Stmt} {sign : Sign} (h : sign.isEsm) :
    sign ∈ signs script ↔ ∃ s ∈ script, sign ∈ s.ownSigns := by
  rw [mem_signs_iff, or_iff_left]
  rintro ⟨path, e, -, -, hown⟩
  rw [Expr.isEsm_of_mem_ownSigns hown] at h
  contradiction

theorem Stmt.isEsm_of_mem_ownSigns {s : Stmt} : ∀ sign ∈ s.ownSigns, sign.isEsm := by
  cases s with
  | exportAll typeOnly name => cases typeOnly <;> cases name <;> simp [ownSigns, signs, Sign.isEsm]
  | exportList typeOnly specifiers =>
      cases typeOnly with
      | true => simp [ownSigns, signs, Sign.isEsm]
      | false =>
          simp only [ownSigns, signs, Bool.false_eq_true, if_false, List.forall_mem_cons,
            List.forall_mem_map]
          exact ⟨rfl, fun _ _ => rfl⟩
  | _ => simp [ownSigns, signs, Sign.isEsm]

/-- An import or an export. -/
def Stmt.isModuleSyntax : Stmt → Bool
  | .importModule => true
  | .exportDeclaration _ => true
  | .exportList _ _ => true
  | .exportAll _ _ => true
  | .exportDefault _ => true
  | .exportAssignment _ => true
  | .exportNamespace _ => true
  | _ => false

theorem Stmt.isModuleSyntax_iff {s : Stmt} : s.isModuleSyntax ↔ .moduleSyntax ∈ s.ownSigns := by
  cases s <;> simp [isModuleSyntax, ownSigns, signs]

end Script

namespace ModuleSyntax

open Script

variable {path source : String} {script : List Stmt}

theorem ofSource_eq (hparse : parse? (dialect path) source = some script) :
    ofSource path source = ofSigns (signs script) := by
  unfold ofSource
  rw [hparse]

/-- **Where the use of CommonJS is seen.** A script without imports and exports is found to be a
    CommonJS module exactly when, in a place that the scan enters, it calls `require` or uses the object
    of exports; and it is found to set `module.exports` exactly when it does so in such a place. -/
theorem commonJs_iff_in_scanned_place (hparse : parse? (dialect path) source = some script)
    (hplain : ∀ s ∈ script, s.isModuleSyntax = false) :
    ((ofSource path source).kind = .cjs ↔
      ∃ places e, Runs script places e ∧ (∀ place ∈ places, place.isScanned) ∧
        (e.LoadsModule ∨ e.UsesExports)) ∧
    ((ofSource path source).commonJs.setsExports = true ↔
      ∃ places e, Runs script places e ∧ (∀ place ∈ places, place.isScanned) ∧
        e.SetsModuleExports) := by
  rw [ofSource_eq hparse]
  have hmodule : .moduleSyntax ∉ signs script := by
    rw [mem_signs_iff_of_isEsm rfl]
    rintro ⟨s, hs, hsign⟩
    rw [← Stmt.isModuleSyntax_iff, hplain s hs] at hsign
    contradiction
  -- The statements of the script show nothing by themselves.
  have hfound {sign : Sign} (hsign : sign.isEsm = false) : sign ∈ signs script ↔
      ∃ places e, Runs script places e ∧ (∀ place ∈ places, place.isScanned) ∧
        sign ∈ e.ownSigns := by
    rw [mem_signs_iff, or_iff_right]
    rintro ⟨s, -, hown⟩
    rw [Stmt.isEsm_of_mem_ownSigns _ hown] at hsign
    contradiction
  constructor
  · have hkind : (ofSigns (signs script)).kind = .cjs ↔
        .requires ∈ signs script ∨ .usesExports ∈ signs script := by
      show kindOf (signs script) = .cjs ↔ _
      unfold kindOf
      rw [if_neg hmodule]
      split <;> simp [*]
    rw [hkind, hfound rfl, hfound rfl]
    simp only [Expr.loadsModule_iff, Expr.usesExports_iff, and_or_left, exists_or]
  · show decide (.setsExports ∈ signs script) = true ↔ _
    rw [decide_eq_true_iff, hfound rfl]
    simp only [Expr.setsModuleExports_iff]

/-- A script in which the search finds an expression as wanted, without imports and exports. -/
theorem exists_plain_script {d : Dialect} {enters : Place → Bool} {wanted : Expr → Bool} {depth : Nat}
    (h : (parse? d source).any (fun script =>
      script.all (fun s => !s.isModuleSyntax) && someRuns enters wanted depth script)) :
    ∃ script, parse? d source = some script ∧ (∀ s ∈ script, s.isModuleSyntax = false) ∧
      ∃ path e, Runs script path e ∧ (∀ place ∈ path, enters place) ∧ wanted e := by
  obtain ⟨script, hparse, h⟩ := (Option.any_eq_true _ _).1 h
  obtain ⟨hstatements, hruns⟩ := Bool.and_eq_true_iff.1 h
  refine ⟨script, hparse, fun s hs => ?_, exists_of_someRuns hruns⟩
  simpa using List.all_eq_true.1 hstatements s hs

/-- A script that sets `module.exports` in one branch of an argument. -/
theorem commonJs_in_call_seen :
    let source := "f(a ? (module.exports = b) : c);"
    ∃ script, parse? (dialect "index.js") source = some script ∧
      (∀ s ∈ script, s.isModuleSyntax = false) ∧
      (ofSource "index.js" source).kind = .cjs ∧
      (ofSource "index.js" source).commonJs.setsExports = true := by
  intro source
  have hread : (parse? (dialect "index.js") source).any (fun script =>
      script.all (fun s => !s.isModuleSyntax) &&
        someRuns Place.isScanned (fun e => e.SetsModuleExports) 5 script) = true := by
    decide +kernel
  obtain ⟨script, hparse, hplain, places, e, hruns, hplaces, he⟩ := exists_plain_script hread
  have hsets : e.SetsModuleExports := of_decide_eq_true he
  obtain ⟨hkind, hexports⟩ := commonJs_iff_in_scanned_place hparse hplain
  exact ⟨script, hparse, hplain,
    hkind.2 ⟨places, e, hruns, hplaces, .inr (.setsModuleExports hsets)⟩,
    hexports.2 ⟨places, e, hruns, hplaces, hsets⟩⟩

/-- A script that sets `module.exports` on a condition, and one that loads a module to take one of its
    members. Neither is seen. -/
theorem commonJs_in_other_places_missed :
    let onCondition := "if (a) module.exports = b;"
    let ofMember := "const y = require('x').z;"
    (∃ script, parse? (dialect "index.js") onCondition = some script ∧
      (∀ s ∈ script, s.isModuleSyntax = false) ∧
      (∃ places e, Runs script places e ∧ e.SetsModuleExports) ∧
      (ofSource "index.js" onCondition).kind = .none ∧
      (ofSource "index.js" onCondition).commonJs.setsExports = false) ∧
    (∃ script, parse? (dialect "index.js") ofMember = some script ∧
      (∀ s ∈ script, s.isModuleSyntax = false) ∧
      (∃ places e, Runs script places e ∧ e.LoadsModule) ∧
      (ofSource "index.js" ofMember).kind = .none) := by
  intro onCondition ofMember
  have hcondition : (parse? (dialect "index.js") onCondition).any (fun script =>
      script.all (fun s => !s.isModuleSyntax) &&
        someRuns (fun _ => true) (fun e => e.SetsModuleExports) 3 script) = true := by
    decide +kernel
  have hmember : (parse? (dialect "index.js") ofMember).any (fun script =>
      script.all (fun s => !s.isModuleSyntax) &&
        someRuns (fun _ => true) (fun e => e.LoadsModule) 3 script) = true := by
    decide +kernel
  constructor
  · obtain ⟨script, hparse, hplain, places, e, hruns, -, he⟩ := exists_plain_script hcondition
    exact ⟨script, hparse, hplain, ⟨places, e, hruns, of_decide_eq_true he⟩, by decide +kernel,
      by decide +kernel⟩
  · obtain ⟨script, hparse, hplain, places, e, hruns, -, he⟩ := exists_plain_script hmember
    exact ⟨script, hparse, hplain, ⟨places, e, hruns, of_decide_eq_true he⟩, by decide +kernel⟩

end ModuleSyntax

end TypingsAudit
