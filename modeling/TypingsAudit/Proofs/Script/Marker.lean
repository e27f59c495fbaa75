import TypingsAudit.Proofs.Script.Visited

set_option autoImplicit false

/-! # The marker of a converted module

A script that was converted from a module marks its object of exports by setting `__esModule`. The
mark is not a value that the module exports: where a property of the object is set, the scan keeps it
apart from the names (`Expr.SetsProperty`). The keys of an object that becomes the whole of
`module.exports` are all taken for names, the marker with them (`Expr.KeysMarker`).

So a marker among the names tells of such a key, and without such a key the mark is found wherever it
is set. -/

namespace TypingsAudit

namespace Script

/-- `module.exports = { __esModule: e }` -/
inductive Expr.KeysMarker : Expr → Prop
  | intro {operator : String} {target : Target} {properties : List Property} {property : Property}
      (htarget : target.IsModuleExports) (hmem : property ∈ properties)
      (hname : property.staticName? = some markerName) :
      KeysMarker (.assign operator target (.object properties))

/-- The expression sets the marker, in any of the forms in which a name can be set. -/
def Expr.SetsMarker (e : Expr) : Prop :=
  e.SetsProperty markerName ∨ e.KeysMarker

/-- The marker is given as a name only by a key. -/
theorem Expr.keysMarker_iff {e : Expr} : e.KeysMarker ↔ .setsName markerName ∈ e.ownSigns := by
  rw [← givesName_iff]
  constructor
  · rintro ⟨htarget, hmem, hname⟩
    exact .key htarget hmem hname
  · intro h
    cases h with
    | property hsets hname => exact absurd rfl hname
    | key htarget hmem hname => exact ⟨htarget, hmem, hname⟩

end Script

namespace ModuleSyntax

open Script

variable {path source : String} {script : List Stmt}

/-- **The marker is among the names just where an object with that key is exported.** The mark is
    found where a visited expression sets the property. In a script without such a key it is no name,
    and the mark is found wherever a visited expression sets it in any form. -/
theorem marker_iff_visited (hparse : parse? (dialect path) source = some script) :
    let found := (ofSource path source).commonJs
    (markerName ∈ found.names ↔ ∃ e, Visited script e ∧ e.KeysMarker) ∧
    (found.hasMarker = true ↔ ∃ e, Visited script e ∧ e.SetsProperty markerName) ∧
    ((∀ e, Visited script e → ¬ e.KeysMarker) →
      markerName ∉ found.names ∧
      (found.hasMarker = true ↔ ∃ e, Visited script e ∧ e.SetsMarker)) := by
  intro found
  have hfound : found = (ofSigns (signs script)).commonJs := by rw [← ofSource_eq hparse]
  have hnames : markerName ∈ found.names ↔ ∃ e, Visited script e ∧ e.KeysMarker := by
    rw [hfound, mem_names_ofSigns, mem_signs_iff_visited rfl]
    simp only [Expr.keysMarker_iff]
  have hmarker : found.hasMarker = true ↔ ∃ e, Visited script e ∧ e.SetsProperty markerName := by
    rw [hfound]
    show decide (.setsMarker ∈ signs script) = true ↔ _
    rw [decide_eq_true_iff, mem_signs_iff_visited rfl]
    simp only [Expr.setsMarker_iff]
  refine ⟨hnames, hmarker, fun hkeys => ⟨?_, hmarker.trans ?_⟩⟩
  · rw [hnames]
    rintro ⟨e, hvisited, hkey⟩
    exact hkeys e hvisited hkey
  · refine exists_congr fun e => and_congr_right fun hvisited => ?_
    exact ⟨.inl, fun h => h.resolve_right (hkeys e hvisited)⟩

/-- A script that marks its exports by a call inside a sequence, beside a name. -/
theorem marker_set_by_call :
    let source := "exports.a = 1, Object.defineProperty(module.exports, '__esModule', \x7b \x7d);"
    ∃ script, parse? (dialect "index.js") source = some script ∧
      (∀ e, Visited script e → ¬ e.KeysMarker) ∧
      (∃ e, Visited script e ∧ e.SetsMarker) ∧
      markerName ∉ (ofSource "index.js" source).commonJs.names ∧
      (ofSource "index.js" source).commonJs.hasMarker = true := by
  intro source
  have hread : (parse? (dialect "index.js") source).any (fun script =>
      decide (.setsName markerName ∉ signs script) &&
        decide (.setsMarker ∈ signs script)) = true := by
    decide +kernel
  obtain ⟨script, hparse, h⟩ := (Option.any_eq_true _ _).1 hread
  simp only [Bool.and_eq_true, decide_eq_true_iff] at h
  obtain ⟨hname, hmark⟩ := h
  obtain ⟨-, hmarker, hplain⟩ := marker_iff_visited hparse
  have hkeys : ∀ e, Visited script e → ¬ e.KeysMarker := fun e hvisited hkey =>
    hname (hvisited.mem_signs (Node.mem_signs_step (n := .value e) |>.2
      (.inl (Expr.keysMarker_iff.1 hkey))))
  obtain ⟨hnot, hfound⟩ := hplain hkeys
  have hmarked : (ofSource "index.js" source).commonJs.hasMarker = true := by
    rw [ofSource_eq hparse]
    exact decide_eq_true hmark
  exact ⟨script, hparse, hkeys, hfound.1 hmarked, hnot, hmarked⟩

/-- A script that exports an object with the marker as its key. -/
theorem marker_taken_for_name :
    let source := "module.exports = \x7b __esModule: true \x7d;"
    ∃ script, parse? (dialect "index.js") source = some script ∧
      (∃ e, Visited script e ∧ e.SetsMarker) ∧
      (ofSource "index.js" source).commonJs.names = [markerName] ∧
      (ofSource "index.js" source).commonJs.hasMarker = false := by
  intro source
  have hread : (parse? (dialect "index.js") source).any (fun script =>
      decide (.setsName markerName ∈ signs script)) = true := by
    decide +kernel
  obtain ⟨script, hparse, h⟩ := (Option.any_eq_true _ _).1 hread
  obtain ⟨e, hvisited, hown⟩ := (mem_signs_iff_visited rfl).1 (of_decide_eq_true h)
  exact ⟨script, hparse, ⟨e, hvisited, .inr (Expr.keysMarker_iff.2 hown)⟩, by decide +kernel,
    by decide +kernel⟩

end ModuleSyntax

end TypingsAudit
