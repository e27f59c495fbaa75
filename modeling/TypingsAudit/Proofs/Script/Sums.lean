import Mathlib.Data.List.Sort
import TypingsAudit.Proofs.Data
import TypingsAudit.Script.ModuleSyntax

set_option autoImplicit false

/-! # The sum of what a script shows

`ModuleSyntax.ofSigns` sums up a list of signs. Its names come out sorted and its flags ask whether a
sign is there, so the sum depends on which signs there are, but neither on their order nor on how
often each of them occurs (`ModuleSyntax.ofSigns_congr`). -/

namespace TypingsAudit

namespace ModuleSyntax

open Script

/-! ## Sorted names -/

/-- Sorted names ascend, none of them twice. -/
theorem pairwise_sorted (names : List String) : (sorted names).Pairwise (· < ·) := by
  have hle : (sorted names).Pairwise (· ≤ ·) := by
    refine (List.pairwise_mergeSort (fun a b c hab hbc => ?_) (fun a b => ?_) _).imp fun h => ?_
    · exact decide_eq_true
        (String.le_trans (of_decide_eq_true hab) (of_decide_eq_true hbc))
    · rw [Bool.or_eq_true, decide_eq_true_eq, decide_eq_true_eq]
      exact String.le_total a b
    · exact of_decide_eq_true h
  have hne : (sorted names).Pairwise (· ≠ ·) :=
    (List.mergeSort_perm ..).nodup_iff.2 (nodup_eraseDups names)
  exact (hle.and hne).imp fun h => Std.lt_of_le_of_ne h.1 h.2

/-- The exports of a file ascend, since they were sorted. -/
theorem pairwise_exports_ofSource (path source : String) :
    (ofSource path source).exports.Pairwise (· < ·) := by
  unfold ofSource
  split
  · exact pairwise_sorted _
  · exact pairwise_sorted _

/-- Sorted names are told by which names they are. -/
theorem sorted_congr {names other : List String} (h : ∀ name, name ∈ names ↔ name ∈ other) :
    sorted names = sorted other := by
  refine (pairwise_sorted names).eq_of_mem_iff (pairwise_sorted other) fun name => ?_
  rw [mem_sorted, mem_sorted, h]

/-! ## The names and the style of a sum -/

/-- The names that signs of one form carry. -/
theorem mem_filterMap_iff {form : String → Sign} {name? : Sign → Option String}
    (h : ∀ sign name, name? sign = some name ↔ sign = form name) {signs : List Sign}
    {name : String} : name ∈ signs.filterMap name? ↔ form name ∈ signs := by
  simp only [List.mem_filterMap, h, exists_eq_right]

theorem mem_exportedNames {signs : List Sign} {name : String} :
    name ∈ exportedNames signs ↔ .exported name ∈ signs :=
  mem_filterMap_iff fun sign _ => by cases sign <;> simp

theorem mem_setNames {signs : List Sign} {name : String} :
    name ∈ setNames signs ↔ .setsName name ∈ signs :=
  mem_filterMap_iff fun sign _ => by cases sign <;> simp

theorem mem_names_ofSigns {signs : List Sign} {name : String} :
    name ∈ (ofSigns signs).commonJs.names ↔ .setsName name ∈ signs :=
  mem_sorted.trans mem_setNames

/-- Where the object of exports is used, there is a style: CommonJS, unless there is an import or an
    export. -/
theorem kindOf_of_usesExports {signs : List Sign} (h : .usesExports ∈ signs) :
    kindOf signs = .esm ∨ kindOf signs = .cjs := by
  unfold kindOf
  split
  · exact .inl rfl
  · exact .inr (if_pos (.inr h))

/-- **The sum is told by which signs there are.** -/
theorem ofSigns_congr {signs other : List Sign} (h : ∀ sign, sign ∈ signs ↔ sign ∈ other) :
    ofSigns signs = ofSigns other := by
  have hexports : sorted (exportedNames signs) = sorted (exportedNames other) :=
    sorted_congr fun name => by rw [mem_exportedNames, mem_exportedNames, h]
  have hnames : sorted (setNames signs) = sorted (setNames other) :=
    sorted_congr fun name => by rw [mem_setNames, mem_setNames, h]
  simp only [ofSigns, kindOf, hexports, hnames, h]

end ModuleSyntax

end TypingsAudit
