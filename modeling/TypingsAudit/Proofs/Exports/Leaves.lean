import Mathlib.Data.List.Basic
import TypingsAudit.Exports.Lookup

set_option autoImplicit false

/-! # Leaves and their addresses

Under an entry of `exports` lies a tree: objects of conditions and arrays branch, targets and
exclusions are its leaves. `Exports.leaves` lists the leaves with their addresses, all of them
(`mem_leaves_iff`) and in the order in which they are written (`pairwise_leaves`).

What an exclusion cuts off is said of addresses alone (`Cuts`): the leaves that come later in an
object around it, as long as no array stands between that object and the exclusion. `uncut` are the
leaves of a list that none of them cuts off. -/

namespace TypingsAudit

namespace Exports

/-! ## Addresses -/

/-- One step down, into the entry of an object or the item of an array that stands at `index`. -/
inductive Step where
  | entry (index : Nat) (condition : String)
  | item (index : Nat)
  deriving DecidableEq, Repr

namespace Step

def index : Step → Nat
  | .entry index _ => index
  | .item index => index

/-- Whether the step goes into an object of conditions. -/
def isEntry : Step → Bool
  | .entry _ _ => true
  | .item _ => false

/-- Whether the step can be taken under the active conditions. -/
def isActive (active : ConditionSet) : Step → Bool
  | .entry _ condition => active.isActive condition
  | .item _ => true

end Step

/-- The value that is reached by the steps of an address, outermost first. -/
def at? : List Step → Exports → Option Exports
  | [], value => some value
  | .entry index condition :: below, .conditions entries =>
    match entries[index]? with
    | some (key, e) => if key = condition then at? below e else none
    | none => none
  | .item index :: below, .fallback items =>
    match items[index]? with
    | some e => at? below e
    | none => none
  | _ :: _, _ => none

/-- The addresses part at some node, where one goes on by `s` and then `below` and the other by
    `t`, and `R` holds of these. Of two leaves of one tree that node is the last one above both. -/
def Part (R : Step → List Step → Step → Prop) (a b : List Step) : Prop :=
  ∃ common s below t rest, a = common ++ s :: below ∧ b = common ++ t :: rest ∧ R s below t

/-- What is at `a` is written before what is at `b`. -/
def Before : List Step → List Step → Prop :=
  Part fun s _ t => s.index < t.index

/-- An exclusion at `a` cuts off what is at `b`: it comes before in an object of conditions around
    both, and no array stands below that object on the way to it. -/
def Cuts : List Step → List Step → Prop :=
  Part fun s below t => s.index < t.index ∧ s.isEntry = true ∧ t.isEntry = true ∧
    below.all Step.isEntry = true

section Part

variable {R : Step → List Step → Step → Prop} {s t : Step} {a b : List Step}

theorem not_part_nil_left : ¬ Part R [] b := by
  rintro ⟨common, s, below, t, rest, ha, -, -⟩
  exact absurd ha (by simp)

theorem not_part_nil_right : ¬ Part R a [] := by
  rintro ⟨common, s, below, t, rest, -, hb, -⟩
  exact absurd hb (by simp)

/-- Addresses part at the top or further down. -/
theorem part_cons_iff : Part R (s :: a) (t :: b) ↔ R s a t ∨ s = t ∧ Part R a b := by
  constructor
  · rintro ⟨common, s', below, t', rest, ha, hb, hR⟩
    cases common with
    | nil =>
        obtain ⟨rfl, rfl⟩ := List.cons.inj ha
        obtain ⟨rfl, rfl⟩ := List.cons.inj hb
        exact Or.inl hR
    | cons step common =>
        obtain ⟨rfl, rfl⟩ := List.cons.inj ha
        obtain ⟨rfl, rfl⟩ := List.cons.inj hb
        exact Or.inr ⟨rfl, common, s', below, t', rest, rfl, rfl, hR⟩
  · rintro (hR | ⟨rfl, common, s', below, t', rest, rfl, rfl, hR⟩)
    · exact ⟨[], s, a, t, b, rfl, rfl, hR⟩
    · exact ⟨s :: common, s', below, t', rest, rfl, rfl, hR⟩

instance decidablePart [∀ s below t, Decidable (R s below t)] :
    ∀ a b : List Step, Decidable (Part R a b)
  | [], _ => isFalse not_part_nil_left
  | _ :: _, [] => isFalse not_part_nil_right
  | _ :: a, _ :: b =>
    have := decidablePart a b
    decidable_of_iff _ part_cons_iff.symm

end Part

instance (a b : List Step) : Decidable (Cuts a b) :=
  inferInstanceAs (Decidable (Part _ a b))

/-- Nothing is before what is written first. -/
theorem Before.asymm {a b : List Step} (h : Before a b) : ¬ Before b a := by
  induction a generalizing b with
  | nil => exact absurd h not_part_nil_left
  | cons s a ih =>
      cases b with
      | nil => exact absurd h not_part_nil_right
      | cons t b =>
          intro hback
          rcases part_cons_iff.1 h with hlt | ⟨rfl, hbelow⟩
          · rcases part_cons_iff.1 hback with hgt | ⟨rfl, -⟩
            · exact absurd hlt (Nat.lt_asymm hgt)
            · exact absurd hlt (Nat.lt_irrefl _)
          · rcases part_cons_iff.1 hback with hlt | ⟨-, hback⟩
            · exact absurd hlt (Nat.lt_irrefl _)
            · exact ih hbelow hback

theorem Cuts.before {a b : List Step} (h : Cuts a b) : Before a b := by
  obtain ⟨common, s, below, t, rest, ha, hb, hlt, -⟩ := h
  exact ⟨common, s, below, t, rest, ha, hb, hlt⟩

/-- Below one step, it is the rest of the addresses that counts. -/
theorem cuts_cons_self {s : Step} {a b : List Step} : Cuts (s :: a) (s :: b) ↔ Cuts a b := by
  rw [Cuts, part_cons_iff]
  simp

/-! ## Leaves -/

/-- A target or an exclusion, and where it stands. -/
structure Leaf where
  address : List Step
  /-- The target. An exclusion has none. -/
  target : Option String
  deriving DecidableEq, Repr

namespace Leaf

/-- What stands at the address. -/
def value (leaf : Leaf) : Exports :=
  match leaf.target with
  | some path => .target path
  | none => .excluded

def isExclusion (leaf : Leaf) : Bool :=
  leaf.target.isNone

/-- Whether every condition on the way to the leaf is active. -/
def isActive (active : ConditionSet) (leaf : Leaf) : Bool :=
  leaf.address.all (·.isActive active)

/-- The target with the text of the pattern's `*` put in, if that is a valid one. -/
def validTarget? (star : Option String) (leaf : Leaf) : Option String :=
  (leaf.target.map (instantiate star)).filter isValidTarget

/-- Whether the leaf is a target that is not valid. -/
def isInvalid (star : Option String) (leaf : Leaf) : Bool :=
  leaf.target.any fun path => !isValidTarget (instantiate star path)

/-- Whether the leaf is an exclusion with no array around it. -/
def endsAll (leaf : Leaf) : Bool :=
  leaf.isExclusion && leaf.address.all Step.isEntry

/-- A leaf of a value as one of the value around it. -/
def under (step : Step) (leaf : Leaf) : Leaf :=
  { leaf with address := step :: leaf.address }

@[simp] theorem address_under (step : Step) (leaf : Leaf) :
    (leaf.under step).address = step :: leaf.address := rfl

@[simp] theorem target_under (step : Step) (leaf : Leaf) :
    (leaf.under step).target = leaf.target := rfl

@[simp] theorem value_under (step : Step) (leaf : Leaf) :
    (leaf.under step).value = leaf.value := rfl

@[simp] theorem isExclusion_under (step : Step) (leaf : Leaf) :
    (leaf.under step).isExclusion = leaf.isExclusion := rfl

@[simp] theorem validTarget?_under (star : Option String) (step : Step) (leaf : Leaf) :
    (leaf.under step).validTarget? star = leaf.validTarget? star := rfl

@[simp] theorem isInvalid_under (star : Option String) (step : Step) (leaf : Leaf) :
    (leaf.under step).isInvalid star = leaf.isInvalid star := rfl

@[simp] theorem isActive_under (active : ConditionSet) (step : Step) (leaf : Leaf) :
    (leaf.under step).isActive active = (step.isActive active && leaf.isActive active) := rfl

@[simp] theorem endsAll_under (step : Step) (leaf : Leaf) :
    (leaf.under step).endsAll = (step.isEntry && leaf.endsAll) := by
  simp [endsAll, Bool.and_left_comm]

end Leaf

mutual

/-- The leaves of a value, as they are written. A map of subpaths that lies inside a value leads
    nowhere. -/
def leaves : Exports → List Leaf
  | .target path => [⟨[], some path⟩]
  | .excluded => [⟨[], none⟩]
  | .fallback items => leavesOfItems 0 items
  | .conditions entries => leavesOfEntries 0 entries
  | .subpaths _ => []

/-- The leaves of the items that stand at `index` and after it. -/
def leavesOfItems : Nat → List Exports → List Leaf
  | _, [] => []
  | index, e :: es =>
    (leaves e).map (.under (.item index)) ++ leavesOfItems (index + 1) es

/-- The leaves of the entries that stand at `index` and after it. -/
def leavesOfEntries : Nat → List (String × Exports) → List Leaf
  | _, [] => []
  | index, (condition, e) :: es =>
    (leaves e).map (.under (.entry index condition)) ++ leavesOfEntries (index + 1) es

end

/-- What is listed below one step stands below it. -/
theorem mem_map_under_iff_at? {step : Step} {leaf : Leaf} {e : Exports}
    (h : ∀ {inner : Leaf}, inner ∈ leaves e ↔ e.at? inner.address = some inner.value) :
    leaf ∈ (leaves e).map (.under step) ↔
      ∃ below, leaf.address = step :: below ∧ e.at? below = some leaf.value := by
  constructor
  · intro hmem
    obtain ⟨inner, hinner, rfl⟩ := List.mem_map.1 hmem
    exact ⟨inner.address, rfl, h.1 hinner⟩
  · rintro ⟨below, haddress, hvalue⟩
    obtain ⟨address, path⟩ := leaf
    obtain rfl : address = step :: below := haddress
    exact List.mem_map.2 ⟨⟨below, path⟩, h.2 hvalue, rfl⟩

mutual

/-- **The leaves that are listed are those that stand in the value.** -/
theorem mem_leaves_iff : ∀ (value : Exports) {leaf : Leaf},
    leaf ∈ leaves value ↔ value.at? leaf.address = some leaf.value
  | .target path, ⟨address, t⟩ => by
      cases address <;> cases t <;> simp [leaves, at?, Leaf.value, eq_comm]
  | .excluded, ⟨address, t⟩ => by
      cases address <;> cases t <;> simp [leaves, at?, Leaf.value]
  | .fallback items, ⟨address, t⟩ => by
      rw [leaves, mem_leavesOfItems_iff items 0]
      cases address with
      | nil => cases t <;> simp [at?, Leaf.value]
      | cons step below =>
          cases step with
          | entry index condition => simp [at?]
          | item index => cases hitem : items[index]? <;> simp [at?, hitem, Leaf.value]
  | .conditions entries, ⟨address, t⟩ => by
      rw [leaves, mem_leavesOfEntries_iff entries 0]
      cases address with
      | nil => cases t <;> simp [at?, Leaf.value]
      | cons step below =>
          cases step with
          | entry index condition =>
              cases hentry : entries[index]? with
              | none => simp [at?, hentry]
              | some entry =>
                  obtain ⟨key, e⟩ := entry
                  by_cases hkey : key = condition <;> simp [at?, hentry, hkey, Leaf.value]
          | item index => simp [at?]
  | .subpaths _, ⟨address, t⟩ => by
      cases address <;> cases t <;> simp [leaves, at?, Leaf.value]

theorem mem_leavesOfItems_iff : ∀ (items : List Exports) (index : Nat) {leaf : Leaf},
    leaf ∈ leavesOfItems index items ↔
      ∃ k e below, items[k]? = some e ∧ leaf.address = .item (index + k) :: below ∧
        e.at? below = some leaf.value
  | [], _, _ => by simp [leavesOfItems]
  | e :: es, index, leaf => by
      rw [leavesOfItems, List.mem_append, mem_map_under_iff_at? (mem_leaves_iff e),
        mem_leavesOfItems_iff es]
      constructor
      · rintro (⟨below, haddress, hvalue⟩ | ⟨k, e', below, hitem, haddress, hvalue⟩)
        · exact ⟨0, e, below, rfl, haddress, hvalue⟩
        · refine ⟨k + 1, e', below, hitem, ?_, hvalue⟩
          rwa [Nat.add_assoc, Nat.add_comm 1] at haddress
      · rintro ⟨k, e', below, hitem, haddress, hvalue⟩
        cases k with
        | zero =>
            obtain rfl : e = e' := Option.some.inj hitem
            exact Or.inl ⟨below, haddress, hvalue⟩
        | succ k =>
            refine Or.inr ⟨k, e', below, hitem, ?_, hvalue⟩
            rwa [Nat.add_assoc, Nat.add_comm 1]

theorem mem_leavesOfEntries_iff : ∀ (entries : List (String × Exports)) (index : Nat) {leaf : Leaf},
    leaf ∈ leavesOfEntries index entries ↔
      ∃ k condition e below, entries[k]? = some (condition, e) ∧
        leaf.address = .entry (index + k) condition :: below ∧ e.at? below = some leaf.value
  | [], _, _ => by simp [leavesOfEntries]
  | (condition, e) :: es, index, leaf => by
      rw [leavesOfEntries, List.mem_append, mem_map_under_iff_at? (mem_leaves_iff e),
        mem_leavesOfEntries_iff es]
      constructor
      · rintro (⟨below, haddress, hvalue⟩ | ⟨k, c, e', below, hentry, haddress, hvalue⟩)
        · exact ⟨0, condition, e, below, rfl, haddress, hvalue⟩
        · refine ⟨k + 1, c, e', below, hentry, ?_, hvalue⟩
          rwa [Nat.add_assoc, Nat.add_comm 1] at haddress
      · rintro ⟨k, c, e', below, hentry, haddress, hvalue⟩
        cases k with
        | zero =>
            obtain ⟨rfl, rfl⟩ := Prod.mk.inj (Option.some.inj hentry)
            exact Or.inl ⟨below, haddress, hvalue⟩
        | succ k =>
            refine Or.inr ⟨k, c, e', below, hentry, ?_, hvalue⟩
            rwa [Nat.add_assoc, Nat.add_comm 1]

end

/-! ## The order of the leaves -/

theorem before_cons_self {s : Step} {a b : List Step} (h : Before a b) : Before (s :: a) (s :: b) :=
  part_cons_iff.2 (Or.inr ⟨rfl, h⟩)

/-- The leaf lies in the same object or array as what `step` leads to, behind it. -/
def Behind (step : Step) (leaf : Leaf) : Prop :=
  ∃ t below, leaf.address = t :: below ∧ step.index < t.index ∧ t.isEntry = step.isEntry

theorem Behind.before {step : Step} {leaf : Leaf} (h : Behind step leaf) (below : List Step) :
    Before (step :: below) leaf.address := by
  obtain ⟨t, rest, haddress, hlt, -⟩ := h
  rw [haddress]
  exact part_cons_iff.2 (Or.inl hlt)

theorem behind_of_mem_leavesOfItems {items : List Exports} {index : Nat} {leaf : Leaf}
    (h : leaf ∈ leavesOfItems (index + 1) items) : Behind (.item index) leaf := by
  obtain ⟨k, e, below, -, haddress, -⟩ := (mem_leavesOfItems_iff items _).1 h
  refine ⟨_, below, haddress, ?_, rfl⟩
  simp only [Step.index]
  omega

theorem behind_of_mem_leavesOfEntries {entries : List (String × Exports)} {index : Nat}
    {leaf : Leaf} (h : leaf ∈ leavesOfEntries (index + 1) entries) (condition : String) :
    Behind (.entry index condition) leaf := by
  obtain ⟨k, c, e, below, -, haddress, -⟩ := (mem_leavesOfEntries_iff entries _).1 h
  refine ⟨_, below, haddress, ?_, rfl⟩
  simp only [Step.index]
  omega

theorem pairwise_map_under_append {step : Step} {first rest : List Leaf}
    (hfirst : first.Pairwise fun a b => Before a.address b.address)
    (hrest : rest.Pairwise fun a b => Before a.address b.address)
    (hbehind : ∀ leaf ∈ rest, Behind step leaf) :
    (first.map (Leaf.under step) ++ rest).Pairwise fun a b => Before a.address b.address := by
  rw [List.pairwise_append, List.pairwise_map]
  refine ⟨hfirst.imp before_cons_self, hrest, fun a ha b hb => ?_⟩
  obtain ⟨inner, -, rfl⟩ := List.mem_map.1 ha
  exact (hbehind b hb).before inner.address

mutual

/-- **The leaves are listed as they are written.** In particular no leaf is listed twice. -/
theorem pairwise_leaves : ∀ (value : Exports),
    (leaves value).Pairwise fun a b => Before a.address b.address
  | .target _ => List.pairwise_singleton ..
  | .excluded => List.pairwise_singleton ..
  | .fallback items => by
      rw [leaves]
      exact pairwise_leavesOfItems items 0
  | .conditions entries => by
      rw [leaves]
      exact pairwise_leavesOfEntries entries 0
  | .subpaths _ => List.Pairwise.nil

theorem pairwise_leavesOfItems : ∀ (items : List Exports) (index : Nat),
    (leavesOfItems index items).Pairwise fun a b => Before a.address b.address
  | [], _ => List.Pairwise.nil
  | e :: es, index => by
      rw [leavesOfItems]
      exact pairwise_map_under_append (pairwise_leaves e) (pairwise_leavesOfItems es _)
        fun leaf hleaf => behind_of_mem_leavesOfItems hleaf

theorem pairwise_leavesOfEntries : ∀ (entries : List (String × Exports)) (index : Nat),
    (leavesOfEntries index entries).Pairwise fun a b => Before a.address b.address
  | [], _ => List.Pairwise.nil
  | (condition, e) :: es, index => by
      rw [leavesOfEntries]
      exact pairwise_map_under_append (pairwise_leaves e) (pairwise_leavesOfEntries es _)
        fun leaf hleaf => behind_of_mem_leavesOfEntries hleaf condition

end

/-! ## What is cut off -/

/-- Whether one of the exclusions among `leaves` cuts off the leaf. -/
def IsCut (leaves : List Leaf) (leaf : Leaf) : Prop :=
  ∃ null ∈ leaves, null.isExclusion = true ∧ Cuts null.address leaf.address

instance (leaves : List Leaf) (leaf : Leaf) : Decidable (IsCut leaves leaf) :=
  List.decidableBEx (fun null : Leaf => null.isExclusion = true ∧ Cuts null.address leaf.address)
    leaves

/-- The leaves that none of them cuts off. -/
def uncut (leaves : List Leaf) : List Leaf :=
  leaves.filter fun leaf => ¬ IsCut leaves leaf

/-- The leaves of a value that the active conditions lead to. -/
def activeLeaves (active : ConditionSet) (value : Exports) : List Leaf :=
  (leaves value).filter (·.isActive active)

theorem isCut_append {a b : List Leaf} {leaf : Leaf} :
    IsCut (a ++ b) leaf ↔ IsCut a leaf ∨ IsCut b leaf := by
  simp [IsCut, or_and_right, exists_or]

theorem isCut_map_under {leaves : List Leaf} {step : Step} {leaf : Leaf} :
    IsCut (leaves.map (.under step)) (leaf.under step) ↔ IsCut leaves leaf := by
  simp [IsCut, cuts_cons_self]

/-- What is behind a step is cut off from below it just when the step goes into an object and
    something below ends all that follows there. -/
theorem Behind.isCut_iff {step : Step} {leaf : Leaf} (h : Behind step leaf) (first : List Leaf) :
    IsCut (first.map (.under step)) leaf ↔
      step.isEntry = true ∧ first.any Leaf.endsAll = true := by
  obtain ⟨t, below, haddress, hlt, hentry⟩ := h
  have hne : step ≠ t := fun heq => Nat.lt_irrefl _ (heq ▸ hlt)
  have hcuts : ∀ inner : Leaf, Cuts (inner.under step).address leaf.address ↔
      step.isEntry = true ∧ inner.address.all Step.isEntry = true := fun inner => by
    rw [haddress, Leaf.address_under, Cuts, part_cons_iff]
    simp [hne, hlt, hentry]
  rw [List.any_eq_true]
  constructor
  · rintro ⟨null, hmem, hexclusion, hcut⟩
    obtain ⟨inner, hinner, rfl⟩ := List.mem_map.1 hmem
    obtain ⟨hstep, hall⟩ := (hcuts inner).1 hcut
    exact ⟨hstep, inner, hinner, Bool.and_eq_true_iff.2 ⟨hexclusion, hall⟩⟩
  · rintro ⟨hstep, inner, hinner, hends⟩
    obtain ⟨hexclusion, hall⟩ := Bool.and_eq_true_iff.1 hends
    exact ⟨inner.under step, List.mem_map_of_mem hinner, hexclusion, (hcuts inner).2 ⟨hstep, hall⟩⟩

/-- Nothing cuts off what is written before it. -/
theorem not_isCut_of_forall_before {leaves : List Leaf} {leaf : Leaf}
    (h : ∀ null ∈ leaves, Before leaf.address null.address) : ¬ IsCut leaves leaf := by
  rintro ⟨null, hmem, -, hcuts⟩
  exact (h null hmem).asymm hcuts.before

theorem uncut_map_under (leaves : List Leaf) (step : Step) :
    uncut (leaves.map (.under step)) = (uncut leaves).map (.under step) := by
  simp only [uncut, List.filter_map]
  refine congrArg _ (List.filter_congr fun leaf _ => ?_)
  simp [isCut_map_under]

/-- **The leaves below a step and those behind it.** The ones below lose nothing by the others, and
    the others are cut off as a whole or lose nothing either. -/
theorem uncut_map_under_append {step : Step} {first rest : List Leaf}
    (hbehind : ∀ leaf ∈ rest, Behind step leaf) :
    uncut (first.map (Leaf.under step) ++ rest) = (uncut first).map (Leaf.under step) ++
      if step.isEntry && first.any Leaf.endsAll then [] else uncut rest := by
  have hfirst : ∀ leaf ∈ first.map (Leaf.under step), ¬ IsCut rest leaf := by
    intro leaf hleaf
    obtain ⟨inner, -, rfl⟩ := List.mem_map.1 hleaf
    exact not_isCut_of_forall_before fun null hnull => (hbehind null hnull).before inner.address
  rw [uncut, List.filter_append, ← uncut_map_under]
  refine congrArg₂ _ (List.filter_congr fun leaf hleaf => ?_) ?_
  · simp [isCut_append, hfirst leaf hleaf]
  · split
    · next hends =>
        refine List.filter_eq_nil_iff.2 fun leaf hleaf => ?_
        have hcut := ((hbehind leaf hleaf).isCut_iff first).2 (Bool.and_eq_true_iff.1 hends)
        simp [isCut_append, hcut]
    · next hends =>
        refine List.filter_congr fun leaf hleaf => ?_
        have hcut := ((hbehind leaf hleaf).isCut_iff first).not.2
          fun h => hends (Bool.and_eq_true_iff.2 h)
        simp [isCut_append, hcut]

/-- The first leaf of all is never cut off. -/
theorem uncut_ne_nil {leaves : List Leaf} (hne : leaves ≠ [])
    (h : leaves.Pairwise fun a b => Before a.address b.address) : uncut leaves ≠ [] := by
  obtain ⟨leaf, rest, rfl⟩ := List.exists_cons_of_ne_nil hne
  have hrest : ¬ IsCut rest leaf :=
    not_isCut_of_forall_before (List.pairwise_cons.1 h).1
  have hself : ¬ Cuts leaf.address leaf.address := fun hcuts => hcuts.before.asymm hcuts.before
  have hmem : leaf ∈ uncut (leaf :: rest) := by
    refine List.mem_filter.2 ⟨List.mem_cons_self .., decide_eq_true ?_⟩
    rintro ⟨null, hnull, hexclusion, hcuts⟩
    rcases List.mem_cons.1 hnull with rfl | hnull
    · exact hself hcuts
    · exact hrest ⟨null, hnull, hexclusion, hcuts⟩
  exact List.ne_nil_of_mem hmem

end Exports

end TypingsAudit
