import Mathlib.Data.List.Induction
import TypingsAudit.Proofs.Analysis.KindOrder
import TypingsAudit.Proofs.Report.Raw

set_option autoImplicit false

/-! # Problems by kind

The groups of a report are what comes out when the problems are put into groups one at a time, each
at the end of the group of its kind, which is made in its place when there is none yet
(`Problem.groupByKind_eq_foldl`). So no problem gets lost and none appears twice
(`Problem.perm_groupByKind`).

The step is shown for any kinds in ascending order (`Problem.groupsOf`), by induction on the kinds:
those in front of the kind of the new problem keep their groups, and those behind it do, too. -/

namespace TypingsAudit.Problem

/-- Put a problem at the end of the group of its kind, or into a new group in front of the kinds
    that come later. -/
def addToGroup (p : Problem) : List (ProblemKind × List Problem) → List (ProblemKind × List Problem)
  | [] => [(p.kind, [p])]
  | (kind, group) :: rest =>
    if kind = p.kind then (kind, group ++ [p]) :: rest
    else if p.kind.rank < kind.rank then (p.kind, [p]) :: (kind, group) :: rest
    else (kind, group) :: addToGroup p rest

/-- The groups of some kinds, without those that do not occur. -/
def groupsOf (kinds : List ProblemKind) (problems : List Problem) :
    List (ProblemKind × List Problem) :=
  (kinds.map fun kind => (kind, problems.filter (·.kind = kind))).filter fun (_, group) =>
    !group.isEmpty

theorem groupByKind_eq_groupsOf (problems : List Problem) :
    groupByKind problems = groupsOf ProblemKind.all problems := rfl

variable {kind : ProblemKind} {kinds : List ProblemKind} {problems : List Problem} {p : Problem}

theorem groupsOf_cons_of_nil (h : problems.filter (·.kind = kind) = []) :
    groupsOf (kind :: kinds) problems = groupsOf kinds problems := by
  rw [groupsOf, List.map_cons, List.filter_cons_of_neg (by simp [h])]
  rfl

theorem groupsOf_cons_of_ne_nil (h : problems.filter (·.kind = kind) ≠ []) :
    groupsOf (kind :: kinds) problems
      = (kind, problems.filter (·.kind = kind)) :: groupsOf kinds problems := by
  rw [groupsOf, List.map_cons, List.filter_cons_of_pos (by simpa using h)]
  rfl

theorem kind_mem_of_mem_groupsOf {group : ProblemKind × List Problem}
    (h : group ∈ groupsOf kinds problems) : group.1 ∈ kinds := by
  obtain ⟨kind, hkind, rfl⟩ := List.mem_map.1 (List.mem_filter.1 h).1
  exact hkind

/-! ## One more problem -/

theorem filter_concat_of_kind : (problems ++ [p]).filter (·.kind = p.kind)
    = problems.filter (·.kind = p.kind) ++ [p] := by
  simp

theorem filter_concat_of_ne (h : kind ≠ p.kind) :
    (problems ++ [p]).filter (·.kind = kind) = problems.filter (·.kind = kind) := by
  simp [Ne.symm h]

/-- A problem of another kind changes no group. -/
theorem groupsOf_concat_of_notMem (h : p.kind ∉ kinds) :
    groupsOf kinds (problems ++ [p]) = groupsOf kinds problems := by
  have hgroups : ∀ kind ∈ kinds, (kind, (problems ++ [p]).filter (·.kind = kind))
      = (kind, problems.filter (·.kind = kind)) := by
    intro kind hkind
    rw [filter_concat_of_ne fun heq => h (heq ▸ hkind)]
  rw [groupsOf, List.map_congr_left hgroups, groupsOf]

/-- A kind that comes before all that occur gets a group at the front. -/
theorem addToGroup_of_forall_lt {groups : List (ProblemKind × List Problem)}
    (h : ∀ group ∈ groups, p.kind.rank < group.1.rank) :
    addToGroup p groups = (p.kind, [p]) :: groups := by
  cases groups with
  | nil => rfl
  | cons group rest =>
      obtain ⟨kind, members⟩ := group
      have hlt : p.kind.rank < kind.rank := h _ (List.mem_cons_self ..)
      have hne : kind ≠ p.kind := by
        rintro rfl
        exact Nat.lt_irrefl _ hlt
      rw [addToGroup, if_neg hne, if_pos hlt]

theorem groupsOf_concat (hkinds : kinds.Pairwise (·.rank < ·.rank)) (hp : p.kind ∈ kinds) :
    groupsOf kinds (problems ++ [p]) = addToGroup p (groupsOf kinds problems) := by
  induction kinds with
  | nil => exact absurd hp List.not_mem_nil
  | cons kind kinds ih =>
      rw [List.pairwise_cons] at hkinds
      obtain ⟨hlater, hkinds⟩ := hkinds
      by_cases hkind : kind = p.kind
      · -- All groups behind this one stay as they are.
        subst hkind
        have hnotMem : p.kind ∉ kinds := fun hmem => Nat.lt_irrefl _ (hlater _ hmem)
        have hbehind : ∀ group ∈ groupsOf kinds problems, p.kind.rank < group.1.rank :=
          fun group hgroup => hlater _ (kind_mem_of_mem_groupsOf hgroup)
        rw [groupsOf_cons_of_ne_nil (by simp), filter_concat_of_kind,
          groupsOf_concat_of_notMem hnotMem]
        by_cases hnew : problems.filter (·.kind = p.kind) = []
        · rw [groupsOf_cons_of_nil hnew, addToGroup_of_forall_lt hbehind, hnew, List.nil_append]
        · rw [groupsOf_cons_of_ne_nil hnew, addToGroup, if_pos rfl]
      · have hrest := ih hkinds ((List.mem_cons.1 hp).resolve_left (Ne.symm hkind))
        have hsame : (problems ++ [p]).filter (·.kind = kind) = problems.filter (·.kind = kind) :=
          filter_concat_of_ne hkind
        by_cases hnone : problems.filter (·.kind = kind) = []
        · rw [groupsOf_cons_of_nil hnone, groupsOf_cons_of_nil (hsame.trans hnone), hrest]
        · have hlt : kind.rank < p.kind.rank :=
            hlater _ ((List.mem_cons.1 hp).resolve_left (Ne.symm hkind))
          rw [groupsOf_cons_of_ne_nil hnone, groupsOf_cons_of_ne_nil (hsame ▸ hnone), hsame, hrest,
            addToGroup, if_neg hkind, if_neg (Nat.lt_asymm hlt)]

theorem pairwise_rank_all : ProblemKind.all.Pairwise (·.rank < ·.rank) := by
  decide

/-- **One more problem goes to the end of the group of its kind.** -/
theorem groupByKind_concat (problems : List Problem) (p : Problem) :
    groupByKind (problems ++ [p]) = addToGroup p (groupByKind problems) := by
  rw [groupByKind_eq_groupsOf, groupByKind_eq_groupsOf]
  exact groupsOf_concat pairwise_rank_all (ProblemKind.mem_all p.kind)

/-- **The groups are made one problem at a time.** -/
theorem groupByKind_eq_foldl (problems : List Problem) :
    groupByKind problems = problems.foldl (fun groups p => addToGroup p groups) [] := by
  induction problems using List.reverseRecOn with
  | nil => rfl
  | append_singleton problems p ih => rw [groupByKind_concat, ih, List.foldl_concat]

/-! ## What is in the groups -/

/-- A problem that is put into a group is in the groups once more, and all others are as often as
    before. -/
theorem perm_addToGroup (p : Problem) (groups : List (ProblemKind × List Problem)) :
    ((addToGroup p groups).flatMap (·.2)).Perm (groups.flatMap (·.2) ++ [p]) := by
  induction groups with
  | nil => exact .refl _
  | cons group rest ih =>
      obtain ⟨kind, members⟩ := group
      rw [addToGroup]
      split
      · simp only [List.flatMap_cons, List.append_assoc]
        exact List.perm_append_comm.append_left members
      · split
        · exact (List.perm_append_singleton ..).symm
        · simp only [List.flatMap_cons, List.append_assoc]
          exact ih.append_left members

/-- **Every problem is in the groups, as often as it is among the problems.** -/
theorem perm_groupByKind (problems : List Problem) :
    ((groupByKind problems).flatMap (·.2)).Perm problems := by
  induction problems using List.reverseRecOn with
  | nil => exact .refl _
  | append_singleton problems p ih =>
      rw [groupByKind_concat]
      exact (perm_addToGroup p _).trans (ih.append_right [p])

/-- The problems are in these groups, one for each kind that occurs. -/
structure Grouped (problems : List Problem) (groups : List (ProblemKind × List Problem)) :
    Prop where
  one_by_one : groups = problems.foldl (fun groups p => addToGroup p groups) []
  ascending : (groups.map (·.1)).Pairwise (·.rank < ·.rank)
  kinds : ∀ kind, kind ∈ groups.map (·.1) ↔ ∃ p ∈ problems, p.kind = kind
  /-- The problems of a kind, in the order of all problems. -/
  members : ∀ group ∈ groups, group.2 = problems.filter (·.kind = group.1)
  perm : (groups.flatMap (·.2)).Perm problems

theorem grouped_groupByKind (problems : List Problem) :
    Grouped problems (groupByKind problems) where
  one_by_one := groupByKind_eq_foldl problems
  ascending := pairwise_rank_all.sublist (Report.Raw.sublist_groupByKind problems)
  kinds kind := by
    rw [List.mem_map]
    constructor
    · rintro ⟨⟨kind, members⟩, hmem, rfl⟩
      obtain ⟨rfl, hne⟩ := Report.Raw.mem_groupByKind_iff.1 hmem
      obtain ⟨p, hp⟩ := List.exists_mem_of_ne_nil _ hne
      exact ⟨p, (List.mem_filter.1 hp).1, by simpa using (List.mem_filter.1 hp).2⟩
    · rintro ⟨p, hp, rfl⟩
      have hmem : p ∈ problems.filter (·.kind = p.kind) := List.mem_filter.2 ⟨hp, by simp⟩
      exact ⟨_, Report.Raw.mem_groupByKind_iff.2 ⟨rfl, List.ne_nil_of_mem hmem⟩, rfl⟩
  members group hgroup := (Report.Raw.mem_groupByKind_iff.1 hgroup).1
  perm := perm_groupByKind problems

end TypingsAudit.Problem
