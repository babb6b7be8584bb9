import ActionPlanning.Ranking

/-!
# Best first

Plans are ranked by their net value in a state, in the total order of amounts. Whatever the values
are, numbers or not, a ranking leaves out no plan and adds none, puts no plan before a better one,
and keeps plans of the same value in the order in which they are given. So its first plan is the one
given first among the best.

## Main definitions

* `Ranking.noWorse`, `Ranking.tied`: how the values of two plans compare.
* `Ranking.Ranks`: one list is another one ranked.

## Main results

* `Ranking.ranks_bestFirst`: sorting by value ranks.
* `Ranking.Ranks.pair_sublist_iff`: a ranking does not swap plans of the same value.
* `Ranking.Ranks.exists_first`: the first of a ranking is the first of the best.
-/

namespace ActionPlanning.Ranking

/-- The one plan is worth no less than the other in a state. -/
def noWorse (state : WorldState) (a b : ScoredPlan) : Bool :=
  (b.netValue state).totalLe (a.netValue state)

/-- Two plans are worth the same in a state; the two zeros are not the same. -/
def tied (state : WorldState) (a b : ScoredPlan) : Bool := noWorse state a b && noWorse state b a

variable {state : WorldState} {a b c best : ScoredPlan} {plans ranked rest : List ScoredPlan}

theorem noWorse_refl (a : ScoredPlan) : noWorse state a a = true := Amount.totalLe_refl _

theorem noWorse_trans (a b c : ScoredPlan) (first : noWorse state a b = true)
    (second : noWorse state b c = true) : noWorse state a c = true :=
  Amount.totalLe_trans second first

theorem noWorse_total (a b : ScoredPlan) : (noWorse state a b || noWorse state b a) = true :=
  Bool.or_eq_true_iff.mpr (Amount.totalLe_total _ _)

theorem noWorse_of_tied (tiedA : tied state c a = true) (tiedB : tied state c b = true) :
    noWorse state a b = true :=
  noWorse_trans a c b (Bool.and_eq_true_iff.mp tiedA).2 (Bool.and_eq_true_iff.mp tiedB).1

theorem tied_of_eq (same : a.netValue state = b.netValue state) : tied state a b = true := by
  rw [tied, noWorse, noWorse, same, Amount.totalLe_refl, Bool.and_self]

/-- A list holds given plans ranked by their net value in a state. -/
structure Ranks (state : WorldState) (plans ranked : List ScoredPlan) : Prop where
  /-- Each plan stands in the ranking as often as it is given. -/
  perm : ranked.Perm plans
  /-- No plan stands before a better one. -/
  sorted : ranked.Pairwise fun a b => noWorse state a b = true
  /-- Plans of the same value stand in the order in which they are given. -/
  stable : ∀ plan, ranked.filter (tied state plan) = plans.filter (tied state plan)

/-- A stable sort keeps plans of the same value in order. -/
theorem filter_mergeSort (plan : ScoredPlan) :
    (plans.mergeSort (noWorse state)).filter (tied state plan)
      = plans.filter (tied state plan) := by
  have ordered : (plans.filter (tied state plan)).Pairwise fun a b => noWorse state a b = true :=
    List.pairwise_iff_forall_sublist.mpr fun {a b} sublist =>
      noWorse_of_tied (List.mem_filter.mp (sublist.subset (by simp))).2
        (List.mem_filter.mp (sublist.subset (by simp))).2
  have kept := (List.sublist_mergeSort noWorse_trans noWorse_total ordered
    List.filter_sublist).filter (tied state plan)
  rw [List.filter_filter, funext fun p => Bool.and_self _] at kept
  exact (kept.eq_of_length ((List.mergeSort_perm _ _).filter _).length_eq.symm).symm

/-- Sorting valued plans by value ranks the plans. -/
theorem ranks_bestFirst (state : WorldState) (plans : List ScoredPlan) :
    Ranks state plans
      ((bestFirst (plans.map fun plan => ⟨plan.netValue state, plan⟩)).map Valued.plan) := by
  have valuedFirst : (plans.mergeSort (noWorse state)).map
      (fun plan => (⟨plan.netValue state, plan⟩ : Valued))
        = bestFirst (plans.map fun plan => ⟨plan.netValue state, plan⟩) :=
    List.map_mergeSort fun _ _ _ _ => rfl
  have sorted : (bestFirst (plans.map fun plan => ⟨plan.netValue state, plan⟩)).map Valued.plan
      = plans.mergeSort (noWorse state) := by
    rw [← valuedFirst, List.map_map]
    exact List.map_id _
  rw [sorted]
  exact ⟨List.mergeSort_perm _ _, List.pairwise_mergeSort noWorse_trans noWorse_total _,
    filter_mergeSort⟩

/-- Two plans of the same value stand in the order in which they are given. -/
theorem Ranks.pair_sublist_iff (ranks : Ranks state plans ranked) (same : tied state a b = true) :
    [a, b].Sublist ranked ↔ [a, b].Sublist plans := by
  have kept : [a, b].filter (tied state a) = [a, b] := by
    rw [List.filter_cons_of_pos (tied_of_eq rfl), List.filter_cons_of_pos same, List.filter_nil]
  have stable := ranks.stable a
  constructor
  · intro sublist
    have among := sublist.filter (tied state a)
    rw [kept, stable] at among
    exact among.trans List.filter_sublist
  · intro sublist
    have among := sublist.filter (tied state a)
    rw [kept, ← stable] at among
    exact among.trans List.filter_sublist

/-- The first plan of a ranking is worth no less than any other, and more than all that are given
before it. -/
theorem Ranks.exists_first (ranks : Ranks state plans (best :: rest)) :
    ∃ before after, plans = before ++ best :: after ∧
      (∀ plan ∈ plans, noWorse state best plan = true) ∧
      ∀ plan ∈ before, noWorse state plan best = false := by
  have greatest (plan : ScoredPlan) (member : plan ∈ plans) : noWorse state best plan = true := by
    rcases List.mem_cons.mp (ranks.perm.mem_iff.mpr member) with rfl | behind
    · exact noWorse_refl plan
    · exact List.rel_of_pairwise_cons ranks.sorted behind
  have first : plans.filter (tied state best) = best :: rest.filter (tied state best) := by
    rw [← ranks.stable, List.filter_cons_of_pos (tied_of_eq rfl)]
  obtain ⟨before, after, split, untied, -⟩ := List.filter_eq_cons_iff.mp first
  refine ⟨before, after, split, greatest, fun plan member => ?_⟩
  -- A plan that is given before and is no worse would be tied with the first.
  have noBetter := greatest plan (split ▸ List.mem_append_left _ member)
  simpa [tied, noBetter] using untied plan member

end ActionPlanning.Ranking
