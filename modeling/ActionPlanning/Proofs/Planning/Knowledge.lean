import ActionPlanning.Proofs.Amount.Totals
import ActionPlanning.Proofs.Planning.Forward

/-!
# Planning with more knowledge

A state knows more than another one if it satisfies all of its facts; what it has besides are values
of keys that are not set in the other. An unset key satisfies nothing, so no action and no goal can
ask for a key not to be known. Hence every run of the lesser state is a run of the greater one: each
action leaves the one state knowing more than the other again, whether it overwrites what only the
greater state knows or carries it along. Where prices do not depend on what is known, the run costs
the same, and forward search finds none that costs more.

## Main results

* `WorldState.Reaches.of_satisfies`: runs lead to the goal from a state that knows more.
* `Forward.search_with_more_facts`: forward search does no worse from there.
-/

namespace ActionPlanning

namespace WorldState

variable {state other : WorldState} {wanted : Conditions} {run : List Action} {a : Action}

/-- What an action leaves of a state that knows more knows more than what it leaves of the other. -/
theorem applyTo_satisfies (more : other.facts.satisfies state.facts = true) :
    (a.applyTo other).facts.satisfies (a.applyTo state).facts = true :=
  Conditions.apply_satisfies_apply more a.effects

/-- A run that leads to what is wanted leads there from every state that knows more. -/
theorem Reaches.of_satisfies (more : other.facts.satisfies state.facts = true)
    (reaches : state.Reaches wanted run) : other.Reaches wanted run := by
  induction run generalizing state other with
  | nil =>
    rw [reaches_nil_iff] at reaches ⊢
    exact Conditions.satisfies_trans more reaches
  | cons a rest ih =>
    rw [reaches_cons_iff] at reaches ⊢
    obtain ⟨performable, reachesRest⟩ := reaches
    exact ⟨Conditions.satisfies_trans more performable, ih (applyTo_satisfies more) reachesRest⟩

end WorldState

/-- In front of the locked door, with the key at hand. -/
def LockedDoor.outsideWithKey : WorldState := ⟨.ofList [⟨"hasKey", .flag true⟩], default⟩

namespace Search

open LockedDoor

/-- Prices that are no higher add up to no more. -/
theorem costForward_mono {α : Type} [Zero α] [Add α] [LE α] [LawfulCost α]
    {price other : Action → α} {run : List Action} (nonneg : ∀ a ∈ run, 0 ≤ price a)
    (le : ∀ a ∈ run, price a ≤ other a) : costForward price run ≤ costForward other run := by
  suffices further : ∀ cost more : α, 0 ≤ cost → cost ≤ more →
      run.foldl (fun cost a => cost + price a) cost
        ≤ run.foldl (fun cost a => cost + other a) more from
    further 0 0 LawfulCost.zero_le_zero LawfulCost.zero_le_zero
  induction run with
  | nil => exact fun _ _ _ atMost => atMost
  | cons a rest ih =>
    intro cost more nonnegCost atMost
    obtain ⟨nonnegA, nonnegRest⟩ := List.forall_mem_cons.mp nonneg
    obtain ⟨leA, leRest⟩ := List.forall_mem_cons.mp le
    exact ih nonnegRest leRest _ _ (LawfulCost.nonneg_add nonnegCost nonnegA)
      (LawfulCost.add_le_add nonnegCost nonnegA atMost leA)

namespace Forward

/-- If forward search without estimates and without a budget finds a plan in one state, it finds one
in every state that knows more and where the actions are priced the same, at no higher cost. -/
theorem search_with_more_facts {actions : List Action} {goal : Goal} {state other : WorldState}
    (more : other.facts.satisfies state.facts = true)
    (samePrices : ∀ a ∈ actions, (a.costIn state == a.costIn other) = true) {plan : Plan}
    (found : (forward.search .zero none actions goal state).value = some plan) :
    ∃ better, (forward.search .zero none actions goal other).value = some better ∧
      better.cost ≤ plan.cost := by
  have answer : (forward.search .zero none actions goal state).value.map planAnswer
      = some (plan.actions, plan.cost) := congrArg (Option.map planAnswer) found
  obtain ⟨⟨listed, reaches⟩, cost⟩ := (search_cheapest actions goal state).sound answer
  -- The same actions are a run from the other state, and cost no more there.
  obtain ⟨run, c, answerOther, least⟩ :=
    (search_cheapest actions goal other).exists_answer ⟨listed, reaches.of_satisfies more⟩
  obtain ⟨-, costOther⟩ := (search_cheapest actions goal other).sound answerOther
  have nonneg (a : Action) := a.costIn_nonneg other
  have noMore : costForward (·.costIn other) plan.actions
      ≤ costForward (·.costIn state) plan.actions :=
    costForward_mono (fun a _ => nonneg a) fun a member =>
      Amount.le_of_beq (a.costIn_nonneg state) (nonneg a) (samePrices a (listed member))
  obtain ⟨better, foundOther, same⟩ := Option.map_eq_some_iff.mp answerOther
  obtain ⟨-, rfl⟩ := Prod.mk.inj same
  refine ⟨better, foundOther, ?_⟩
  rw [cost]
  exact LawfulCost.le_trans (costOther ▸ costForward_nonneg fun a _ => nonneg a) least noMore

/-- Whoever has the key already opens the door at no higher cost than whoever has to fetch it. -/
theorem search_with_more_facts_key :
    outsideWithKey.facts.satisfies outside.facts = true ∧
      (∀ a ∈ [fetchKey, openDoor], (a.costIn outside == a.costIn outsideWithKey) = true) ∧
      ∃ plan better,
        (forward.search .zero none [fetchKey, openDoor] enter outside).value = some plan ∧
        (forward.search .zero none [fetchKey, openDoor] enter outsideWithKey).value = some better ∧
        better.cost ≤ plan.cost := by
  have more : outsideWithKey.facts.satisfies outside.facts = true := rfl
  have samePrices (a : Action) (member : a ∈ [fetchKey, openDoor]) :
      (a.costIn outside == a.costIn outsideWithKey) = true := by
    rcases List.mem_pair.mp member with rfl | rfl <;> decide +kernel
  obtain ⟨plan, found⟩ := exists_plan (List.Subset.refl [fetchKey, openDoor]) reaches_enter
  obtain ⟨better, foundWithKey, le⟩ := search_with_more_facts more samePrices found
  exact ⟨more, samePrices, plan, better, found, foundWithKey, le⟩

end Forward

end Search

end ActionPlanning
