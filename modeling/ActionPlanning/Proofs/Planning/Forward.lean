import ActionPlanning.Proofs.Amount.Cost
import ActionPlanning.Proofs.Planning.Direction
import ActionPlanning.Proofs.Planning.Execution
import ActionPlanning.Proofs.Planning.Keys
import ActionPlanning.Proofs.Search.Trail
import ActionPlanning.Search.Forward

/-!
# What forward search finds

The walks of forward search are the runs of listed actions, and what it ends with is a run that
reaches the goal. With consistent estimates and without a budget it ends with a cheapest such run,
or with none if the goal is out of reach.

## Main results

* `Forward.walk_iff`: walks are runs.
* `Forward.find?_trail`: what is found lies on a trail from the start.
* `Forward.cheapest_of_consistent`: the answer is a cheapest run that reaches the goal.
-/

namespace ActionPlanning.Search.Forward

variable {α ε : Type}

section

variable {price : Action → α} {actions steps : List Action} {wanted facts imagined : Conditions}
  {heuristic : Heuristic ε} {move : Move Conditions Action α} {state : WorldState}

theorem mem_moves {prices : List (Priced α)} :
    move ∈ moves prices imagined ↔
      ∃ p ∈ prices, p.action.canPerform imagined = true ∧
        ⟨p.action, imagined.apply p.action.effects, p.cost⟩ = move := by
  simp only [moves, List.mem_filterMap, Option.ite_none_right_eq_some, Option.some.injEq]

/-- A walk of forward search is a run of listed actions, last action first, at its cost. -/
theorem walk_iff [Zero α] [Add α] {cost : α} :
    (problem (priced price actions) wanted state.facts heuristic).Walk state.facts 0 imagined
        steps cost ↔
      steps ⊆ actions ∧
        (∃ last, state.run? steps.reverse = some last ∧ last.facts = imagined) ∧
        cost = costForward price steps.reverse := by
  constructor
  · intro walk
    -- A walk grows by its last action, which stands first in its steps.
    induction walk with
    | stay => exact ⟨List.nil_subset _, ⟨state, rfl, rfl⟩, rfl⟩
    | step _ member ih =>
      obtain ⟨listed, ⟨last, run, rfl⟩, rfl⟩ := ih
      obtain ⟨p, tried, performable, rfl⟩ := mem_moves.mp member
      obtain ⟨listedP, sameCost⟩ := mem_priced.mp tried
      refine ⟨List.cons_subset.mpr ⟨listedP, listed⟩, ⟨p.action.applyTo last, ?_, rfl⟩, ?_⟩
      · rw [List.reverse_cons, WorldState.run?_concat, run]
        exact WorldState.step?_eq_some_iff.mpr ⟨performable, rfl⟩
      · rw [List.reverse_cons, costForward_concat, sameCost]
  · intro isRun
    obtain ⟨listed, ⟨last, run, rfl⟩, rfl⟩ := isRun
    induction steps generalizing last with
    | nil =>
      obtain rfl := Option.some.inj run
      exact .stay
    | cons a rest ih =>
      rw [List.reverse_cons] at run ⊢
      rw [WorldState.run?_concat] at run
      obtain ⟨before, runRest, step⟩ := Option.bind_eq_some_iff.mp run
      obtain ⟨performable, rfl⟩ := WorldState.step?_eq_some_iff.mp step
      obtain ⟨listedA, listedRest⟩ := List.cons_subset.mp listed
      have member : ⟨a, before.facts.apply a.effects, price a⟩ ∈
          moves (priced price actions) before.facts :=
        mem_moves.mpr ⟨⟨a, price a⟩, mem_priced.mpr ⟨listedA, rfl⟩, performable, rfl⟩
      rw [costForward_concat]
      exact .step (ih listedRest before runRest) member

theorem nonneg [Zero α] [LE α] [Add α] (nonneg : ∀ a ∈ actions, 0 ≤ price a) :
    (problem (priced price actions) wanted facts heuristic).Nonneg := by
  intro imagined move member
  obtain ⟨p, tried, -, rfl⟩ := mem_moves.mp member
  obtain ⟨listed, same⟩ := mem_priced.mp tried
  exact same ▸ nonneg p.action listed

/-- Whatever is imagined stems from the facts or from an effect. -/
theorem bounded [Zero α] [Add α] :
    (problem (priced price actions) wanted facts heuristic).Bounded := by
  refine Problem.bounded_of_inside (facts.entries ++
    (priced price actions).flatMap fun p => p.action.effects.entries) ?_ ?_ ?_
  · exact List.subset_append_left _ _
  · intro key inside move member
    obtain ⟨p, tried, -, rfl⟩ := mem_moves.mp member
    apply Conditions.entries_apply_subset inside
    exact fun e set => List.mem_append_right _ (List.mem_flatMap.mpr ⟨p, tried, set⟩)
  · rw [List.length_append]
    exact Nat.le_refl _

/-- What forward search adds to a search. -/
theorem lawful : forward.Lawful := ⟨rfl, fun _ => ⟨_, rfl⟩, nonneg, bounded⟩

end

variable [Zero α] [Add α] [LE α] [DecidableLE α] {budget : Option Nat} {price : Action → α}
  {actions found : List Action} {wanted : Conditions} {state : WorldState} {cost : α}

section

variable [HAdd α ε ε] [Priority ε] [LawfulPriority ε] {heuristic : Heuristic ε}

/-- Whatever is found is a run of listed actions that reaches the goal, at its cost, and empty
only where the goal holds. -/
theorem find?_sound
    (answer : forward.find? heuristic budget price actions wanted state.facts
      = some (found, cost)) :
    found ⊆ actions ∧ state.Reaches wanted found ∧
      cost = costForward price found ∧ (found = [] ↔ state.facts.satisfies wanted = true) := by
  rcases Direction.find?_cases answer with ⟨holds, rfl, rfl⟩ | ⟨fails, steps, rfl, ending⟩
  · exact ⟨List.nil_subset _, WorldState.reaches_nil_iff.mpr holds, rfl,
      ⟨fun _ => holds, fun _ => rfl⟩⟩
  · obtain ⟨imagined, satisfied, walk⟩ := Problem.run_found ending
    obtain ⟨listed, ⟨last, run, rfl⟩, sameCost⟩ := walk_iff.mp walk
    have reaches : state.Reaches wanted steps.reverse := ⟨last, run, satisfied⟩
    refine ⟨fun a member => listed (List.mem_reverse.mp member), reaches, sameCost,
      fun empty => ?_, fun holds => Bool.noConfusion (holds.symm.trans fails)⟩
    have empty : steps.reverse = [] := empty
    exact WorldState.reaches_nil_iff.mp (empty ▸ reaches)

/-- Whatever is found lies on a trail from the start, last action first. -/
theorem find?_trail [LawfulCost α] {facts : Conditions}
    (nonnegPrices : ∀ a ∈ actions, 0 ≤ price a)
    (answer : forward.find? heuristic budget price actions wanted facts = some (found, cost)) :
    ∃ imagined earlier, (problem (priced price actions) wanted facts heuristic).Trail imagined
      earlier found.reverse cost := by
  rcases Direction.find?_cases answer with ⟨-, rfl, rfl⟩ | ⟨-, steps, rfl, ending⟩
  · exact ⟨facts, [], .start⟩
  · obtain ⟨imagined, earlier, -, trail⟩ :=
      Problem.run_found_trail (nonneg nonnegPrices) ending
    exact ⟨imagined, earlier, steps.reverse_reverse.symm ▸ trail⟩

end

variable [Priority α] [LawfulPriority α] [LawfulCost α] [CheapestFirst α]

/-- With consistent estimates and without a budget, a cheapest run that reaches the goal is
found. -/
theorem cheapest_of_consistent {heuristic : Heuristic α} (nonnegPrices : ∀ a ∈ actions, 0 ≤ price a)
    (consistent : (problem (priced price actions) wanted state.facts heuristic).Consistent) :
    Cheapest (fun run => run ⊆ actions ∧ state.Reaches wanted run)
      (costForward price) (forward.find? heuristic none price actions wanted state.facts) := by
  rw [Direction.find?]
  split
  case isTrue holds =>
    refine .of_nil ⟨List.nil_subset _,
      WorldState.reaches_nil_iff.mpr holds⟩ rfl ?_
    intro run isRun
    exact costForward_nonneg fun a member => nonnegPrices a (isRun.1 member)
  case isFalse =>
    refine .inOrder List.reverse_reverse
      (.of_run consistent (nonneg nonnegPrices) bounded fun steps c => ?_)
    have turned : forward.inOrder steps = steps.reverse := rfl
    rw [turned, List.reverse_subset]
    constructor
    · intro walked
      obtain ⟨imagined, satisfied, walk⟩ := walked
      obtain ⟨listed, ⟨last, run, rfl⟩, sameCost⟩ := walk_iff.mp walk
      exact ⟨⟨listed, last, run, satisfied⟩, sameCost⟩
    · intro isRun
      obtain ⟨⟨listed, last, run, satisfied⟩, sameCost⟩ := isRun
      exact ⟨last.facts, satisfied, walk_iff.mpr ⟨listed, ⟨last, run, rfl⟩, sameCost⟩⟩

/-- Without estimates and without a budget, a cheapest run that reaches the goal is found. -/
theorem cheapest (nonnegPrices : ∀ a ∈ actions, 0 ≤ price a) :
    Cheapest (fun run => run ⊆ actions ∧ state.Reaches wanted run)
      (costForward price) (forward.find? (fun _ => 0) none price actions wanted state.facts) :=
  cheapest_of_consistent nonnegPrices
    (Problem.Blind.consistent (fun _ => rfl) (nonneg nonnegPrices))

/-- Without a heuristic and without a budget, a plan is found if a run reaches the goal. -/
theorem exists_plan {goal : Goal} {run : List Action} (listed : run ⊆ actions)
    (reaches : state.Reaches goal.preconditions run) :
    ∃ plan, (forward.search .zero none actions goal state).value = some plan := by
  obtain ⟨found, c, answer, -⟩ :=
    (cheapest fun a _ => a.costIn_nonneg state).exists_answer ⟨listed, reaches⟩
  exact ⟨_, (Direction.value_search ..).trans (congrArg (Option.map _) answer)⟩

/-- Without a heuristic and without a budget, forward search answers with a run of listed actions
that reaches the goal at the least cost, the prices added from the first action to the last; it has
no answer exactly if there is no such run. -/
theorem search_cheapest (actions : List Action) (goal : Goal) (state : WorldState) :
    Cheapest (fun run => run ⊆ actions ∧ state.Reaches goal.preconditions run)
      (costForward (·.costIn state))
      ((forward.search .zero none actions goal state).value.map planAnswer) := by
  rw [Direction.answer_search]
  exact cheapest fun a _ => a.costIn_nonneg state

end ActionPlanning.Search.Forward
