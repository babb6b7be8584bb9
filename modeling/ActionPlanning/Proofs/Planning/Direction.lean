import ActionPlanning.Proofs.Planning.Answer
import ActionPlanning.Proofs.Planning.Pricing

/-!
# Both directions of search

What a search answers is the same in every direction, but for what is searched and for the order in
which the steps are put. A goal that holds already needs no search. Otherwise the actions are
priced in the state, and what the search ends with becomes a plan.

## Main definitions

* `Direction.find?`: the answer of a search for any prices.
* `Direction.posed`: the problem that a search sets out to solve.
* `Direction.Lawful`: what both directions have in common.

## Main results

* `Direction.find?_cases`: the two ways to find something.
* `Direction.value_search`, `Direction.value_search_eq_some_iff`: what is found becomes a plan.
-/

namespace ActionPlanning.Search.Direction

variable {α ε : Type}

/-- The search may end where it starts exactly if the goal holds, and all that is estimated are some
conditions. Where no action costs less than nothing, no move does. And no more keys can be reached
than the bound says. -/
structure Lawful (direction : Direction) : Prop where
  starts : ∀ {α ε : Type} {prices : List (Priced α)} {wanted facts : Conditions}
    {heuristic : Heuristic ε}, let problem := direction.problem prices wanted facts heuristic
      problem.isGoal problem.start = facts.satisfies wanted
  estimates : ∀ {α ε : Type} {prices : List (Priced α)} {wanted facts : Conditions}
    {heuristic : Heuristic ε} (key : Conditions),
      ∃ left, (direction.problem prices wanted facts heuristic).estimate key = heuristic left
  nonneg : ∀ {α ε : Type} [Zero α] [Add α] [LE α] {price : Action → α} {actions : List Action}
    {wanted facts : Conditions} {heuristic : Heuristic ε}, (∀ a ∈ actions, 0 ≤ price a) →
      (direction.problem (priced price actions) wanted facts heuristic).Nonneg
  bounded : ∀ {α ε : Type} [Zero α] [Add α] {price : Action → α} {actions : List Action}
    {wanted facts : Conditions} {heuristic : Heuristic ε},
      (direction.problem (priced price actions) wanted facts heuristic).Bounded

section

variable [Zero α] [Add α] [LE α] [DecidableLE α] [HAdd α ε ε] [Priority ε]

/-- The answer of the search for any prices. A goal that holds already needs no search. -/
def find? (direction : Direction) (heuristic : Heuristic ε) (budget : Option Nat)
    (price : Action → α) (actions : List Action) (wanted facts : Conditions) :
    Option (List Action × α) :=
  if facts.satisfies wanted then some ([], 0)
  else ((direction.problem (priced price actions) wanted facts heuristic).run budget).answer.map
    fun found => (direction.inOrder found.1, found.2)

variable {direction : Direction} {heuristic : Heuristic ε} {budget : Option Nat}
  {price : Action → α} {actions found : List Action} {wanted facts : Conditions} {cost : α}

/-- Nothing needs to be done where the goal holds; elsewhere what is found is what the search ends
with. -/
theorem find?_cases
    (answer : direction.find? heuristic budget price actions wanted facts = some (found, cost)) :
    (facts.satisfies wanted = true ∧ found = [] ∧ cost = 0) ∨
      facts.satisfies wanted = false ∧ ∃ steps, direction.inOrder steps = found ∧
        ((direction.problem (priced price actions) wanted facts heuristic).run budget).ending
          = .found steps cost := by
  rw [find?] at answer
  split at answer
  case isTrue holds =>
    obtain ⟨rfl, rfl⟩ := Prod.mk.inj (Option.some.inj answer)
    exact .inl ⟨holds, rfl, rfl⟩
  case isFalse fails =>
    obtain ⟨⟨steps, c⟩, before, same⟩ := Option.map_eq_some_iff.mp answer
    obtain ⟨rfl, rfl⟩ := Prod.mk.inj same
    exact .inr ⟨Bool.eq_false_iff.mpr fails, steps, rfl, Report.answer_eq_some_iff.mp before⟩

end

variable (direction : Direction) (heuristic : Heuristic ε) (budget : Option Nat)
  (actions : List Action) (goal : Goal) (state : WorldState)

/-- What is searched unless the goal holds already, with the actions priced in the state. -/
def posed : Problem Conditions Action Amount ε :=
  direction.problem (priceAll actions state).value goal.preconditions state.facts heuristic

variable [HAdd Amount ε ε] [Priority ε]

/-- The search answers with a plan for the prices in the state. -/
theorem value_search :
    (direction.search heuristic budget actions goal state).value
      = (direction.find? heuristic budget (·.costIn state) actions goal.preconditions
          state.facts).map fun found => ⟨goal, found.1, found.2⟩ := by
  -- With the run named, no step of the proof evaluates it.
  obtain ⟨run, named⟩ : ∃ run : List (Priced Amount) → Report Action Amount, ∀ prices, run prices
      = (direction.problem prices goal.preconditions state.facts heuristic).run budget :=
    ⟨_, fun _ => rfl⟩
  unfold search find? Goal.isSatisfied
  split
  case isTrue => rfl
  case isFalse =>
    simp only [← named]
    clear named
    rw [Recorded.value_bind, value_priceAll, Recorded.value_bind]
    split
    case h_1 ending =>
      rw [Report.answer_eq_some_iff.mpr ending]
      rfl
    case h_2 other =>
      rw [Report.answer_eq_none other]
      rfl

theorem answer_search :
    (direction.search heuristic budget actions goal state).value.map planAnswer
      = direction.find? heuristic budget (·.costIn state) actions goal.preconditions
          state.facts := by
  rw [value_search, Option.map_map]
  exact Option.map_id'

variable {direction heuristic budget actions goal state}

/-- A plan is the answer of the search exactly if it is what is found towards the goal. -/
theorem value_search_eq_some_iff {plan : Plan} :
    (direction.search heuristic budget actions goal state).value = some plan ↔
      plan.goal = goal ∧
        direction.find? heuristic budget (·.costIn state) actions goal.preconditions state.facts
          = some (plan.actions, plan.cost) := by
  rw [value_search, Option.map_eq_some_iff]
  constructor
  · rintro ⟨found, answer, rfl⟩
    exact ⟨rfl, answer⟩
  · rintro ⟨rfl, answer⟩
    exact ⟨_, answer, rfl⟩

end ActionPlanning.Search.Direction
