import ActionPlanning.Proofs.Planning.Forward
import ActionPlanning.Proofs.Planning.Regression

/-!
# What a budget changes

A budget limits how many nodes a search may expand. It changes nothing about the turns that a search
takes: a search with a budget goes on like one without until it would expand one node too many, and
gives up there. So a budget that suffices for all expansions makes no difference at all, and any
other leaves no plan. The node that ends a search is handed out but not expanded, so it is not
counted, and neither are nodes that are passed over.

## Main definitions

* `Report.limited`: what becomes of a report under a budget.
* `OnlyCutsShort`: what a budget does to a search.
* `Direction.expansions`: how many nodes a search without a budget expands.
* `Direction.Counts`: what that means of the search.

## Main results

* `Problem.run_some`: the report of a search with a budget.
* `Problem.exists_ends_run_none`: what the report of a search without a budget counts.
* `Direction.onlyCutsShort`: what a budget does to a search in either direction.
* `budget_only_cuts_short`: what a budget does to both searches.
-/

namespace ActionPlanning.Search

variable {κ σ α ε : Type}

/-- A report under a budget: the same if no more nodes were expanded, and having given up with the
first node too many otherwise. -/
def Report.limited (report : Report σ α) (budget : Nat) : Report σ α :=
  if report.expansions ≤ budget then report else ⟨.gaveUp budget, budget + 1⟩

theorem Report.limited_of_le {report : Report σ α} {budget : Nat}
    (enough : report.expansions ≤ budget) : report.limited budget = report :=
  if_pos enough

theorem Report.limited_of_lt {report : Report σ α} {budget : Nat}
    (short : budget < report.expansions) : report.limited budget = ⟨.gaveUp budget, budget + 1⟩ :=
  if_neg (Nat.not_le.mpr short)

namespace Problem

variable [Ord κ] [Add α] [LE α] [DecidableLE α] [HAdd α ε ε] [Priority ε]
  {problem : Problem κ σ α ε} {arena : Arena κ σ α ε} {fuel expansions : Nat}

/-- The expansions so far are among those of the report. -/
theorem le_expansions_runWithin (budget : Option Nat) :
    expansions ≤ (problem.runWithin budget fuel arena expansions).expansions := by
  induction fuel generalizing arena expansions with
  | zero => exact Nat.le_refl _
  | succ fuel ih =>
    rw [runWithin]
    split
    case h_1 => exact Nat.le_refl _
    case h_2 =>
      split
      case isTrue => exact Nat.le_refl _
      case isFalse =>
        split
        case h_1 => exact Nat.le_succ _
        case h_2 => exact Nat.le_of_succ_le ih

/-- From wherever the budget is not exceeded yet, a search with a budget reports what the search
without one does, under that budget. -/
theorem runWithin_some {budget : Nat} (within : expansions ≤ budget) :
    problem.runWithin (some budget) fuel arena expansions
      = (problem.runWithin none fuel arena expansions).limited budget := by
  -- Both take the same turns until the next expansion is one too many.
  induction fuel generalizing arena expansions with
  | zero => exact (Report.limited_of_le within).symm
  | succ fuel ih =>
    rw [runWithin, runWithin]
    cases next : arena.next? with
    | none => exact (Report.limited_of_le within).symm
    | some handedOut =>
      obtain ⟨index, node, rest⟩ := handedOut
      cases goal : problem.isGoal node.key with
      | true =>
        simp only [goal, if_true]
        exact (Report.limited_of_le within).symm
      | false =>
        have unlimited : exceeded? none (expansions + 1) = none := rfl
        simp only [goal, unlimited, Bool.false_eq_true, if_false]
        rcases Nat.lt_or_eq_of_le within with more | rfl
        · have unexceeded : exceeded? (some budget) (expansions + 1) = none := by
            simpa [exceeded?] using Nat.succ_le_of_lt more
          simp only [unexceeded]
          exact ih more
        · have exceeded : exceeded? (some expansions) (expansions + 1) = some expansions := by
            simp [exceeded?]
          simp only [exceeded]
          exact (Report.limited_of_lt (le_expansions_runWithin none)).symm

/-- A search with a budget reports what the search without one does, under that budget. -/
theorem run_some [Zero α] (problem : Problem κ σ α ε) (budget : Nat) :
    problem.run (some budget) = (problem.run none).limited budget :=
  runWithin_some (Nat.zero_le budget)

/-- The expansions that a search without a budget reports are the nodes that it has expanded on the
way to the arena in which it ends. -/
theorem exists_ends_run_none [Zero α] (problem : Problem κ σ α ε) :
    ∃ last expanded, problem.Visits last expanded ∧
      problem.Ends none problem.fuel last expanded (problem.run none) ∧
      (problem.run none).expansions = expanded.length := by
  obtain ⟨last, expanded, visits, ends⟩ := run_ends problem none
  refine ⟨last, expanded, visits, ends, ?_⟩
  generalize problem.run none = report at ends ⊢
  cases ends with
  | gaveUp _ _ exceeded => simp [exceeded?] at exceeded
  | found => rfl
  | exhausted => rfl
  | unbounded => rfl

/-- A search that may not end where it starts, but finds something, has expanded a node. -/
theorem Ends.expanded_ne_nil [Zero α] [Std.TransOrd κ] [Std.LawfulEqOrd κ] [LawfulPriority ε]
    {budget : Option Nat} {expanded : List Nat} {report : Report σ α} {steps : List σ} {cost : α}
    (ends : problem.Ends budget fuel arena expanded report)
    (visits : problem.Visits arena expanded) (fails : problem.isGoal problem.start = false)
    (found : report.ending = .found steps cost) : expanded ≠ [] := by
  rintro rfl
  cases ends with
  | @found index node rest next goal =>
    -- The only node there is before the first expansion is the start.
    obtain ⟨-, out⟩ := visits.grown.consistent.next?_eq_some next
    have isStart := out.found
    cases visits
    rw [init_eq, Arena.nodes_enter] at isStart
    split at isStart
    case isTrue =>
      obtain rfl := Option.some.inj isStart
      exact Bool.noConfusion (goal.symm.trans fails)
    case isFalse => simp [Arena.empty] at isStart
  | exhausted => cases found
  | gaveUp => cases found
  | unbounded => cases found

end Problem

/-! ## Both searches -/

/-- What a budget does to a search that expands this many nodes without one. -/
structure OnlyCutsShort (search : Option Nat → Recorded (Option Plan)) (expansions : Nat) :
    Prop where
  /-- A budget that suffices changes neither the plan nor the journal. -/
  enough : ∀ {budget : Nat}, expansions ≤ budget → search (some budget) = search none
  /-- With any other budget no plan is found. -/
  short : ∀ {budget : Nat}, budget < expansions → (search (some budget)).value = none
  /-- The plan that is found with some budget is found with any larger one, and with none. -/
  kept : ∀ {budget : Nat} {plan : Plan}, (search (some budget)).value = some plan →
    (search none).value = some plan ∧
      ∀ larger, budget ≤ larger → (search (some larger)).value = some plan

/-- A search that answers by its report, with no plan where it gave up, is only cut short by a
budget that limits the report. -/
theorem OnlyCutsShort.of_run {search : Option Nat → Recorded (Option Plan)}
    {run : Option Nat → Report Action Amount}
    {answer : Report Action Amount → Recorded (Option Plan)}
    (answers : ∀ budget, search budget = answer (run budget))
    (noPlan : ∀ budget, (answer ⟨.gaveUp budget, budget + 1⟩).value = none)
    (limited : ∀ budget, run (some budget) = (run none).limited budget) :
    OnlyCutsShort search (run none).expansions := by
  have enough {budget : Nat} (all : (run none).expansions ≤ budget) :
      search (some budget) = search none := by
    rw [answers, answers, limited, Report.limited_of_le all]
  have short {budget : Nat} (exceeded : budget < (run none).expansions) :
      (search (some budget)).value = none := by
    rw [answers, limited, Report.limited_of_lt exceeded, noPlan]
  refine ⟨enough, short, fun {budget plan} found => ?_⟩
  -- A budget with which a plan is found was not exceeded.
  have all : (run none).expansions ≤ budget :=
    Nat.not_lt.mp fun exceeded => nomatch (short exceeded).symm.trans found
  rw [enough all] at found
  exact ⟨found, fun larger more => (enough (Nat.le_trans all more)).symm ▸ found⟩

/-- A search that does not depend on the budget is not cut short. -/
theorem OnlyCutsShort.of_const (outcome : Recorded (Option Plan)) :
    OnlyCutsShort (fun _ => outcome) 0 where
  enough _ := rfl
  short less := absurd less (Nat.not_lt_zero _)
  kept found := ⟨found, fun _ _ => found⟩

namespace Direction

variable [HAdd Amount ε ε] [Priority ε] (direction : Direction) (heuristic : Heuristic ε)
  (actions : List Action) (goal : Goal) (state : WorldState)

/-- The number of nodes that a search expands without a budget. A goal that holds already needs no
search. -/
def expansions : Nat :=
  if goal.isSatisfied state.facts then 0
  else ((direction.posed heuristic actions goal state).run none).expansions

/-- What the expansions of a search without a budget count: nothing if the goal holds already, and
otherwise the nodes that are expanded on the way to the arena in which the search ends. -/
structure Counts (expansions : Nat) : Prop where
  idle : goal.isSatisfied state.facts = true → expansions = 0
  visited : goal.isSatisfied state.facts = false →
    ∃ last expanded, (direction.posed heuristic actions goal state).Visits last expanded ∧
      (direction.posed heuristic actions goal state).Ends none
        (direction.posed heuristic actions goal state).fuel last expanded
        ((direction.posed heuristic actions goal state).run none) ∧
      expansions = expanded.length

theorem counts_expansions :
    direction.Counts heuristic actions goal state
      (direction.expansions heuristic actions goal state) := by
  refine ⟨fun holds => if_pos holds, fun fails => ?_⟩
  rw [expansions, if_neg (Bool.eq_false_iff.mp fails)]
  exact (direction.posed heuristic actions goal state).exists_ends_run_none

/-- How a search answers, once it has come to its end: with the line that its report leaves in the
journal, and with the plan made of what was found. -/
def answerBy (report : Report Action Amount) : Recorded (Option Plan) := do
  let _ ← priceAll actions state
  Recorded.notes (report.events direction.name goal.name)
  match report.ending with
  | .found steps cost => return some ⟨goal, direction.inOrder steps, cost⟩
  | _ => return none

section

variable {direction heuristic actions goal state} {budget : Option Nat} {plan : Plan}
  [LawfulPriority ε]

/-- A search that has to do something to come by a plan expands a node. -/
theorem expanded_ne_nil (lawful : direction.Lawful) (fails : goal.isSatisfied state.facts = false)
    (value : (direction.search heuristic budget actions goal state).value = some plan)
    {last : Arena Conditions Action Amount ε} {expanded : List Nat} {fuel : Nat}
    (visits : (direction.posed heuristic actions goal state).Visits last expanded)
    (ends : (direction.posed heuristic actions goal state).Ends budget fuel last expanded
      ((direction.posed heuristic actions goal state).run budget)) : expanded ≠ [] := by
  obtain ⟨-, answer⟩ := value_search_eq_some_iff.mp value
  obtain ⟨holds, -⟩ | ⟨-, steps, -, ending⟩ := find?_cases answer
  · exact Bool.noConfusion (holds.symm.trans fails)
  · rw [← value_priceAll] at ending
    exact ends.expanded_ne_nil visits (lawful.starts.trans fails) ending

theorem Counts.pos {expansions : Nat}
    (counts : direction.Counts heuristic actions goal state expansions)
    (lawful : direction.Lawful) (fails : goal.isSatisfied state.facts = false)
    (value : (direction.search heuristic none actions goal state).value = some plan) :
    0 < expansions := by
  obtain ⟨last, expanded, visits, ends, rfl⟩ := counts.visited fails
  exact List.length_pos_iff.mpr (expanded_ne_nil lawful fails value visits ends)

end

theorem onlyCutsShort :
    OnlyCutsShort (direction.search heuristic · actions goal state)
      (direction.expansions heuristic actions goal state) := by
  unfold search expansions
  split
  case isTrue => exact .of_const _
  case isFalse =>
    have limited := (direction.posed heuristic actions goal state).run_some
    -- With the run named, no step of the proof evaluates it.
    obtain ⟨run, named⟩ : ∃ run : List (Priced Amount) → Option Nat → Report Action Amount,
        ∀ prices budget, run prices budget
          = (direction.problem prices goal.preconditions state.facts heuristic).run budget :=
      ⟨_, fun _ _ => rfl⟩
    unfold posed at limited ⊢
    simp only [← named] at limited ⊢
    clear named
    have noPlan (budget : Nat) :
        (direction.answerBy actions goal state ⟨.gaveUp budget, budget + 1⟩).value = none := rfl
    exact .of_run (fun _ => rfl) noPlan limited

end Direction

/-- With a budget for all the nodes that a search expands without one, both searches end as they do
without one; with a smaller one they find no plan. So a plan that is found with some budget is found
with any larger one, and without one. -/
theorem budget_only_cuts_short [HAdd Amount ε ε] [Priority ε] (heuristic : Heuristic ε)
    (actions : List Action) (goal : Goal) (state : WorldState) :
    (regression.Counts heuristic actions goal state
        (regression.expansions heuristic actions goal state) ∧
      OnlyCutsShort (regression.search heuristic · actions goal state)
        (regression.expansions heuristic actions goal state)) ∧
    forward.Counts heuristic actions goal state
        (forward.expansions heuristic actions goal state) ∧
      OnlyCutsShort (forward.search heuristic · actions goal state)
        (forward.expansions heuristic actions goal state) := by
  refine ⟨⟨?_, ?_⟩, ?_, ?_⟩
  · exact regression.counts_expansions heuristic actions goal state
  · exact regression.onlyCutsShort heuristic actions goal state
  · exact forward.counts_expansions heuristic actions goal state
  · exact forward.onlyCutsShort heuristic actions goal state

open LockedDoor in
/-- The way through the locked door takes some expansions. With a budget for them both searches find
it, and with any smaller one they do not. -/
theorem budget_only_cuts_short_lockedDoor :
    (∃ expansions plan, 0 < expansions ∧
      regression.Counts .zero [openDoor, fetchKey] enter outside expansions ∧
      (regression.search .zero (some expansions) [openDoor, fetchKey] enter outside).value
        = some plan ∧
      ∀ budget < expansions,
        (regression.search .zero (some budget) [openDoor, fetchKey] enter outside).value = none) ∧
    ∃ expansions plan, 0 < expansions ∧
      forward.Counts .zero [openDoor, fetchKey] enter outside expansions ∧
      (forward.search .zero (some expansions) [openDoor, fetchKey] enter outside).value
        = some plan ∧
      ∀ budget < expansions,
        (forward.search .zero (some budget) [openDoor, fetchKey] enter outside).value = none := by
  have fails : enter.isSatisfied outside.facts = false := by decide +kernel
  obtain ⟨backward, foundBackward⟩ := Regression.exists_plan listed_enter completeChain_enter
  obtain ⟨onward, foundOnward⟩ := Forward.exists_plan listed_enter reaches_enter
  obtain ⟨⟨counts, cuts⟩, countsForward, cutsForward⟩ :=
    budget_only_cuts_short .zero [openDoor, fetchKey] enter outside
  refine ⟨⟨_, backward, counts.pos Regression.lawful fails foundBackward, counts, ?_,
    fun _ less => cuts.short less⟩, _, onward,
    countsForward.pos Forward.lawful fails foundOnward, countsForward, ?_,
    fun _ less => cutsForward.short less⟩
  · exact (congrArg Recorded.value (cuts.enough (Nat.le_refl _))).trans foundBackward
  · exact (congrArg Recorded.value (cutsForward.enough (Nat.le_refl _))).trans foundOnward

end ActionPlanning.Search
