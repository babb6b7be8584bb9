import ActionPlanning.Proofs.Search.Arena
import ActionPlanning.Search.BestFirst

/-!
# Runs of a search

A run goes from arena to arena: it takes the next node, and if that node does not end the search,
it expands it. This file names the arenas a run can come to, together with the nodes expanded on
the way, and lists the four ways in which a run can end. Whatever is to be shown of a search is
shown of these arenas, by induction on how they were reached.

## Main definitions

* `Problem.Visits`: an arena is come to after expanding certain nodes.
* `Problem.Ends`: how a run ends in an arena.

## Main results

* `Problem.run_ends`: every run ends in one of the listed ways in an arena it came to.
* `Problem.runWithin_of_le`: allowing more expansions than were needed changes nothing.
-/

namespace ActionPlanning.Search

variable {κ σ α ε : Type} [Ord κ] [Add α] [LE α] [DecidableLE α] [HAdd α ε ε] [Priority ε]

namespace Problem

section

variable {problem : Problem κ σ α ε} {budget : Option Nat} {arena : Arena κ σ α ε}

/-- More expansions allowed than were needed change nothing. -/
theorem runWithin_of_le {fuel more expansions : Nat} (enough : fuel ≤ more)
    (bounded : (problem.runWithin budget fuel arena expansions).ending ≠ .unbounded) :
    problem.runWithin budget more arena expansions
      = problem.runWithin budget fuel arena expansions := by
  -- Both runs take the same turns, and the shorter one does not come to the end of its fuel.
  induction fuel generalizing more arena expansions with
  | zero => exact absurd rfl bounded
  | succ fuel ih =>
    obtain ⟨more, rfl⟩ := Nat.exists_eq_succ_of_ne_zero (Nat.ne_zero_of_lt enough)
    rw [runWithin] at bounded ⊢
    rw [runWithin]
    split
    case h_1 => rfl
    case h_2 index node rest next =>
      split
      case isTrue => rfl
      case isFalse notGoal =>
        simp only [next, notGoal] at bounded
        split
        case h_1 => rfl
        case h_2 unexceeded =>
          simp only [unexceeded] at bounded
          exact ih (Nat.le_of_succ_le_succ enough) (by simpa using bounded)

/-- What offering each move of a node keeps is kept by expanding the node. -/
theorem expand_of_offer {index : Nat} {node : Node κ σ α} (kept : Arena κ σ α ε → Prop)
    (start : kept arena)
    (offer : ∀ arena, ∀ move ∈ problem.moves node.key, kept arena →
      kept (problem.offer arena (nodeAfter index node move))) :
    kept (problem.expand arena index node) :=
  List.foldlRecOn _ _ start fun arena holds move member => offer arena move member holds

end

variable [Zero α]

/-- The search comes to an arena after expanding these nodes, the latest first. -/
inductive Visits (problem : Problem κ σ α ε) : Arena κ σ α ε → List Nat → Prop
  | init : problem.Visits problem.init []
  | expand {arena rest : Arena κ σ α ε} {expanded : List Nat} {index : Nat} {node : Node κ σ α} :
    problem.Visits arena expanded → arena.next? = some (index, node, rest) →
    problem.isGoal node.key = false →
    problem.Visits (problem.expand rest index node) (index :: expanded)

/-- How a run ends in an arena it came to: at a node that ends the search, with no node left, with
the budget exceeded by the next node, or with more expansions than it can need. -/
inductive Ends (problem : Problem κ σ α ε) (budget : Option Nat) (fuel : Nat)
    (arena : Arena κ σ α ε) (expanded : List Nat) : Report σ α → Prop
  | found {index : Nat} {node : Node κ σ α} {rest : Arena κ σ α ε} :
    arena.next? = some (index, node, rest) → problem.isGoal node.key = true →
    problem.Ends budget fuel arena expanded
      ⟨.found (rest.stepsBack index) node.cost, expanded.length⟩
  | exhausted : arena.next? = none →
    problem.Ends budget fuel arena expanded ⟨.exhausted, expanded.length⟩
  | gaveUp {index : Nat} {node : Node κ σ α} {rest : Arena κ σ α ε} {limit : Nat} :
    arena.next? = some (index, node, rest) → problem.isGoal node.key = false →
    exceeded? budget (expanded.length + 1) = some limit →
    problem.Ends budget fuel arena expanded ⟨.gaveUp limit, expanded.length + 1⟩
  | unbounded : expanded.length = fuel →
    problem.Ends budget fuel arena expanded ⟨.unbounded, expanded.length⟩

variable {problem : Problem κ σ α ε} {arena : Arena κ σ α ε} {expanded : List Nat}

theorem Visits.runWithin_ends (visits : problem.Visits arena expanded) (budget : Option Nat)
    (fuel : Nat) :
    ∃ last expandedLast, problem.Visits last expandedLast ∧
      problem.Ends budget (expanded.length + fuel) last expandedLast
        (problem.runWithin budget fuel arena expanded.length) := by
  -- Either the run ends in this arena, or it goes on in the next with less fuel.
  induction fuel generalizing arena expanded with
  | zero => exact ⟨arena, expanded, visits, .unbounded rfl⟩
  | succ fuel ih =>
    rw [runWithin]
    split
    case h_1 next => exact ⟨arena, expanded, visits, .exhausted next⟩
    case h_2 index node rest next =>
      split
      case isTrue goal => exact ⟨arena, expanded, visits, .found next goal⟩
      case isFalse notGoal =>
        have notGoal := Bool.eq_false_iff.mpr notGoal
        split
        case h_1 limit exceeded => exact ⟨arena, expanded, visits, .gaveUp next notGoal exceeded⟩
        case h_2 =>
          obtain ⟨last, expandedLast, visitsLast, ends⟩ := ih (visits.expand next notGoal)
          rw [List.length_cons, Nat.add_assoc, Nat.add_comm 1 fuel] at ends
          exact ⟨last, expandedLast, visitsLast, ends⟩

/-- Every run ends in one of the listed ways in an arena it came to. -/
theorem run_ends (problem : Problem κ σ α ε) (budget : Option Nat) :
    ∃ arena expanded, problem.Visits arena expanded ∧
      problem.Ends budget problem.fuel arena expanded (problem.run budget) := by
  have start : problem.Visits problem.init [] := .init
  have ends := start.runWithin_ends budget problem.fuel
  rwa [List.length_nil, Nat.zero_add] at ends

/-- A search without a budget does not give up. -/
theorem run_none_ne_gaveUp (problem : Problem κ σ α ε) (limit : Nat) :
    (problem.run none).ending ≠ .gaveUp limit := by
  obtain ⟨arena, expanded, -, ends⟩ := run_ends problem none
  generalize problem.run none = report at ends
  cases ends with
  | gaveUp _ _ exceeded => simp [exceeded?] at exceeded
  | found => simp
  | exhausted => simp
  | unbounded => simp

end Problem

end ActionPlanning.Search
