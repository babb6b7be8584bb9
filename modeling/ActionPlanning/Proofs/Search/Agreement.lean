import ActionPlanning.Proofs.Search.Walk

/-!
# Searches that agree

A search looks only at keys that it can reach. Two problems with the same start, the same goals and
the same estimates, whose moves are the same out of every key that can be reached, are searched in
lock step: turn by turn both searches come to the same arena. They may differ in their moves
elsewhere, and in the bounds on the number of their keys.

## Main definitions

* `Problem.Agrees`: two problems look the same from the start.

## Main results

* `Problem.Agrees.run_eq`: searches of such problems yield the same report.
-/

namespace ActionPlanning.Search.Problem

variable {κ σ α ε : Type} [Zero α] [Add α]

/-- Two problems look the same from the start. -/
structure Agrees (problem other : Problem κ σ α ε) : Prop where
  start : other.start = problem.start
  isGoal : other.isGoal = problem.isGoal
  estimate : other.estimate = problem.estimate
  moves : ∀ {key steps cost}, problem.Walk problem.start 0 key steps cost →
    other.moves key = problem.moves key

namespace Agrees

variable [Ord κ] [LE α] [DecidableLE α] [HAdd α ε ε] [Priority ε] {problem other : Problem κ σ α ε}
  {arena : Arena κ σ α ε} {expanded : List Nat} {index : Nat} {node : Node κ σ α}
  {budget : Option Nat}

theorem offer_eq (agrees : problem.Agrees other) :
    other.offer arena node = problem.offer arena node := by
  simp only [Problem.offer, agrees.estimate]

theorem init_eq (agrees : problem.Agrees other) : other.init = problem.init := by
  simp only [Problem.init, agrees.offer_eq, agrees.start]

theorem expand_eq {steps : List σ} {cost : α} (agrees : problem.Agrees other)
    (walk : problem.Walk problem.start 0 node.key steps cost) :
    other.expand arena index node = problem.expand arena index node := by
  simp only [Problem.expand, agrees.moves walk, agrees.offer_eq]

variable [Std.TransOrd κ] [Std.LawfulEqOrd κ] [LawfulPriority ε]

/-- From an arena that one search comes to, both go on alike. -/
theorem runWithin_eq (agrees : problem.Agrees other) (visits : problem.Visits arena expanded)
    (fuel expansions : Nat) :
    other.runWithin budget fuel arena expansions
      = problem.runWithin budget fuel arena expansions := by
  induction fuel generalizing arena expanded expansions with
  | zero => rfl
  | succ fuel ih =>
    rw [runWithin, runWithin, agrees.isGoal]
    split
    case h_1 => rfl
    case h_2 index node rest next =>
      by_cases goal : problem.isGoal node.key = true
      · simp only [goal, if_true]
      · -- The node that is handed out stands at the end of a walk, so both expand it alike.
        have notGoal := Bool.eq_false_iff.mpr goal
        obtain ⟨-, out⟩ := visits.grown.consistent.next?_eq_some next
        rw [agrees.expand_eq (visits.grown.walk out.found), ih (visits.expand next notGoal)]

/-- Searches of problems that agree yield the same report. -/
theorem run_eq (agrees : problem.Agrees other)
    (unlimited : (problem.run budget).ending ≠ .unbounded)
    (unlimitedOther : (other.run budget).ending ≠ .unbounded) :
    other.run budget = problem.run budget := by
  unfold run at *
  rw [agrees.init_eq, agrees.runWithin_eq .init] at *
  -- The bounds on the number of keys may differ, but neither search comes to its bound.
  rcases Nat.le_total problem.fuel other.fuel with le | le
  · exact runWithin_of_le le unlimited
  · exact (runWithin_of_le le unlimitedOther).symm

end Agrees

end ActionPlanning.Search.Problem
