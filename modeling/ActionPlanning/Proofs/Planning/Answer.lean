import ActionPlanning.Proofs.Search.Cheapest
import ActionPlanning.Search.Algorithm

/-!
# Answers of a search

Both searches of this library answer with actions and a cost, or with nothing. This file says what
it means that such an answer is a cheapest one among candidate sequences, and shows it of every
search with consistent estimates whose walks to a goal are the candidates.

## Main definitions

* `Report.answer`: the actions and the cost that a search ends with.
* `Cheapest`: what it means that an answer is a cheapest candidate.

## Main results

* `Cheapest.of_run`: a search with consistent estimates answers with a cheapest walk to a goal.
-/

namespace ActionPlanning.Search

variable {κ α : Type}

/-- The actions and the cost that a search ends with, if it finds any. -/
def Report.answer (report : Report Action α) : Option (List Action × α) :=
  match report.ending with
  | .found steps cost => some (steps, cost)
  | _ => none

/-- The actions of a plan and its cost. -/
def planAnswer (plan : Plan) : List Action × Amount := (plan.actions, plan.cost)

theorem Report.answer_eq_some_iff {report : Report Action α} {steps : List Action} {cost : α} :
    report.answer = some (steps, cost) ↔ report.ending = .found steps cost := by
  rw [answer]
  split
  case h_1 ending => simp [ending]
  case h_2 other => exact ⟨nofun, fun ending => (other steps cost ending).elim⟩

theorem Report.answer_eq_none {report : Report Action α}
    (other : ∀ steps cost, report.ending ≠ .found steps cost) : report.answer = none := by
  rw [answer]
  split
  case h_1 ending => exact absurd ending (other _ _)
  case h_2 => rfl

/-- An answer is a cheapest candidate: there is none only if there is no candidate at all, and
otherwise it is a candidate at its cost, and no candidate costs less. -/
structure Cheapest [LE α] (candidate : List Action → Prop) (cost : List Action → α)
    (answer : Option (List Action × α)) : Prop where
  none_iff : answer = none ↔ ∀ actions, ¬ candidate actions
  sound : ∀ {actions c}, answer = some (actions, c) → candidate actions ∧ c = cost actions
  least : ∀ {actions c}, answer = some (actions, c) →
    ∀ other, candidate other → c ≤ cost other

namespace Cheapest

variable [LE α] {candidate : List Action → Prop} {cost : List Action → α}
  {answer : Option (List Action × α)}

theorem exists_answer (cheapest : Cheapest candidate cost answer) {actions : List Action}
    (member : candidate actions) : ∃ found c, answer = some (found, c) ∧ c ≤ cost actions := by
  match answer with
  | none => exact absurd member (cheapest.none_iff.mp rfl actions)
  | some (found, c) => exact ⟨found, c, rfl, cheapest.least rfl actions member⟩

/-- The least cost stays the same without candidates that are not answered. -/
theorem map_cost_eq {fewer : List Action → Prop} {answerFewer : Option (List Action × α)}
    (cheapest : Cheapest candidate cost answer) (cheapestFewer : Cheapest fewer cost answerFewer)
    (among : ∀ actions, fewer actions → candidate actions)
    (kept : ∀ {actions c}, answer = some (actions, c) → fewer actions)
    (antisymm : ∀ first second, cost first ≤ cost second → cost second ≤ cost first →
      cost first = cost second) : answerFewer.map Prod.snd = answer.map Prod.snd := by
  cases found : answer with
  | none =>
    have never := cheapest.none_iff.mp found
    rw [cheapestFewer.none_iff.mpr fun actions member => never actions (among actions member)]
  | some pair =>
    obtain ⟨actions, c⟩ := pair
    obtain ⟨actionsFewer, d, foundFewer, le⟩ := cheapestFewer.exists_answer (kept found)
    obtain ⟨member, rfl⟩ := cheapestFewer.sound foundFewer
    have ge := cheapest.least found actionsFewer (among _ member)
    obtain ⟨-, rfl⟩ := cheapest.sound found
    rw [foundFewer, Option.map_some, Option.map_some, antisymm _ _ le ge]

/-- Any two cheapest answers among the same candidates have the same cost. -/
theorem map_cost_unique {answerToo : Option (List Action × α)}
    (cheapest : Cheapest candidate cost answer) (cheapestToo : Cheapest candidate cost answerToo)
    (antisymm : ∀ first second, cost first ≤ cost second → cost second ≤ cost first →
      cost first = cost second) : answer.map Prod.snd = answerToo.map Prod.snd :=
  cheapestToo.map_cost_eq cheapest (fun _ => id) (fun found => (cheapestToo.sound found).1)
    antisymm

/-- The empty sequence is a cheapest candidate if it is one and costs nothing. -/
theorem of_nil [Zero α] (empty : candidate []) (free : cost [] = 0)
    (nonneg : ∀ actions, candidate actions → 0 ≤ cost actions) :
    Cheapest candidate cost (some ([], 0)) where
  none_iff := ⟨nofun, fun never => absurd empty (never [])⟩
  sound found := by
    obtain ⟨rfl, rfl⟩ := Prod.mk.inj (Option.some.inj found)
    exact ⟨empty, free.symm⟩
  least found other member := by
    obtain ⟨rfl, rfl⟩ := Prod.mk.inj (Option.some.inj found)
    exact nonneg other member

/-- Reading the candidates in an order that gives them back when it is taken twice. -/
theorem inOrder {order : List Action → List Action}
    (twice : ∀ actions, order (order actions) = actions)
    (cheapest : Cheapest (fun steps => candidate (order steps)) (fun steps => cost (order steps))
      answer) :
    Cheapest candidate cost (answer.map fun found => (order found.1, found.2)) where
  none_iff := by
    rw [Option.map_eq_none_iff, cheapest.none_iff]
    exact ⟨fun never actions => twice actions ▸ never (order actions),
      fun never actions => never (order actions)⟩
  sound found := by
    obtain ⟨⟨steps, c⟩, before, same⟩ := Option.map_eq_some_iff.mp found
    obtain ⟨rfl, rfl⟩ := Prod.mk.inj same
    exact cheapest.sound before
  least found other member := by
    obtain ⟨⟨steps, c⟩, before, same⟩ := Option.map_eq_some_iff.mp found
    obtain ⟨rfl, rfl⟩ := Prod.mk.inj same
    have least := cheapest.least before (order other)
    rw [twice] at least
    exact least member

variable [Zero α] [Add α] [DecidableLE α] [Priority α] [LawfulCost α] [LawfulPriority α]
  [CheapestFirst α] [Ord κ] [Std.TransOrd κ] [Std.LawfulEqOrd κ] {problem : Problem κ Action α α}

/-- A search with consistent estimates and without a budget answers with a cheapest walk to a
goal. -/
theorem of_run (consistent : problem.Consistent) (nonneg : problem.Nonneg)
    (bounded : problem.Bounded)
    (walks : ∀ steps c, (∃ key, problem.isGoal key = true ∧
      problem.Walk problem.start 0 key steps c) ↔ candidate steps ∧ c = cost steps) :
    Cheapest candidate cost (problem.run none).answer := by
  -- Candidates are walks to a goal, so this is what such a search comes to.
  rcases Problem.run_consistent consistent nonneg bounded with
    ⟨steps, c, ending, least⟩ | ⟨ending, never⟩
  · have answer := Report.answer_eq_some_iff.mpr ending
    refine ⟨?_, fun found => ?_, fun found other member => ?_⟩
    · rw [answer]
      have member := ((walks steps c).mp (Problem.run_found ending)).1
      exact ⟨nofun, fun never => absurd member (never steps)⟩
    · exact (walks _ _).mp (Problem.run_found (Report.answer_eq_some_iff.mp found))
    · obtain ⟨rfl, rfl⟩ := Prod.mk.inj (Option.some.inj (answer.symm.trans found))
      obtain ⟨key, goal, walk⟩ := (walks other _).mpr ⟨member, rfl⟩
      exact least key other _ goal walk
  · have answer : (problem.run none).answer = none := by rw [Report.answer, ending]
    refine ⟨⟨fun _ steps member => ?_, fun _ => answer⟩, fun found => ?_, fun found => ?_⟩
    · obtain ⟨key, goal, walk⟩ := (walks steps _).mpr ⟨member, rfl⟩
      exact Bool.noConfusion (goal.symm.trans (never key steps _ walk))
    · exact nomatch answer.symm.trans found
    · exact nomatch answer.symm.trans found

end Cheapest

end ActionPlanning.Search
