import ActionPlanning.Proofs.Search.Cheapest

/-!
# A search without estimates makes no detours

Some steps may be such that walks do just as well without them: a key reached with such steps is
no better than the key reached by the other steps alone. Leaving them out does not raise the cost,
but it need not lower it either, since steps can be free and added costs can get lost in rounding.
Still no such step is part of what a search without estimates finds. For whatever is reached by a
detour there is a node that came into the arena earlier, costs no more and is at least as good; it
is expanded first, since of nodes of equal cost the one that arrived first is handed out. So the
search ends there before it comes to a goal by a detour.

## Main definitions

* `Problem.Shortcuts`: walks do just as well without the steps that are not needed.
* `Direct`: a node is reached by needed steps alone.
* `Shadowed`: an earlier node is at least as good and costs no more.
* `Problem.Expands`: every node is direct or shadowed while the moves of one are offered.

## Main results

* `Problem.Visits.direct_or_shadowed`: every node is direct or shadowed.
* `Problem.run_found_needed`: a search without estimates finds needed steps alone.
-/

namespace ActionPlanning.Search

variable {κ σ α ε : Type}

/-- A node is reached from the start by needed steps alone. -/
inductive Direct (nodes : Array (Node κ σ α)) (needed : σ → Prop) : Nat → Prop
  | start {index : Nat} {node : Node κ σ α} :
    nodes[index]? = some node → node.origin = none → Direct nodes needed index
  | step {index before : Nat} {node : Node κ σ α} {step : σ} :
    nodes[index]? = some node → node.origin = some (before, step) → needed step →
    Direct nodes needed before → Direct nodes needed index

/-- An earlier node costs no more than a node at this index, and its key is at least as good. -/
def Shadowed [LE α] (nodes : Array (Node κ σ α)) (above : κ → κ → Prop) (index : Nat)
    (node : Node κ σ α) : Prop :=
  ∃ i < index, ∃ other, nodes[i]? = some other ∧ above other.key node.key ∧
    other.cost ≤ node.cost

section

variable {nodes later : Array (Node κ σ α)} {needed : σ → Prop} {index : Nat}

/-- Nodes that are added change nothing about the way to a node. -/
theorem Direct.mono (direct : Direct nodes needed index)
    (kept : ∀ {i : Nat} {n : Node κ σ α}, nodes[i]? = some n → later[i]? = some n) :
    Direct later needed index := by
  induction direct with
  | start found none => exact .start (kept found) none
  | step found origin need _ ih => exact .step (kept found) origin need ih

/-- What leads to a direct node are needed steps. -/
theorem Direct.needed_of_mem [Ord κ] {arena : Arena κ σ α α}
    (direct : Direct arena.nodes needed index) {fuel : Nat} {step : σ}
    (taken : step ∈ arena.stepsWithin fuel index) : needed step := by
  induction direct generalizing fuel with
  | start found none =>
    cases fuel <;> simp [Arena.stepsWithin, found, none] at taken
  | step found origin need _ ih =>
    cases fuel with
    | zero => simp [Arena.stepsWithin] at taken
    | succ fuel =>
      simp only [Arena.stepsWithin, found, origin, List.mem_cons] at taken
      rcases taken with rfl | taken
      · exact need
      · exact ih taken

theorem Shadowed.mono [LE α] {above : κ → κ → Prop} {node : Node κ σ α}
    (shadowed : Shadowed nodes above index node)
    (kept : ∀ {i : Nat} {n : Node κ σ α}, nodes[i]? = some n → later[i]? = some n) :
    Shadowed later above index node := by
  obtain ⟨i, before, other, found, better, le⟩ := shadowed
  exact ⟨i, before, other, kept found, better, le⟩

end

namespace Problem

/-- Walks do just as well without the steps that are not needed. A key above another is at least
as good: it stays so when such a step is taken from the other, and a needed step can be taken from
both, at the same cost. -/
structure Shortcuts (problem : Problem κ σ α ε) (needed : σ → Prop) (above : κ → κ → Prop) :
    Prop where
  refl : ∀ key, above key key
  skip : ∀ {upper key move}, above upper key → move ∈ problem.moves key → ¬ needed move.step →
    above upper move.key
  follow : ∀ {upper key move}, above upper key → move ∈ problem.moves key → needed move.step →
    ∃ same ∈ problem.moves upper, same.cost = move.cost ∧ above same.key move.key
  goal : ∀ {upper key}, above upper key → problem.isGoal key = true →
    problem.isGoal upper = true

variable [Zero α] [Add α] [LE α] [LawfulCost α] [Ord κ] [Std.TransOrd κ] [Std.LawfulEqOrd κ]
  [DecidableLE α] [Priority α] {problem : Problem κ σ α α} {arena rest : Arena κ σ α α}
  {expanded : List Nat} {index : Nat} {node : Node κ σ α} {needed : σ → Prop}
  {above : κ → κ → Prop}

/-- Every node is direct or shadowed so far, and one of them is being expanded: it is direct, or
some node that was expanded before is at least as good and costs no more. -/
structure Expands (problem : Problem κ σ α α) (needed : σ → Prop) (above : κ → κ → Prop)
    (arena : Arena κ σ α α) (expanded : List Nat) (index : Nat) (node : Node κ σ α) : Prop where
  consistent : arena.Consistent
  closed : problem.Closed arena expanded
  found : arena.nodes[index]? = some node
  led : Direct arena.nodes needed index ∨ ∃ i ∈ expanded, ∃ other,
    arena.nodes[i]? = some other ∧ above other.key node.key ∧ other.cost ≤ node.cost
  known : ∀ {i : Nat} {n : Node κ σ α}, arena.nodes[i]? = some n →
    Direct arena.nodes needed i ∨ Shadowed arena.nodes above i n

section

variable {move : Move κ σ α}

omit [Std.TransOrd κ] [Std.LawfulEqOrd κ] in
/-- What a move leads to is reached by needed steps alone, or an earlier node is at least as good
and costs no more. -/
theorem Expands.nodeAfter (expands : problem.Expands needed above arena expanded index node)
    (shortcuts : problem.Shortcuts needed above) (nonneg : problem.Nonneg)
    (member : move ∈ problem.moves node.key) :
    Direct arena.nodes needed index ∧ needed move.step ∨
      Shadowed arena.nodes above arena.nodes.size (nodeAfter index node move) := by
  have closed := expands.closed
  have inside {i : Nat} {n : Node κ σ α} (found : arena.nodes[i]? = some n) :
      i < arena.nodes.size := (Array.getElem?_eq_some_iff.mp found).1
  have nonnegMove := nonneg _ _ member
  have grows : node.cost ≤ node.cost + move.cost :=
    LawfulCost.le_add (closed.nonneg expands.found) nonnegMove
  by_cases need : needed move.step
  · rcases expands.led with direct | ⟨i, done, other, foundOther, better, le⟩
    · exact .inl ⟨direct, need⟩
    · -- The same step was offered from the other node, and whatever covers its key is earlier.
      obtain ⟨same, memberSame, sameCost, betterAfter⟩ := shortcuts.follow better member need
      obtain ⟨j, best, covered⟩ :=
        Arena.covers_iff.mp (closed.closed done foundOther memberSame)
      have atMost : other.cost + same.cost ≤ node.cost + move.cost := by
        rw [sameCost]
        exact LawfulCost.add_le_add (closed.nonneg foundOther) nonnegMove le
          (LawfulCost.le_rfl nonnegMove)
      refine .inr ⟨j, inside covered.found, best, covered.found, ?_,
        LawfulCost.le_trans (closed.nonneg covered.found) covered.le atMost⟩
      exact covered.key_eq expands.consistent ▸ betterAfter
  · rcases expands.led with direct | ⟨i, done, other, foundOther, better, le⟩
    · exact .inr ⟨index, inside expands.found, node, expands.found,
        shortcuts.skip (shortcuts.refl _) member need, grows⟩
    · exact .inr ⟨i, inside foundOther, other, foundOther, shortcuts.skip better member need,
        LawfulCost.le_trans (closed.nonneg foundOther) le grows⟩

variable [LawfulPriority α]

/-- Offering one move of the node keeps this. -/
theorem Expands.offer (expands : problem.Expands needed above arena expanded index node)
    (shortcuts : problem.Shortcuts needed above) (nonneg : problem.Nonneg)
    (member : move ∈ problem.moves node.key) :
    problem.Expands needed above (problem.offer arena (Problem.nodeAfter index node move))
      expanded index node where
  consistent := expands.consistent.offer
  closed := expands.closed.offer
    (LawfulCost.nonneg_add (expands.closed.nonneg expands.found) (nonneg _ _ member))
  found := nodes_offer_of_found expands.found
  led := expands.led.imp (·.mono nodes_offer_of_found)
    fun ⟨i, done, other, found, better⟩ => ⟨i, done, other, nodes_offer_of_found found, better⟩
  known {i n} found := by
    rcases Arena.getElem?_offer found with ⟨-, rfl, rfl⟩ | foundBefore
    · exact (expands.nodeAfter shortcuts nonneg member).imp
        (fun ⟨direct, need⟩ => .step found rfl need (direct.mono nodes_offer_of_found))
        (·.mono nodes_offer_of_found)
    · exact (expands.known foundBefore).imp (·.mono nodes_offer_of_found)
        (·.mono nodes_offer_of_found)

end

variable [LawfulPriority α] [CheapestFirst α] [FaithfulQueue α]

/-- When a shadowed node is handed out, some node was expanded that is at least as good and costs
no more. -/
theorem Visits.exists_above_of_shadowed (visits : problem.Visits arena expanded)
    (blind : problem.Blind) (nonneg : problem.Nonneg)
    (next : arena.next? = some (index, node, rest))
    (shadowed : Shadowed arena.nodes above index node) :
    ∃ i ∈ expanded, ∃ other, arena.nodes[i]? = some other ∧ above other.key node.key ∧
      other.cost ≤ node.cost := by
  have grown := visits.grown
  have closed := visits.closed nonneg
  obtain ⟨-, out⟩ := grown.consistent.next?_eq_some next
  obtain ⟨j, before, other, found, better, le⟩ := shadowed
  obtain ⟨i, best, covered⟩ := Arena.covers_iff.mp (closed.best found)
  have same := covered.key_eq grown.consistent
  have nonnegBest := closed.nonneg covered.found
  have nonnegNode := closed.nonneg out.found
  have leNode := LawfulCost.le_trans nonnegBest covered.le le
  have live := grown.consistent.live_of_record covered.recorded
  refine ⟨i, (grown.attended live).resolve_left fun waits => ?_, best, covered.found,
    same.symm ▸ better, leNode⟩
  -- If it still waited, it would be queued behind the node that is handed out, so it would have
  -- come in later, and cheaper than the earlier node of its key; but it does not cost less.
  have queued := FaithfulQueue.queued_of_le nonnegBest nonnegNode leNode
  have arrived := (visits.queued_of_waits next live waits covered.found).2
    (by rwa [blind, blind])
  have least := visits.le_of_waits_of_blind blind nonneg next live waits covered.found
  exact closed.falling (Nat.lt_of_lt_of_le before arrived) found covered.found same.symm
    (LawfulCost.le_trans (closed.nonneg found) le least)

/-- Every node is direct or shadowed. -/
theorem Visits.direct_or_shadowed (visits : problem.Visits arena expanded)
    (shortcuts : problem.Shortcuts needed above) (blind : problem.Blind)
    (nonneg : problem.Nonneg) {i : Nat} {n : Node κ σ α} (found : arena.nodes[i]? = some n) :
    Direct arena.nodes needed i ∨ Shadowed arena.nodes above i n := by
  induction visits generalizing i n with
  | init =>
    rw [init_eq, Arena.nodes_enter] at found
    rw [init_eq]
    split at found
    case isTrue first =>
      subst first
      exact .inl (.start Arena.nodes_enter_self rfl)
    case isFalse => simp [Arena.empty] at found
  | @expand arena rest expanded index node visits next notGoal ih =>
    obtain ⟨consistentRest, out⟩ := visits.grown.consistent.next?_eq_some next
    have start : problem.Expands needed above rest expanded index node := by
      refine ⟨consistentRest, (visits.closed nonneg).congr out.nodes out.record,
        out.nodes ▸ out.found, ?_, ?_⟩ <;> rw [out.nodes]
      · exact (ih out.found).imp_right (visits.exists_above_of_shadowed blind nonneg next)
      · exact ih
    have after :
        problem.Expands needed above (problem.expand rest index node) expanded index node :=
      expand_of_offer (problem.Expands needed above · expanded index node) start
        fun _ _ member expands => expands.offer shortcuts nonneg member
    exact after.known found

/-- What a search without estimates finds are needed steps alone. -/
theorem run_found_needed (shortcuts : problem.Shortcuts needed above) (blind : problem.Blind)
    (nonneg : problem.Nonneg) {budget : Option Nat} {steps : List σ} {cost : α}
    (found : (problem.run budget).ending = .found steps cost) {step : σ} (taken : step ∈ steps) :
    needed step := by
  obtain ⟨arena, expanded, visits, ends⟩ := run_ends problem budget
  generalize problem.run budget = report at ends found
  cases ends with
  | @found index node rest next goal =>
    obtain ⟨rfl, rfl⟩ : rest.stepsBack index = steps ∧ node.cost = cost := by simpa using found
    obtain ⟨-, out⟩ := visits.grown.consistent.next?_eq_some next
    rcases visits.direct_or_shadowed shortcuts blind nonneg out.found with direct | shadowed
    · rw [← out.nodes] at direct
      exact direct.needed_of_mem taken
    · -- The node that is at least as good would have ended the search when it was expanded.
      obtain ⟨i, done, other, foundOther, better, -⟩ :=
        visits.exists_above_of_shadowed blind nonneg next shadowed
      obtain ⟨n, foundAgain, notGoal⟩ := visits.grown.passed done
      obtain rfl := Option.some.inj (foundOther.symm.trans foundAgain)
      exact Bool.noConfusion ((shortcuts.goal better goal).symm.trans notGoal)
  | exhausted => cases found
  | gaveUp => cases found
  | unbounded => cases found

end Problem

end ActionPlanning.Search
