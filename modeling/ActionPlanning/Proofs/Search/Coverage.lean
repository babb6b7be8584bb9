import ActionPlanning.Proofs.Search.Cost
import ActionPlanning.Proofs.Search.Walk

/-!
# What a search has covered

A key is covered at a cost once it is on record at no higher cost. Keys stay covered, and expanding
a node covers whatever its moves lead to. So along every walk from the start there is either an
expanded node for its last key, or a live node that still waits for some key on the way; in both
cases at no higher cost than that of the walk. If nothing is left to expand, then every key that
can be reached was expanded, whatever was estimated.

## Main definitions

* `Problem.Nonneg`: no move has a negative cost.
* `Problem.Closed`: what costs add to the arenas that a search comes to.
* `Problem.Settled`, `Problem.Pending`: how far the search is on a walk.

## Main results

* `Problem.Visits.settled_or_pending`: every walk from the start is settled or pending.
* `Problem.run_exhausted`: a search that runs dry has seen all that can be reached.
-/

namespace ActionPlanning.Search

variable {κ σ α ε : Type} [Zero α] [Add α] [LE α]

namespace Problem

/-- No move has a negative cost. -/
def Nonneg (problem : Problem κ σ α ε) : Prop :=
  ∀ key, ∀ move ∈ problem.moves key, 0 ≤ move.cost

variable [LawfulCost α] {problem : Problem κ σ α ε}

/-- Walking on never lowers the cost. -/
theorem Walk.le {origin key : κ} {initial cost : α} {steps : List σ} (nonneg : problem.Nonneg)
    (walk : problem.Walk origin initial key steps cost) (start : 0 ≤ initial) :
    initial ≤ cost := by
  induction walk with
  | stay => exact LawfulCost.le_rfl start
  | step _ member ih =>
    have nonnegCost := LawfulCost.nonneg_trans start ih
    exact LawfulCost.le_trans start ih (LawfulCost.le_add nonnegCost (nonneg _ _ member))

variable [Ord κ] {arena : Arena κ σ α ε} {expanded : List Nat} {index : Nat} {node : Node κ σ α}

/-- A walk is settled once an expanded node covers its last key. -/
def Settled (arena : Arena κ σ α ε) (expanded : List Nat) (key : κ) (cost : α) : Prop :=
  ∃ i ∈ expanded, ∃ node, arena.CoveredBy key cost i node

/-- A walk is pending while a live node waits for a key on the way: the walk comes by there at no
lower cost, and goes on to its end. -/
structure Pending (problem : Problem κ σ α ε) (arena : Arena κ σ α ε) (key : κ) (steps : List σ)
    (cost : α) (index : Nat) (node : Node κ σ α) : Prop where
  live : arena.Live index
  waits : arena.Waits index
  found : arena.nodes[index]? = some node
  le : node.cost ≤ cost
  split : ∃ taken left reached, problem.Walk problem.start 0 node.key taken reached ∧
    node.cost ≤ reached ∧ problem.Walk node.key reached key left cost ∧ steps = left ++ taken

/-- A walk that is pending stays so when it goes on. -/
theorem Pending.step {key : κ} {steps : List σ} {cost : α} {move : Move κ σ α}
    (pending : problem.Pending arena key steps cost index node) (nonneg : 0 ≤ node.cost)
    (nonnegCost : 0 ≤ cost) (nonnegMove : 0 ≤ move.cost) (member : move ∈ problem.moves key) :
    problem.Pending arena move.key (move.step :: steps) (cost + move.cost) index node := by
  obtain ⟨taken, left, reached, before, atMost, after, rfl⟩ := pending.split
  refine ⟨pending.live, pending.waits, pending.found, ?_, taken, move.step :: left, reached,
    before, atMost, .step after member, rfl⟩
  exact LawfulCost.le_trans nonneg pending.le (LawfulCost.le_add nonnegCost nonnegMove)

/-- What costs add to an arena that a search comes to: no node has a negative cost, a later node of
a key costs less than an earlier one, every node is covered by the one on record, and so is
whatever the moves out of an expanded node lead to. -/
structure Closed [DecidableLE α] (problem : Problem κ σ α ε) (arena : Arena κ σ α ε)
    (expanded : List Nat) : Prop where
  inside : ∀ i ∈ expanded, i < arena.nodes.size
  nonneg : ∀ {i : Nat} {node : Node κ σ α}, arena.nodes[i]? = some node → 0 ≤ node.cost
  best : ∀ {i : Nat} {node : Node κ σ α}, arena.nodes[i]? = some node →
    arena.covers node.key node.cost = true
  falling : ∀ {i j : Nat} {node later : Node κ σ α}, i < j → arena.nodes[i]? = some node →
    arena.nodes[j]? = some later → node.key = later.key → ¬ node.cost ≤ later.cost
  closed : ∀ {i : Nat} {node : Node κ σ α} {move : Move κ σ α}, i ∈ expanded →
    arena.nodes[i]? = some node → move ∈ problem.moves node.key →
    arena.covers move.key (node.cost + move.cost) = true

variable [DecidableLE α] [HAdd α ε ε] [Priority ε] [Std.TransOrd κ] [Std.LawfulEqOrd κ]

/-- Offering a node covers its key and keeps covered what was. -/
theorem Closed.covers_offer (closed : problem.Closed arena expanded) (nonneg : 0 ≤ node.cost) :
    (problem.offer arena node).covers node.key node.cost = true ∧
      ∀ key cost, arena.covers key cost = true →
        (problem.offer arena node).covers key cost = true := by
  rw [Problem.offer, Arena.offer_eq]
  split
  case isTrue covered => exact ⟨covered, fun _ _ => id⟩
  case isFalse uncovered =>
    refine ⟨Arena.covers_iff.mpr ⟨arena.nodes.size, node, Arena.record_enter_self,
      Arena.nodes_enter_self, LawfulCost.le_rfl nonneg⟩, fun key cost covered => ?_⟩
    obtain ⟨i, best, covered⟩ := Arena.covers_iff.mp covered
    refine Arena.covers_iff.mpr (covered.exists_enter fun same => ?_)
    -- The node on record is not cheaper than the one that comes in.
    have higher : ¬ best.cost ≤ node.cost := fun le => uncovered (same ▸ covered.covers le)
    have lower := (LawfulCost.le_total (closed.nonneg covered.found) nonneg).resolve_left higher
    exact LawfulCost.le_trans nonneg lower covered.le

/-- Offering a node that does not cost less than nothing keeps this. -/
theorem Closed.offer (closed : problem.Closed arena expanded) (nonneg : 0 ≤ node.cost) :
    problem.Closed (problem.offer arena node) expanded := by
  obtain ⟨coversNode, keeps⟩ := closed.covers_offer nonneg
  refine ⟨fun i member => ?_, fun found => ?_, fun found => ?_,
    fun {i j n later} before found foundLater same => ?_, fun member found moves => ?_⟩
  · obtain ⟨old, found⟩ : ∃ old, arena.nodes[i]? = some old :=
      ⟨_, Array.getElem?_eq_getElem (closed.inside i member)⟩
    have kept : (problem.offer arena node).nodes[i]? = some old := nodes_offer_of_found found
    exact (Array.getElem?_eq_some_iff.mp kept).1
  · rcases Arena.getElem?_offer found with ⟨-, -, rfl⟩ | found
    · exact nonneg
    · exact closed.nonneg found
  · rcases Arena.getElem?_offer found with ⟨-, -, rfl⟩ | found
    · exact coversNode
    · exact keeps _ _ (closed.best found)
  · rcases Arena.getElem?_offer foundLater with ⟨uncovered, rfl, rfl⟩ | foundLater
    · -- What comes in is cheaper than the node on record, hence than any earlier one.
      rcases Arena.getElem?_offer found with ⟨-, rfl, -⟩ | found
      · exact absurd before (Nat.lt_irrefl _)
      · intro le
        obtain ⟨k, best, covered⟩ := Arena.covers_iff.mp (closed.best found)
        have lower := LawfulCost.le_trans (closed.nonneg covered.found) covered.le le
        exact Bool.eq_false_iff.mp uncovered (same ▸ covered.covers lower)
    · have bound := (Array.getElem?_eq_some_iff.mp foundLater).1
      rcases Arena.getElem?_offer found with ⟨-, rfl, -⟩ | found
      · exact absurd (before.trans bound) (Nat.lt_irrefl _)
      · exact closed.falling before found foundLater same
  · have before := Array.getElem?_eq_getElem (closed.inside _ member)
    have same := (nodes_offer_of_found before).symm.trans found
    rw [same] at before
    exact keeps _ _ (closed.closed member before moves)

/-- Offering several moves of a node covers what they lead to. -/
theorem Closed.offerAll {moves : List (Move κ σ α)} (closed : problem.Closed arena expanded)
    (found : arena.nodes[index]? = some node) (nonneg : ∀ move ∈ moves, 0 ≤ move.cost) :
    let after := moves.foldl
      (fun arena move => problem.offer arena (nodeAfter index node move)) arena
    problem.Closed after expanded ∧ after.nodes[index]? = some node ∧
      (∀ key cost, arena.covers key cost = true → after.covers key cost = true) ∧
      ∀ move ∈ moves, after.covers move.key (node.cost + move.cost) = true := by
  -- Offering one move keeps the node in place, so the next is offered from it as well.
  induction moves generalizing arena with
  | nil => exact ⟨closed, found, fun _ _ => id, fun _ member => absurd member List.not_mem_nil⟩
  | cons move rest ih =>
    have nonnegAfter : 0 ≤ (nodeAfter index node move).cost :=
      LawfulCost.nonneg_add (closed.nonneg found) (nonneg move List.mem_cons_self)
    obtain ⟨coversMove, keeps⟩ := closed.covers_offer nonnegAfter
    obtain ⟨closedAfter, foundAfter, keepsAfter, coversRest⟩ := ih (closed.offer nonnegAfter)
      (nodes_offer_of_found found) fun m member => nonneg m (List.mem_cons_of_mem _ member)
    refine ⟨closedAfter, foundAfter, fun key cost covered => keepsAfter _ _ (keeps _ _ covered),
      fun m member => ?_⟩
    rcases List.mem_cons.mp member with rfl | member
    · exact keepsAfter _ _ coversMove
    · exact coversRest m member

/-- Expanding a node covers whatever its moves lead to. -/
theorem Closed.expand (closed : problem.Closed arena expanded) (nonneg : problem.Nonneg)
    (found : arena.nodes[index]? = some node) :
    problem.Closed (problem.expand arena index node) (index :: expanded) := by
  obtain ⟨closedAfter, foundAfter, -, covers⟩ := closed.offerAll found (nonneg node.key)
  refine ⟨fun i member => ?_, closedAfter.nonneg, closedAfter.best, closedAfter.falling,
    fun {i n move} member foundI moves => ?_⟩
  · rcases List.mem_cons.mp member with rfl | member
    · exact (Array.getElem?_eq_some_iff.mp foundAfter).1
    · exact closedAfter.inside i member
  · rcases List.mem_cons.mp member with rfl | member
    · obtain rfl := Option.some.inj (foundAfter.symm.trans foundI)
      exact covers move moves
    · exact closedAfter.closed member foundI moves

omit [HAdd α ε ε] [Priority ε] [LawfulCost α] [Std.TransOrd κ] [Std.LawfulEqOrd κ] in
theorem Closed.empty : problem.Closed (.empty : Arena κ σ α ε) [] := by
  refine ⟨fun _ member => absurd member List.not_mem_nil, fun found => ?_, fun found => ?_,
    fun _ found => ?_, fun member => absurd member List.not_mem_nil⟩ <;>
    simp [Arena.empty] at found

theorem Closed.init : problem.Closed problem.init [] :=
  Closed.empty.offer LawfulCost.zero_le_zero

omit [HAdd α ε ε] [Priority ε] [LawfulCost α] [Std.TransOrd κ] [Std.LawfulEqOrd κ] in
/-- All this is about the nodes and the record alone. -/
theorem Closed.congr {rest : Arena κ σ α ε} (closed : problem.Closed arena expanded)
    (nodes : rest.nodes = arena.nodes) (record : rest.record = arena.record) :
    problem.Closed rest expanded := by
  have same {key : κ} {cost : α} : rest.covers key cost = arena.covers key cost := by
    simp only [Arena.covers, Arena.recorded?, nodes, record]
  refine ⟨fun i member => nodes ▸ closed.inside i member, fun found => ?_, fun found => ?_,
    fun before found foundLater => ?_, fun member found moves => ?_⟩
  all_goals rw [nodes] at found
  · exact closed.nonneg found
  · exact same ▸ closed.best found
  · exact closed.falling before found (nodes ▸ foundLater)
  · exact same ▸ closed.closed member found moves

variable [LawfulPriority ε]

theorem Visits.closed (visits : problem.Visits arena expanded) (nonneg : problem.Nonneg) :
    problem.Closed arena expanded := by
  induction visits with
  | init => exact .init
  | expand visits next _ closed =>
    obtain ⟨-, out⟩ := visits.grown.consistent.next?_eq_some next
    exact (closed.congr out.nodes out.record).expand nonneg (out.nodes ▸ out.found)

omit [LawfulCost α] in
/-- A walk whose last key is covered is settled or pending there, since whatever covers a key is
live, so that it waits or was expanded. -/
theorem Visits.settled_or_pending_of_covers (visits : problem.Visits arena expanded) {key : κ}
    {steps : List σ} {cost : α} (walk : problem.Walk problem.start 0 key steps cost)
    (covered : arena.covers key cost = true) :
    Settled arena expanded key cost ∨
      ∃ i node, problem.Pending arena key steps cost i node := by
  have grown := visits.grown
  obtain ⟨i, node, covered⟩ := Arena.covers_iff.mp covered
  obtain rfl := covered.key_eq grown.consistent
  rcases grown.attended (grown.consistent.live_of_record covered.recorded) with waits | member
  · exact .inr ⟨i, node, grown.consistent.live_of_record covered.recorded, waits, covered.found,
      covered.le, steps, [], cost, walk, covered.le, .stay, rfl⟩
  · exact .inl ⟨i, member, node, covered⟩

/-- Every walk from the start is settled or pending. -/
theorem Visits.settled_or_pending (visits : problem.Visits arena expanded)
    (nonneg : problem.Nonneg) {key : κ} {steps : List σ} {cost : α}
    (walk : problem.Walk problem.start 0 key steps cost) :
    Settled arena expanded key cost ∨
      ∃ i node, problem.Pending arena key steps cost i node := by
  have closed := visits.closed nonneg
  induction walk with
  | stay => exact visits.settled_or_pending_of_covers .stay (closed.best visits.start)
  | @step key steps cost move walk member ih =>
    have nonnegCost := walk.le nonneg LawfulCost.zero_le_zero
    have nonnegMove := nonneg _ _ member
    rcases ih with ⟨i, done, node, covered⟩ | ⟨i, node, pending⟩
    · -- The key before was expanded, so the move was offered from there, or from even cheaper.
      obtain rfl := covered.key_eq visits.grown.consistent
      have offered := closed.closed done covered.found member
      obtain ⟨j, best, coveredNext⟩ := Arena.covers_iff.mp offered
      have le : node.cost + move.cost ≤ cost + move.cost :=
        LawfulCost.add_le_add (closed.nonneg covered.found) nonnegMove covered.le
          (LawfulCost.le_rfl nonnegMove)
      exact visits.settled_or_pending_of_covers (.step walk member) (coveredNext.covers
        (LawfulCost.le_trans (closed.nonneg coveredNext.found) coveredNext.le le))
    · exact .inr ⟨i, node,
        pending.step (closed.nonneg pending.found) nonnegCost nonnegMove member⟩

omit [LawfulCost α] in
/-- What a settled walk leads to does not end the search. -/
theorem Visits.notGoal_of_settled (visits : problem.Visits arena expanded) {key : κ} {cost : α}
    (settled : Settled arena expanded key cost) : problem.isGoal key = false := by
  obtain ⟨i, done, node, covered⟩ := settled
  obtain ⟨n, found, notGoal⟩ := visits.grown.passed done
  obtain rfl := Option.some.inj (covered.found.symm.trans found)
  exact covered.key_eq visits.grown.consistent ▸ notGoal

/-- A search that runs dry has expanded whatever can be reached, and found no goal there. -/
theorem run_exhausted (nonneg : problem.Nonneg) {budget : Option Nat}
    (exhausted : (problem.run budget).ending = .exhausted) {key : κ} {steps : List σ} {cost : α}
    (walk : problem.Walk problem.start 0 key steps cost) : problem.isGoal key = false := by
  obtain ⟨arena, expanded, visits, ends⟩ := run_ends problem budget
  generalize problem.run budget = report at ends exhausted
  cases ends with
  | exhausted next =>
    -- A pending walk would have left a live node to hand out.
    rcases visits.settled_or_pending nonneg walk with settled | ⟨i, node, pending⟩
    · exact visits.notGoal_of_settled settled
    · exact absurd pending.live (visits.grown.consistent.next?_eq_none next pending.waits)
  | found => cases exhausted
  | gaveUp => cases exhausted
  | unbounded => cases exhausted

end Problem

end ActionPlanning.Search
