import ActionPlanning.Proofs.Search.Run

/-!
# Walks behind the nodes of a search

A walk follows moves from one key to the next and adds up their costs. Every node of an arena that
a search comes to stands at the end of a walk from the start, with the cost of that walk, and the
way back through the origins of the nodes lists its steps. So what a search finds is the end of a
walk, whatever the costs and the estimates are.

## Main definitions

* `Problem.Walk`: following moves, with the steps taken and the cost accumulated.
* `Problem.Grown`: what holds of every arena that a search comes to.

## Main results

* `Problem.Visits.grown`: it does hold of them.
* `Problem.run_found`: what a search finds was reached by a walk from the start.
-/

namespace ActionPlanning.Search.Problem

variable {κ σ α ε : Type} [Add α]

/-- Following moves from a key that was reached at some cost: where that leads to, the steps taken,
last step first, and the cost then accumulated. -/
inductive Walk (problem : Problem κ σ α ε) (origin : κ) (initial : α) : κ → List σ → α → Prop
  | stay : problem.Walk origin initial origin [] initial
  | step {key : κ} {steps : List σ} {cost : α} {move : Move κ σ α} :
    problem.Walk origin initial key steps cost → move ∈ problem.moves key →
    problem.Walk origin initial move.key (move.step :: steps) (cost + move.cost)

variable [Zero α] {problem : Problem κ σ α ε}

/-- How a node may have come into an arena: as the start, or by a move from an earlier node. -/
def Originates (problem : Problem κ σ α ε) (nodes : Array (Node κ σ α)) (index : Nat)
    (node : Node κ σ α) : Prop :=
  node = ⟨problem.start, none, 0⟩ ∨
    ∃ i before move, i < index ∧ nodes[i]? = some before ∧ move ∈ problem.moves before.key
      ∧ node = nodeAfter i before move

/-- The way back through the origins lists the steps of a walk from the start. -/
theorem walk_stepsWithin [Ord κ] {arena : Arena κ σ α ε}
    (traced : ∀ {i : Nat} {node : Node κ σ α}, arena.nodes[i]? = some node →
      problem.Originates arena.nodes i node)
    {index fuel : Nat} {node : Node κ σ α} (found : arena.nodes[index]? = some node)
    (enough : index < fuel) :
    problem.Walk problem.start 0 node.key (arena.stepsWithin fuel index) node.cost := by
  -- Origins lie at smaller indices, so the induction may follow them on less fuel.
  induction fuel generalizing index node with
  | zero => exact absurd enough (Nat.not_lt_zero index)
  | succ fuel ih =>
    rcases traced found with rfl | ⟨i, before, move, earlier, foundBefore, member, rfl⟩
    · simp only [Arena.stepsWithin, found]
      exact .stay
    · simp only [Arena.stepsWithin, found, nodeAfter]
      exact .step (ih foundBefore (by omega)) member

variable [Ord κ] [HAdd α ε ε] [Priority ε]

/-- What holds of an arena that a search comes to after expanding some nodes: its parts agree,
every waiting node is queued by its cost and estimate, every node has an origin, and each live node
either waits or was expanded. -/
structure Grown (problem : Problem κ σ α ε) (arena : Arena κ σ α ε) (expanded : List Nat) :
    Prop where
  consistent : arena.Consistent
  queued : ∀ w ∈ arena.frontier.toList, ∃ node, arena.nodes[w.node]? = some node ∧
    w.priority = node.cost + problem.estimate node.key
  traced : ∀ {i : Nat} {node : Node κ σ α}, arena.nodes[i]? = some node →
    problem.Originates arena.nodes i node
  attended : ∀ {i}, arena.Live i → arena.Waits i ∨ i ∈ expanded
  apart : ∀ {i}, i ∈ expanded → ¬ arena.Waits i
  passed : ∀ {i}, i ∈ expanded → ∃ node, arena.nodes[i]? = some node ∧
    problem.isGoal node.key = false
  once : expanded.Nodup

variable {arena rest : Arena κ σ α ε} {expanded : List Nat} {index : Nat} {node : Node κ σ α}

/-- Every node stands at the end of a walk from the start. -/
theorem Grown.walk (grown : problem.Grown arena expanded)
    (found : arena.nodes[index]? = some node) :
    problem.Walk problem.start 0 node.key (arena.stepsBack index) node.cost :=
  walk_stepsWithin grown.traced found (Nat.lt_succ_self index)

/-- A node that is passed over leaves everything else as it was. -/
theorem Grown.pass {first : Waiting ε} {frontier : Frontier ε}
    (grown : problem.Grown arena expanded) (takes : arena.Takes first frontier)
    (stale : ¬ arena.Live first.node) : problem.Grown { arena with frontier } expanded where
  consistent := takes.consistent
  queued w member := grown.queued w (takes.mem_iff.mpr (.inr member))
  traced := grown.traced
  attended {i} live := by
    have live : arena.Live i := live
    rcases grown.attended live with ⟨w, member, rfl⟩ | member
    · rcases takes.mem_iff.mp member with rfl | member
      · exact absurd live stale
      · exact .inl ⟨w, member, rfl⟩
    · exact .inr member
  apart member waits := by
    obtain ⟨w, waits, rfl⟩ := waits
    exact grown.apart member ⟨w, takes.mem_iff.mpr (.inr waits), rfl⟩
  passed := grown.passed
  once := grown.once

/-- A node that is handed out counts as expanded from then on. -/
theorem Grown.handOut (grown : problem.Grown arena expanded) (consistent : rest.Consistent)
    (out : arena.HandsOut index node rest) (notGoal : problem.isGoal node.key = false) :
    problem.Grown rest (index :: expanded) where
  consistent := consistent
  queued w member := by
    rw [out.nodes]
    exact grown.queued w (out.waited member)
  traced found := by
    rw [out.nodes] at found ⊢
    exact grown.traced found
  attended {i} live := by
    have live := out.live_iff.mp live
    by_cases same : i = index
    · exact .inr (same ▸ List.mem_cons_self)
    · exact (grown.attended live).imp (out.kept same live) (List.mem_cons_of_mem _)
  apart {i} member := by
    rcases List.mem_cons.mp member with rfl | member
    · exact out.gone
    · intro waits
      obtain ⟨w, waits, rfl⟩ := waits
      exact grown.apart member ⟨w, out.waited waits, rfl⟩
  passed {i} member := by
    rw [out.nodes]
    rcases List.mem_cons.mp member with rfl | member
    · exact ⟨node, out.found, notGoal⟩
    · exact grown.passed member
  once := List.nodup_cons.mpr ⟨fun member => grown.apart member out.waits, grown.once⟩

section

variable [LE α] [DecidableLE α]

omit [Zero α] [Add α] in
/-- Offering a node leaves the nodes there are in place. -/
theorem nodes_offer_of_found {i : Nat} {other : Node κ σ α}
    (found : arena.nodes[i]? = some other) :
    (problem.offer arena node).nodes[i]? = some other := by
  rw [Problem.offer, Arena.offer_eq]
  split
  · exact found
  · exact Arena.nodes_enter_of_found found

omit [Zero α] in
theorem nodes_expand_of_found {i : Nat} {other : Node κ σ α}
    (found : arena.nodes[i]? = some other) :
    (problem.expand arena index node).nodes[i]? = some other :=
  expand_of_offer (fun arena : Arena κ σ α ε => arena.nodes[i]? = some other) found
    fun _ _ _ found => nodes_offer_of_found found

omit [Zero α] in
/-- Expanding a node that was handed out leaves the nodes there were in place. -/
theorem nodes_expand_of_handsOut (out : arena.HandsOut index node rest)
    {i : Nat} {other : Node κ σ α} (found : arena.nodes[i]? = some other) :
    (problem.expand rest index node).nodes[i]? = some other :=
  nodes_expand_of_found (out.nodes ▸ found)

omit [Add α] in
theorem init_eq [Std.TransOrd κ] (problem : Problem κ σ α ε) :
    problem.init
      = Arena.empty.enter ⟨problem.start, none, 0⟩ ((0 : α) + problem.estimate problem.start) := by
  have absent : (Arena.empty : Arena κ σ α ε).covers problem.start 0 = false := by
    simp [Arena.covers, Arena.recorded?, Arena.empty]
  rw [init, Problem.offer, Arena.offer_eq, absent]
  rfl

end

variable [Std.TransOrd κ] [Std.LawfulEqOrd κ] [LawfulPriority ε]

/-- Adding a node that has an origin keeps what holds of an arena. -/
theorem Grown.enter (grown : problem.Grown arena expanded)
    (origin : problem.Originates arena.nodes arena.nodes.size node) :
    problem.Grown (arena.enter node (node.cost + problem.estimate node.key)) expanded where
  consistent := grown.consistent.enter
  queued w member := by
    rcases List.mem_cons.mp
      ((Arena.toList_frontier_enter grown.consistent).mem_iff.mp member) with rfl | member
    · exact ⟨node, Arena.nodes_enter_self, rfl⟩
    · obtain ⟨n, found, queued⟩ := grown.queued w member
      exact ⟨n, Arena.nodes_enter_of_found found, queued⟩
  traced {i n} found := by
    -- Nodes stay in place, so whatever was an origin still is one.
    have later {j : Nat} {m : Node κ σ α} (origin : problem.Originates arena.nodes j m) :
        problem.Originates (arena.enter node (node.cost + problem.estimate node.key)).nodes j m :=
      origin.imp_right fun ⟨i, before, move, earlier, found, member, same⟩ =>
        ⟨i, before, move, earlier, Arena.nodes_enter_of_found found, member, same⟩
    rw [Arena.nodes_enter] at found
    split at found
    case isTrue last =>
      obtain rfl := Option.some.inj found
      exact last ▸ later origin
    case isFalse => exact later (grown.traced found)
  attended {i} live := by
    rw [Arena.waits_enter_iff grown.consistent]
    rcases (Arena.live_enter_iff grown.consistent).mp live with rfl | ⟨n, found, recorded, -⟩
    · exact .inl (.inl rfl)
    · exact (grown.attended ⟨n, found, recorded⟩).imp_left .inr
  apart {i} member := by
    rw [Arena.waits_enter_iff grown.consistent]
    intro waits
    rcases waits with rfl | waits
    · obtain ⟨n, found, -⟩ := grown.passed member
      simp at found
    · exact grown.apart member waits
  passed member := by
    obtain ⟨n, found, notGoal⟩ := grown.passed member
    exact ⟨n, Arena.nodes_enter_of_found found, notGoal⟩
  once := grown.once

variable [LE α] [DecidableLE α]

theorem Grown.offer (grown : problem.Grown arena expanded)
    (origin : problem.Originates arena.nodes arena.nodes.size node) :
    problem.Grown (problem.offer arena node) expanded := by
  rw [Problem.offer, Arena.offer_eq]
  split
  · exact grown
  · exact grown.enter origin

/-- Expanding a node keeps what holds of an arena. -/
theorem Grown.expand (grown : problem.Grown arena expanded)
    (found : arena.nodes[index]? = some node) :
    problem.Grown (problem.expand arena index node) expanded := by
  -- Each move is offered from the same node, so that node has to stay in place.
  have both : problem.Grown (problem.expand arena index node) expanded ∧
      (problem.expand arena index node).nodes[index]? = some node := by
    refine expand_of_offer (fun arena => problem.Grown arena expanded ∧
      arena.nodes[index]? = some node) ⟨grown, found⟩ fun arena move member ⟨grown, found⟩ => ?_
    obtain ⟨bound, -⟩ := Array.getElem?_eq_some_iff.mp found
    exact ⟨grown.offer (.inr ⟨index, node, move, bound, found, member, rfl⟩),
      nodes_offer_of_found found⟩
  exact both.1

omit [Std.LawfulEqOrd κ] [LawfulPriority ε] [LE α] [DecidableLE α] in
theorem Grown.empty : problem.Grown Arena.empty [] := by
  refine ⟨.empty, ?_, ?_, ?_, ?_, ?_, .nil⟩
  · intro _ member
    exact absurd member List.not_mem_nil
  · intro _ _ found
    simp [Arena.empty] at found
  · intro _ live
    obtain ⟨_, found, -⟩ := live
    simp [Arena.empty] at found
  · intro _ member
    exact absurd member List.not_mem_nil
  · intro _ member
    exact absurd member List.not_mem_nil

theorem Grown.init : problem.Grown problem.init [] := by
  rw [init_eq]
  exact Grown.empty.enter (.inl rfl)

/-- Every arena that a search comes to has grown in this way. -/
theorem Visits.grown (visits : problem.Visits arena expanded) : problem.Grown arena expanded := by
  induction visits with
  | init => exact .init
  | expand _ next notGoal grown =>
    obtain ⟨consistent, out⟩ := grown.consistent.next?_eq_some next
    exact (grown.handOut consistent out notGoal).expand (out.nodes ▸ out.found)

/-- The start is the first node of every arena that a search comes to. -/
theorem Visits.start (visits : problem.Visits arena expanded) :
    arena.nodes[0]? = some ⟨problem.start, none, 0⟩ := by
  induction visits with
  | init =>
    rw [init_eq]
    exact Arena.nodes_enter
  | expand visits next _ found =>
    obtain ⟨-, out⟩ := visits.grown.consistent.next?_eq_some next
    exact nodes_expand_of_handsOut out found

/-- What a search finds ends the search and was reached by a walk from the start with the steps
and at the cost that are reported. -/
theorem run_found {budget : Option Nat} {steps : List σ} {cost : α}
    (found : (problem.run budget).ending = .found steps cost) :
    ∃ key, problem.isGoal key = true ∧ problem.Walk problem.start 0 key steps cost := by
  obtain ⟨arena, expanded, visits, ends⟩ := run_ends problem budget
  generalize problem.run budget = report at ends found
  cases ends with
  | @found index node rest next goal =>
    obtain ⟨rfl, rfl⟩ : rest.stepsBack index = steps ∧ node.cost = cost := by simpa using found
    obtain ⟨-, out⟩ := visits.grown.consistent.next?_eq_some next
    -- The steps are read off after the node was handed out, which leaves all nodes in place.
    refine ⟨node.key, goal, walk_stepsWithin (fun found => ?_) (out.nodes ▸ out.found)
      (Nat.lt_succ_self index)⟩
    rw [out.nodes] at found ⊢
    exact visits.grown.traced found
  | exhausted => cases found
  | gaveUp => cases found
  | unbounded => cases found

end ActionPlanning.Search.Problem
