import ActionPlanning.Proofs.Search.Coverage

/-!
# A search with consistent estimates finds a cheapest walk

Nodes are handed out in the order of their costs so far and the estimates added to them. Estimates
are consistent if this sum never falls along a walk and is the cost alone where a walk may end. A
node that is handed out is then as cheap as any walk to its key: such a walk would otherwise run
through a key for which a node still waits, although it should have been handed out before. So every
key is expanded at most once, the search comes to an end within the bound on its keys, and what it
finds is as cheap as any walk to a goal. Estimating nothing is consistent.

## Main definitions

* `Problem.Consistent`: the estimates are consistent.
* `Problem.Blind`: nothing is estimated.
* `Problem.Bounded`: the bound on the number of keys is right.

## Main results

* `Problem.Visits.le_of_next`: what is handed out is as cheap as any walk to its key.
* `Problem.run_consistent`: what a search without a budget comes to.
-/

namespace ActionPlanning.Search.Problem

variable {κ σ α ε : Type} [Zero α] [Add α]

/-- Nothing is estimated. -/
def Blind (problem : Problem κ σ α α) : Prop := ∀ key, problem.estimate key = 0

/-- At most as many keys as the bound says can be reached from the start. -/
def Bounded (problem : Problem κ σ α ε) : Prop :=
  ∀ keys : List κ, keys.Nodup →
    (∀ key ∈ keys, ∃ steps cost, problem.Walk problem.start 0 key steps cost) →
    keys.length ≤ problem.keyBound

/-- The cost so far with the estimate added never falls on a move, and where the search may end
nothing more is expected. Of two costs at one key the estimate does not hide which is lower. -/
structure Consistent [LE α] (problem : Problem κ σ α α) : Prop where
  nonneg : ∀ key, 0 ≤ problem.estimate key
  rises : ∀ {key move}, move ∈ problem.moves key → ∀ {cost : α}, 0 ≤ cost →
    cost + problem.estimate key ≤ cost + move.cost + problem.estimate move.key
  cancels : ∀ {key} {a b : α}, 0 ≤ a → 0 ≤ b →
    a + problem.estimate key ≤ b + problem.estimate key → a ≤ b
  ends : ∀ {key}, problem.isGoal key = true → ∀ {cost : α}, 0 ≤ cost →
    cost + problem.estimate key ≤ cost

variable [LE α] [LawfulCost α] {problem : Problem κ σ α α}

/-- Estimating nothing is consistent. -/
theorem Blind.consistent (blind : problem.Blind) (nonneg : problem.Nonneg) :
    problem.Consistent where
  nonneg key := by
    rw [blind]
    exact LawfulCost.zero_le_zero
  rises {key move} member cost nonnegCost := by
    rw [blind, blind]
    have nonnegMove := nonneg key move member
    exact LawfulCost.add_le_add nonnegCost LawfulCost.zero_le_zero
      (LawfulCost.le_add nonnegCost nonnegMove) LawfulCost.zero_le_zero
  cancels {key a b} nonnegA nonnegB le := by
    rw [blind] at le
    refine LawfulCost.le_trans nonnegA (LawfulCost.le_add nonnegA LawfulCost.zero_le_zero) ?_
    exact LawfulCost.le_trans (LawfulCost.nonneg_add nonnegA LawfulCost.zero_le_zero) le
      (LawfulCost.add_zero_le nonnegB)
  ends {key} _ cost nonnegCost := by
    rw [blind]
    exact LawfulCost.add_zero_le nonnegCost

/-- Along a walk the cost so far with the estimate added never falls. -/
theorem Walk.rises {origin key : κ} {initial cost : α} {steps : List σ}
    (walk : problem.Walk origin initial key steps cost) (consistent : problem.Consistent)
    (nonneg : problem.Nonneg) (start : 0 ≤ initial) :
    initial + problem.estimate origin ≤ cost + problem.estimate key := by
  have nonnegStart := LawfulCost.nonneg_add start (consistent.nonneg origin)
  induction walk with
  | stay => exact LawfulCost.le_rfl nonnegStart
  | step before member ih =>
    have nonnegCost := LawfulCost.nonneg_trans start (before.le nonneg start)
    exact LawfulCost.le_trans nonnegStart ih (consistent.rises member nonnegCost)

variable [Ord κ] [Std.TransOrd κ] [Std.LawfulEqOrd κ] [DecidableLE α] [Priority α]
  [LawfulPriority α] {arena rest : Arena κ σ α α} {expanded : List Nat} {index : Nat}
  {node : Node κ σ α}

omit [LawfulCost α] in
/-- The node that is handed out is queued, by its cost with the estimate added, before any live node
that waits, and has arrived before those queued alike. -/
theorem Visits.queued_of_waits (visits : problem.Visits arena expanded)
    (next : arena.next? = some (index, node, rest)) {i : Nat} {other : Node κ σ α}
    (live : arena.Live i) (waits : arena.Waits i) (found : arena.nodes[i]? = some other) :
    Priority.le (node.cost + problem.estimate node.key) (other.cost + problem.estimate other.key)
        = true ∧
      (Priority.le (other.cost + problem.estimate other.key)
        (node.cost + problem.estimate node.key) = true → index ≤ i) := by
  have grown := visits.grown
  obtain ⟨-, out⟩ := grown.consistent.next?_eq_some next
  obtain ⟨w, member, rfl, first⟩ := out.first
  obtain ⟨v, memberV, rfl⟩ := waits
  have queuedAt {w : Waiting α} {n : Node κ σ α} (member : w ∈ arena.frontier.toList)
      (found : arena.nodes[w.node]? = some n) :
      w.priority = n.cost + problem.estimate n.key := by
    obtain ⟨m, foundM, queued⟩ := grown.queued w member
    obtain rfl := Option.some.inj (found.symm.trans foundM)
    exact queued
  have before := Waiting.before_iff.mp (first v memberV live)
  rwa [queuedAt member out.found, queuedAt memberV found, ← grown.consistent.numbered w member,
    ← grown.consistent.numbered v memberV] at before

variable [CheapestFirst α]

/-- Where no estimate is negative, the node that is handed out is expected to cost no more in the
end than any live node that waits. -/
theorem Visits.le_of_waits (visits : problem.Visits arena expanded) (nonneg : problem.Nonneg)
    (estimates : ∀ key, 0 ≤ problem.estimate key)
    (next : arena.next? = some (index, node, rest)) {i : Nat} {other : Node κ σ α}
    (live : arena.Live i) (waits : arena.Waits i) (found : arena.nodes[i]? = some other) :
    node.cost + problem.estimate node.key ≤ other.cost + problem.estimate other.key := by
  obtain ⟨-, out⟩ := visits.grown.consistent.next?_eq_some next
  have closed := visits.closed nonneg
  exact CheapestFirst.le_of_queued (LawfulCost.nonneg_add (closed.nonneg out.found) (estimates _))
    (LawfulCost.nonneg_add (closed.nonneg found) (estimates _))
    (visits.queued_of_waits next live waits found).1

/-- Without estimates the node that is handed out costs no more than any live node that waits. -/
theorem Visits.le_of_waits_of_blind (visits : problem.Visits arena expanded)
    (blind : problem.Blind) (nonneg : problem.Nonneg)
    (next : arena.next? = some (index, node, rest)) {i : Nat} {other : Node κ σ α}
    (live : arena.Live i) (waits : arena.Waits i) (found : arena.nodes[i]? = some other) :
    node.cost ≤ other.cost := by
  have consistent := blind.consistent nonneg
  have closed := visits.closed nonneg
  obtain ⟨-, out⟩ := visits.grown.consistent.next?_eq_some next
  have expected := visits.le_of_waits nonneg consistent.nonneg next live waits found
  -- Both sums have the same estimate, which is nothing.
  rw [blind other.key, ← blind node.key] at expected
  exact consistent.cancels (closed.nonneg out.found) (closed.nonneg found) expected

/-- The node that is handed out is expected to cost no more in the end than any walk that is not
settled yet. -/
theorem Visits.le_of_walk (visits : problem.Visits arena expanded)
    (consistent : problem.Consistent) (nonneg : problem.Nonneg)
    (next : arena.next? = some (index, node, rest)) {key : κ} {steps : List σ} {cost : α}
    (walk : problem.Walk problem.start 0 key steps cost) :
    Settled arena expanded key cost ∨
      node.cost + problem.estimate node.key ≤ cost + problem.estimate key := by
  rcases visits.settled_or_pending nonneg walk with settled | ⟨i, n, pending⟩
  · exact .inl settled
  · -- The walk comes by the key of a waiting node, at no lower cost, and rises from there.
    obtain ⟨taken, left, reached, -, atMost, after, -⟩ := pending.split
    obtain ⟨-, out⟩ := visits.grown.consistent.next?_eq_some next
    have closed := visits.closed nonneg
    have nonnegReached := LawfulCost.nonneg_trans (closed.nonneg pending.found) atMost
    have handedOut := visits.le_of_waits nonneg consistent.nonneg next pending.live pending.waits
      pending.found
    have comesBy : n.cost + problem.estimate n.key ≤ reached + problem.estimate n.key :=
      LawfulCost.add_le_add (closed.nonneg pending.found) (consistent.nonneg _) atMost
        (LawfulCost.le_rfl (consistent.nonneg _))
    have nonnegNode := LawfulCost.nonneg_add (closed.nonneg out.found) (consistent.nonneg node.key)
    exact .inr (LawfulCost.le_trans nonnegNode (LawfulCost.le_trans nonnegNode handedOut comesBy)
      (after.rises consistent nonneg nonnegReached))

/-- The node that is handed out is as cheap as any walk to its key. -/
theorem Visits.le_of_next (visits : problem.Visits arena expanded)
    (consistent : problem.Consistent) (nonneg : problem.Nonneg)
    (next : arena.next? = some (index, node, rest)) {steps : List σ} {cost : α}
    (walk : problem.Walk problem.start 0 node.key steps cost) : node.cost ≤ cost := by
  obtain ⟨-, out⟩ := visits.grown.consistent.next?_eq_some next
  have expected := (visits.le_of_walk consistent nonneg next walk).resolve_left fun settled => by
    -- The node on record for the key is the one that is handed out, and it still waits.
    obtain ⟨i, done, n, covered⟩ := settled
    obtain rfl : i = index := Option.some.inj (covered.recorded.symm.trans out.recorded)
    exact visits.grown.apart done out.waits
  exact consistent.cancels ((visits.closed nonneg).nonneg out.found)
    (walk.le nonneg LawfulCost.zero_le_zero) expected

/-- Every expanded node is as cheap as any walk to its key. -/
theorem Visits.least (visits : problem.Visits arena expanded) (consistent : problem.Consistent)
    (nonneg : problem.Nonneg) {i : Nat} (done : i ∈ expanded) :
    ∃ n, arena.nodes[i]? = some n ∧ ∀ steps cost,
      problem.Walk problem.start 0 n.key steps cost → n.cost ≤ cost := by
  -- A node is cheapest when it is handed out, and later arenas keep it as it is.
  induction visits with
  | init => exact absurd done List.not_mem_nil
  | expand visits next _ ih =>
    obtain ⟨-, out⟩ := visits.grown.consistent.next?_eq_some next
    rcases List.mem_cons.mp done with rfl | done
    · exact ⟨_, nodes_expand_of_handsOut out out.found, fun _ _ walk =>
        visits.le_of_next consistent nonneg next walk⟩
    · obtain ⟨n, found, least⟩ := ih done
      exact ⟨n, nodes_expand_of_handsOut out found, least⟩

/-- No key is expanded twice. -/
theorem Visits.exists_keys (visits : problem.Visits arena expanded)
    (consistent : problem.Consistent) (nonneg : problem.Nonneg) :
    ∃ keys : List κ, keys.length = expanded.length ∧ keys.Nodup ∧
      ∀ key ∈ keys, ∃ i ∈ expanded, ∃ n, arena.nodes[i]? = some n ∧ n.key = key := by
  induction visits with
  | init => exact ⟨[], rfl, .nil, fun _ member => absurd member List.not_mem_nil⟩
  | @expand arena rest expanded index node visits next _ ih =>
    obtain ⟨keys, length, distinct, known⟩ := ih
    have grown := visits.grown
    obtain ⟨-, out⟩ := grown.consistent.next?_eq_some next
    refine ⟨node.key :: keys, congrArg Nat.succ length, List.nodup_cons.mpr ⟨?_, distinct⟩, ?_⟩
    · -- Each of two nodes of a key would be as cheap as the walk behind the other.
      intro again
      obtain ⟨i, done, n, found, same⟩ := known _ again
      obtain ⟨m, foundM, least⟩ := visits.least consistent nonneg done
      obtain rfl := Option.some.inj (found.symm.trans foundM)
      have closed := visits.closed nonneg
      rcases Nat.lt_trichotomy i index with before | rfl | after
      · exact closed.falling before found out.found same
          (least _ _ (same ▸ grown.walk out.found))
      · exact grown.apart done out.waits
      · exact closed.falling after out.found found same.symm
          (visits.le_of_next consistent nonneg next (same ▸ grown.walk found))
    · intro key member
      rcases List.mem_cons.mp member with rfl | member
      · exact ⟨index, List.mem_cons_self, node,
          nodes_expand_of_handsOut out out.found, rfl⟩
      · obtain ⟨i, done, n, found, same⟩ := known key member
        exact ⟨i, List.mem_cons_of_mem _ done, n,
          nodes_expand_of_handsOut out found, same⟩

/-- A search expands no more nodes than there are keys. -/
theorem Visits.length_le (visits : problem.Visits arena expanded)
    (consistent : problem.Consistent) (nonneg : problem.Nonneg) (bounded : problem.Bounded) :
    expanded.length ≤ problem.keyBound := by
  obtain ⟨keys, length, distinct, known⟩ := visits.exists_keys consistent nonneg
  rw [← length]
  refine bounded keys distinct fun key member => ?_
  obtain ⟨i, -, n, found, rfl⟩ := known key member
  exact ⟨_, _, visits.grown.walk found⟩

/-- With consistent estimates and without a budget, a search finds a cheapest walk to a goal, or
there is no walk to any. -/
theorem run_consistent (consistent : problem.Consistent) (nonneg : problem.Nonneg)
    (bounded : problem.Bounded) :
    (∃ steps cost, (problem.run none).ending = .found steps cost ∧
      ∀ key steps' cost', problem.isGoal key = true →
        problem.Walk problem.start 0 key steps' cost' → cost ≤ cost') ∨
    ((problem.run none).ending = .exhausted ∧
      ∀ key steps' cost', problem.Walk problem.start 0 key steps' cost' →
        problem.isGoal key = false) := by
  have dry (exhausted : (problem.run none).ending = .exhausted) :=
    fun key (steps' : List σ) (cost' : α)
        (walk : problem.Walk problem.start 0 key steps' cost') =>
      run_exhausted nonneg exhausted walk
  obtain ⟨arena, expanded, visits, ends⟩ := run_ends problem none
  generalize problem.run none = report at ends dry
  cases ends with
  | @found index node rest next goal =>
    refine .inl ⟨_, _, rfl, fun key steps' cost' goalKey walk => ?_⟩
    have expected := (visits.le_of_walk consistent nonneg next walk).resolve_left fun settled =>
      Bool.noConfusion (goalKey.symm.trans (visits.notGoal_of_settled settled))
    -- What is expected of the node is at least its cost, and of the walk only its own cost.
    obtain ⟨-, out⟩ := visits.grown.consistent.next?_eq_some next
    have nonnegNode := (visits.closed nonneg).nonneg out.found
    have nonnegWalk := walk.le nonneg LawfulCost.zero_le_zero
    have atLeast := LawfulCost.le_add nonnegNode (consistent.nonneg node.key)
    exact LawfulCost.le_trans nonnegNode (LawfulCost.le_trans nonnegNode atLeast expected)
      (consistent.ends goalKey nonnegWalk)
  | exhausted => exact .inr ⟨rfl, dry rfl⟩
  | gaveUp _ _ exceeded => simp [exceeded?] at exceeded
  | unbounded full =>
    -- So many expansions would take more keys than there are.
    have within := visits.length_le consistent nonneg bounded
    have positive : 0 < UInt64.size := by decide
    rw [full, fuel] at within
    exact absurd (Nat.le_trans (Nat.le_mul_of_pos_right _ positive) within) (Nat.not_succ_le_self _)

end ActionPlanning.Search.Problem
