import ActionPlanning.Proofs.Search.Cheapest

/-!
# The order in which nodes are expanded

A search keeps no list of the keys that it is done with. It passes over a waiting node only if
another one is on record for its key. Still no work is repeated: if a key comes up again, then at a
strictly lower cost, whatever is estimated. With consistent estimates no key comes up again at all,
and the cost so far with the estimate added never falls from one expansion to the next.

## Main definitions

* `Problem.log`: the nodes that a search expands, in order.
* `Problem.Logged`: what that means of the run.
* `Improves`: the later of two nodes of one key costs less.
* `OnceInOrder`: no key twice, and costs that never fall.

## Main results

* `Problem.length_log`: the log has as many nodes as the search reports to have expanded.
* `Problem.logged_log`: it lists the nodes expanded on the way to where the search ends.
* `Problem.pairwise_log`: from single turns to the log.
* `Problem.log_improves`: a key is expanded again only at a lower cost.
* `Problem.log_nodup`: no key comes up again, with consistent estimates.
* `Problem.log_onceInOrder`: the log without estimates.
-/

namespace ActionPlanning.Search

variable {κ σ α ε : Type}

/-- If both nodes are of one key, then the later one costs less. -/
def Improves [LE α] (earlier later : Node κ σ α) : Prop :=
  earlier.key = later.key → later.cost ≤ earlier.cost ∧ ¬ earlier.cost ≤ later.cost

/-- No key is expanded twice, and no node after one that costs more. -/
structure OnceInOrder [LE α] (log : List (Node κ σ α)) : Prop where
  once : (log.map Node.key).Nodup
  rises : log.Pairwise fun earlier later => earlier.cost ≤ later.cost

namespace Problem

variable [Ord κ] [Zero α] [Add α] [LE α] [DecidableLE α]

section

variable [HAdd α ε ε] [Priority ε]

/-- The nodes that a search expands from an arena on, at most `fuel` of them. The node with which
the budget is exceeded counts as well. -/
def logWithin (problem : Problem κ σ α ε) (budget : Option Nat) :
    Nat → Arena κ σ α ε → Nat → List (Node κ σ α)
  | 0, _, _ => []
  | fuel + 1, arena, expansions =>
    match arena.next? with
    | none => []
    | some (index, node, rest) =>
      if problem.isGoal node.key then []
      else
        match exceeded? budget (expansions + 1) with
        | some _ => [node]
        | none => node :: logWithin problem budget fuel (problem.expand rest index node)
            (expansions + 1)

/-- The nodes that a search expands, in order. -/
def log (problem : Problem κ σ α ε) (budget : Option Nat) : List (Node κ σ α) :=
  problem.logWithin budget problem.fuel problem.init 0

variable {problem : Problem κ σ α ε} {arena rest : Arena κ σ α ε} {expanded : List Nat}
  {budget : Option Nat} {index i : Nat} {node n : Node κ σ α}

omit [Zero α] in
theorem length_logWithin {fuel expansions : Nat} :
    expansions + (problem.logWithin budget fuel arena expansions).length
      = (problem.runWithin budget fuel arena expansions).expansions := by
  -- Both take the same turns.
  induction fuel generalizing arena expansions with
  | zero => rfl
  | succ fuel ih =>
    rw [logWithin, runWithin]
    cases arena.next? with
    | none => rfl
    | some handedOut =>
      obtain ⟨index, node, rest⟩ := handedOut
      dsimp only
      cases problem.isGoal node.key with
      | true => rfl
      | false =>
        cases exceeded? budget (expansions + 1) with
        | some limit => rfl
        | none =>
          simp only [Bool.false_eq_true, if_false, List.length_cons, ← ih]
          omega

/-- The log has as many nodes as the search reports to have expanded. -/
theorem length_log (problem : Problem κ σ α ε) (budget : Option Nat) :
    (problem.log budget).length = (problem.run budget).expansions := by
  rw [run, ← length_logWithin, Nat.zero_add, log]

variable [Std.TransOrd κ] [Std.LawfulEqOrd κ] [LawfulPriority ε]

/-- What a search logs: in order, the nodes that are expanded on the way to the arena in which it
ends, and the node with which the budget is exceeded, if it is. These are as many as it reports. -/
structure Logged (problem : Problem κ σ α ε) (budget : Option Nat) (log : List (Node κ σ α)) :
    Prop where
  length : log.length = (problem.run budget).expansions
  visited : ∃ (last : Arena κ σ α ε) (expanded : List Nat) (beyond : Option (Node κ σ α)),
    problem.Visits last expanded ∧
    problem.Ends budget problem.fuel last expanded (problem.run budget) ∧
    log.map some = expanded.reverse.map (last.nodes[·]?) ++ beyond.toList.map some ∧
    ∀ node ∈ beyond, ∃ index rest, last.next? = some (index, node, rest)

theorem Visits.exists_logWithin (visits : problem.Visits arena expanded) (budget : Option Nat)
    (fuel : Nat) :
    ∃ (last : Arena κ σ α ε) (more : List Nat) (beyond : Option (Node κ σ α)),
      problem.Visits last (more ++ expanded) ∧
      problem.Ends budget (expanded.length + fuel) last (more ++ expanded)
        (problem.runWithin budget fuel arena expanded.length) ∧
      (problem.logWithin budget fuel arena expanded.length).map some
        = more.reverse.map (last.nodes[·]?) ++ beyond.toList.map some ∧
      (∀ node ∈ beyond, ∃ index rest, last.next? = some (index, node, rest)) ∧
      ∀ {i : Nat} {n}, arena.nodes[i]? = some n → last.nodes[i]? = some n := by
  -- Either both end in this arena, or they go on in the next, where this node stays in place.
  induction fuel generalizing arena expanded with
  | zero => exact ⟨arena, [], none, visits, .unbounded rfl, rfl, nofun, id⟩
  | succ fuel ih =>
    rw [logWithin, runWithin]
    cases next : arena.next? with
    | none => exact ⟨arena, [], none, visits, .exhausted next, rfl, nofun, id⟩
    | some handedOut =>
      obtain ⟨index, node, rest⟩ := handedOut
      cases goal : problem.isGoal node.key with
      | true =>
        simp only [goal, if_true]
        exact ⟨arena, [], none, visits, .found next goal, rfl, nofun, id⟩
      | false =>
        simp only [goal, Bool.false_eq_true, if_false]
        cases exceeded : exceeded? budget (expanded.length + 1) with
        | some limit =>
          refine ⟨arena, [], some node, visits, .gaveUp next goal exceeded, rfl, ?_, id⟩
          intro _ exceeding
          obtain rfl := Option.mem_some_iff.mp exceeding
          exact ⟨index, rest, next⟩
        | none =>
          obtain ⟨-, out⟩ := visits.grown.consistent.next?_eq_some next
          have found : (problem.expand rest index node).nodes[index]? = some node :=
            nodes_expand_of_handsOut out out.found
          obtain ⟨last, more, beyond, visitsLast, ends, listed, handedOut, kept⟩ :=
            ih (visits.expand next goal)
          rw [List.length_cons, Nat.add_assoc, Nat.add_comm 1 fuel] at ends
          rw [List.append_cons] at visitsLast ends
          refine ⟨last, more ++ [index], beyond, visitsLast, ends, ?_, handedOut, fun found => ?_⟩
          · rw [List.length_cons] at listed
            simp [listed, kept found]
          · exact kept (nodes_expand_of_handsOut out found)

/-- The log of a search is what it logs. -/
theorem logged_log (problem : Problem κ σ α ε) (budget : Option Nat) :
    problem.Logged budget (problem.log budget) := by
  refine ⟨length_log problem budget, ?_⟩
  have start : problem.Visits problem.init [] := .init
  obtain ⟨last, expanded, beyond, visits, ends, listed, handedOut, -⟩ :=
    start.exists_logWithin budget problem.fuel
  rw [List.length_nil, Nat.zero_add] at ends
  rw [List.append_nil] at visits ends
  exact ⟨last, expanded, beyond, visits, ends, listed, handedOut⟩

/-- How every node that is handed out relates to the nodes expanded before, so do all expanded nodes
relate to those before them. -/
theorem Visits.pairwise {related : Node κ σ α → Node κ σ α → Prop}
    (turn : ∀ {arena rest expanded index node}, problem.Visits arena expanded →
      arena.next? = some (index, node, rest) →
      ∀ {i n}, i ∈ expanded → arena.nodes[i]? = some n → related n node)
    (visits : problem.Visits arena expanded) :
    expanded.Pairwise fun later earlier => ∀ {m n}, arena.nodes[later]? = some m →
      arena.nodes[earlier]? = some n → related n m := by
  induction visits with
  | init => exact .nil
  | @expand arena rest expanded index node visits next _ ih =>
    obtain ⟨-, out⟩ := visits.grown.consistent.next?_eq_some next
    -- The nodes expanded before are still those that they were.
    have before {i : Nat} {n : Node κ σ α} (done : i ∈ expanded)
        (found : (problem.expand rest index node).nodes[i]? = some n) :
        arena.nodes[i]? = some n := by
      obtain ⟨m, foundM, -⟩ := visits.grown.passed done
      have kept : (problem.expand rest index node).nodes[i]? = some m :=
        nodes_expand_of_handsOut out foundM
      exact Option.some.inj (kept.symm.trans found) ▸ foundM
    have last : (problem.expand rest index node).nodes[index]? = some node :=
      nodes_expand_of_handsOut out out.found
    refine List.pairwise_cons.mpr ⟨fun earlier done m n foundM found => ?_, ?_⟩
    · obtain rfl := Option.some.inj (last.symm.trans foundM)
      exact turn visits next done (before done found)
    · exact ih.imp_of_mem fun doneM done related _ _ foundM found =>
        related (before doneM foundM) (before done found)

/-- How every node that is handed out relates to the nodes expanded before, so do the nodes of the
log relate to each other. -/
theorem pairwise_log {related : Node κ σ α → Node κ σ α → Prop}
    (turn : ∀ {arena rest expanded index node}, problem.Visits arena expanded →
      arena.next? = some (index, node, rest) →
      ∀ {i n}, i ∈ expanded → arena.nodes[i]? = some n → related n node)
    (budget : Option Nat) : (problem.log budget).Pairwise related := by
  obtain ⟨last, expanded, beyond, visits, -, listed, handedOut⟩ :=
    (logged_log problem budget).visited
  have ordered := List.pairwise_reverse.mpr (visits.pairwise turn)
  have onLog : ((problem.log budget).map some).Pairwise fun a b =>
      ∀ n ∈ a, ∀ m ∈ b, related n m := by
    rw [listed, List.pairwise_append]
    refine ⟨List.pairwise_map.mpr (ordered.imp ?_), ?_, ?_⟩
    · intro _ _ related n found m foundM
      exact related foundM found
    · cases beyond <;> simp
    · -- The node beyond the budget is handed out after all others were expanded.
      intro _ before _ after n found m isM
      obtain ⟨i, done, rfl⟩ := List.mem_map.mp before
      obtain ⟨m, exceeding, rfl⟩ := List.mem_map.mp after
      obtain rfl := Option.mem_some_iff.mp isM
      obtain ⟨index, rest, next⟩ := handedOut m (Option.mem_toList.mp exceeding)
      exact turn visits next (List.mem_reverse.mp done) found
  exact (List.pairwise_map.mp onLog).imp fun related => related _ rfl _ rfl

variable [LawfulCost α]

/-- A node that is handed out costs less than the nodes of its key that were expanded before. -/
theorem Visits.improves (visits : problem.Visits arena expanded) (nonneg : problem.Nonneg)
    (next : arena.next? = some (index, node, rest)) (done : i ∈ expanded)
    (found : arena.nodes[i]? = some n) : Improves n node := by
  intro same
  have grown := visits.grown
  have closed := visits.closed nonneg
  obtain ⟨-, out⟩ := grown.consistent.next?_eq_some next
  -- The node on record for the key is the one that is handed out.
  obtain ⟨j, best, covered⟩ := Arena.covers_iff.mp (closed.best found)
  obtain rfl : j = index := Option.some.inj (covered.recorded.symm.trans (same ▸ out.recorded))
  obtain rfl := Option.some.inj (covered.found.symm.trans out.found)
  refine ⟨covered.le, ?_⟩
  rcases Nat.lt_trichotomy i j with before | rfl | after
  · exact closed.falling before found out.found same
  · exact absurd out.waits (grown.apart done)
  · exact absurd covered.le (closed.falling after out.found found same.symm)

/-- A key is expanded again only at a lower cost. -/
theorem log_improves (nonneg : problem.Nonneg) (budget : Option Nat) :
    (problem.log budget).Pairwise Improves :=
  pairwise_log (fun visits next _ _ done found => visits.improves nonneg next done found) budget

end

/-! ## Where estimates are costs -/

variable [Priority α] [LawfulPriority α] [LawfulCost α] [CheapestFirst α] [Std.TransOrd κ]
  [Std.LawfulEqOrd κ] {problem : Problem κ σ α α} {arena rest : Arena κ σ α α}
  {expanded : List Nat} {index i : Nat} {node n : Node κ σ α}

/-- The key of a node that is handed out was not expanded before, if the estimates are consistent:
a node that was expanded is as cheap as any walk to its key. -/
theorem Visits.key_ne (visits : problem.Visits arena expanded) (consistent : problem.Consistent)
    (nonneg : problem.Nonneg) (next : arena.next? = some (index, node, rest))
    (done : i ∈ expanded) (found : arena.nodes[i]? = some n) : n.key ≠ node.key := by
  intro same
  obtain ⟨-, out⟩ := visits.grown.consistent.next?_eq_some next
  obtain ⟨m, foundM, least⟩ := visits.least consistent nonneg done
  obtain rfl := Option.some.inj (found.symm.trans foundM)
  exact (visits.improves nonneg next done found same).2
    (least _ _ (same ▸ visits.grown.walk out.found))

/-- With consistent estimates no key is expanded twice. -/
theorem log_nodup (consistent : problem.Consistent) (nonneg : problem.Nonneg)
    (budget : Option Nat) : ((problem.log budget).map Node.key).Nodup :=
  List.pairwise_map.mpr <| pairwise_log
    (fun visits next _ _ done found => visits.key_ne consistent nonneg next done found) budget

/-- Every expanded node was expected to cost no more than any walk, unless an expanded node of its
key is as cheap as the walk. -/
theorem Visits.le_of_walk_of_expanded (visits : problem.Visits arena expanded)
    (consistent : problem.Consistent) (nonneg : problem.Nonneg) (done : i ∈ expanded)
    (found : arena.nodes[i]? = some n) {key : κ} {steps : List σ} {cost : α}
    (walk : problem.Walk problem.start 0 key steps cost) :
    (∃ j ∈ expanded, ∃ m, arena.nodes[j]? = some m ∧ m.key = key ∧ m.cost ≤ cost) ∨
      n.cost + problem.estimate n.key ≤ cost + problem.estimate key := by
  induction visits with
  | init => exact absurd done List.not_mem_nil
  | @expand arena rest expanded index node visits next _ ih =>
    obtain ⟨-, out⟩ := visits.grown.consistent.next?_eq_some next
    rcases List.mem_cons.mp done with rfl | done
    · obtain rfl := Option.some.inj (found.symm.trans (nodes_expand_of_handsOut out out.found))
      refine (visits.le_of_walk consistent nonneg next walk).imp_left ?_
      rintro ⟨j, done, m, covered⟩
      exact ⟨j, List.mem_cons_of_mem _ done, m, nodes_expand_of_handsOut out covered.found,
        covered.key_eq visits.grown.consistent, covered.le⟩
    · obtain ⟨m, foundM, -⟩ := visits.grown.passed done
      obtain rfl := Option.some.inj (found.symm.trans (nodes_expand_of_handsOut out foundM))
      refine (ih done foundM).imp_left ?_
      rintro ⟨j, done, m, found, same, le⟩
      exact ⟨j, List.mem_cons_of_mem _ done, m, nodes_expand_of_handsOut out found, same, le⟩

/-- With consistent estimates a node that is handed out is expected to cost no less in the end than
any node that was expanded before. -/
theorem Visits.rises (visits : problem.Visits arena expanded) (consistent : problem.Consistent)
    (nonneg : problem.Nonneg) (next : arena.next? = some (index, node, rest)) (done : i ∈ expanded)
    (found : arena.nodes[i]? = some n) :
    n.cost + problem.estimate n.key ≤ node.cost + problem.estimate node.key := by
  obtain ⟨-, out⟩ := visits.grown.consistent.next?_eq_some next
  -- Otherwise a node of the same key would have been expanded before.
  refine (visits.le_of_walk_of_expanded consistent nonneg done found
    (visits.grown.walk out.found)).resolve_left ?_
  rintro ⟨j, doneJ, m, foundM, same, -⟩
  exact visits.key_ne consistent nonneg next doneJ foundM same

/-- Without estimates no key is expanded twice, and no node after one that costs more. -/
theorem log_onceInOrder (blind : problem.Blind) (nonneg : problem.Nonneg) (budget : Option Nat) :
    OnceInOrder (problem.log budget) := by
  have consistent := blind.consistent nonneg
  refine ⟨log_nodup consistent nonneg budget, ?_⟩
  refine pairwise_log (fun {arena rest expanded index node} visits next {i n} done found => ?_) _
  have closed := visits.closed nonneg
  obtain ⟨-, out⟩ := visits.grown.consistent.next?_eq_some next
  -- Both sums have the same estimate, which is nothing.
  have rises := visits.rises consistent nonneg next done found
  rw [blind node.key, ← blind n.key] at rises
  exact consistent.cancels (closed.nonneg found) (closed.nonneg out.found) rises

end Problem

end ActionPlanning.Search
