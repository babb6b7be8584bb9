import ActionPlanning.Proofs.Search.Coverage

/-!
# The arena call by call

A search offers nodes to its arena, one at a time, and has nodes handed out of it. At first the
start is due to be offered. Once nothing is due, the next node is handed out, and what its moves
lead to is due. This file follows a search from each of these calls to the next, and not only from
turn to turn, and says what can be relied on in every arena that it comes to.

The origin of a node lies before it, so the way back from a node ends at the start and comes by
nodes of the arena only. Costs never fall along the way. For every key of the arena the record
names a node of that key, and no node of the key costs less. Unless this node was handed out
already, it waits in the frontier, and a node is handed out exactly as long as there is such a node.

Whether a key ends the search has no part in this, and neither has what is estimated.

## Main definitions

* `Problem.ComesTo`: the arenas that a search comes to, call by call.
* `Arena.WayBack`: the way back from a node to the start.
* `Arena.Best`: the node on record for a key is a cheapest node of the key.
* `Problem.Sound`, `Problem.StaysSound`: what can be relied on in one arena, and in all of them.

## Main results

* `Problem.Visits.comesTo`, `Problem.exists_comesTo_of_found`: what a search comes to turn by turn,
  and where it ends, it comes to call by call.
* `Problem.ComesTo.kept`: every call keeps the parts of an arena in agreement.
* `Problem.Nonneg.staysSound`: so every arena that a search comes to is sound.
-/

namespace ActionPlanning.Search

variable {κ σ α ε : Type} [Ord κ]

namespace Arena

/-- The way back from a node through the origins, with the steps on it. It ends at a node without
an origin. -/
inductive WayBack (arena : Arena κ σ α ε) : Nat → List σ → Prop
  | start {index : Nat} {node : Node κ σ α} : arena.nodes[index]? = some node →
    node.origin = none → arena.WayBack index []
  | step {index before : Nat} {node : Node κ σ α} {step : σ} {steps : List σ} :
    arena.nodes[index]? = some node → node.origin = some (before, step) →
    arena.WayBack before steps → arena.WayBack index (step :: steps)

/-- On record for a key is a node of the key, and no node of the key costs less. -/
structure Best [LE α] (arena : Arena κ σ α ε) (key : κ) (index : Nat) : Prop where
  recorded : arena.record[key]? = some index
  least : ∃ best, arena.nodes[index]? = some best ∧ best.key = key ∧
    ∀ (i : Nat) (other : Node κ σ α), arena.nodes[i]? = some other → other.key = key →
      best.cost ≤ other.cost

/-- The arena when nothing waits any more. -/
def drained (arena : Arena κ σ α ε) : Arena κ σ α ε :=
  { arena with frontier := ⟨.empty, arena.frontier.arrivals⟩ }

theorem Consistent.drained [HAdd α ε ε] [Priority ε] {arena : Arena κ σ α ε}
    (consistent : arena.Consistent) : arena.drained.Consistent := by
  refine ⟨⟨trivial, trivial, ?_⟩, consistent.arrivals, ?_, .nil, consistent.recorded,
    consistent.known⟩
  · intro _ member
    exact absurd member List.not_mem_nil
  · intro _ member
    exact absurd member List.not_mem_nil

end Arena

namespace Problem

variable [Zero α] [Add α] [LE α]

/-- How a node was reached: it is the start unless it has an origin, which lies before it; from
there it was reached by a move, at the cost of both together, which is no less than the cost of
the origin alone. -/
structure Reached (problem : Problem κ σ α ε) (arena : Arena κ σ α ε) (index : Nat)
    (node : Node κ σ α) : Prop where
  start : node.origin = none → node = ⟨problem.start, none, 0⟩
  before : ∀ i step, node.origin = some (i, step) → i < index ∧
    ∃ origin move, arena.nodes[i]? = some origin ∧ move ∈ problem.moves origin.key ∧
      move.step = step ∧ move.key = node.key ∧ node.cost = origin.cost + move.cost ∧
        origin.cost ≤ node.cost

variable [DecidableLE α] [HAdd α ε ε] [Priority ε]

/-- The search comes to an arena, call by call: the arena, the nodes handed out so far, the latest
first, and the nodes that are still due to be offered. -/
inductive ComesTo (problem : Problem κ σ α ε) :
    Arena κ σ α ε → List Nat → List (Node κ σ α) → Prop
  | new : problem.ComesTo .empty [] [⟨problem.start, none, 0⟩]
  | offer {arena : Arena κ σ α ε} {handedOut : List Nat} {node : Node κ σ α}
    {due : List (Node κ σ α)} : problem.ComesTo arena handedOut (node :: due) →
    problem.ComesTo (problem.offer arena node) handedOut due
  | next {arena rest : Arena κ σ α ε} {handedOut : List Nat} {index : Nat} {node : Node κ σ α} :
    problem.ComesTo arena handedOut [] → arena.next? = some (index, node, rest) →
    problem.ComesTo rest (index :: handedOut) ((problem.moves node.key).map (nodeAfter index node))
  | dry {arena : Arena κ σ α ε} {handedOut : List Nat} :
    problem.ComesTo arena handedOut [] → arena.next? = none →
    problem.ComesTo arena.drained handedOut []

/-- What can be relied on in an arena out of which some nodes were handed. -/
structure Sound (problem : Problem κ σ α ε) (arena : Arena κ σ α ε) (handedOut : List Nat) :
    Prop where
  reached : ∀ (index : Nat) (node : Node κ σ α), arena.nodes[index]? = some node →
    problem.Reached arena index node
  wayBack : ∀ index < arena.nodes.size, arena.WayBack index (arena.stepsBack index)
  known : ∀ (index : Nat) (node : Node κ σ α), arena.nodes[index]? = some node →
    ∃ best, arena.Best node.key best
  best : ∀ (key : κ) (index : Nat), arena.record[key]? = some index → arena.Best key index
  waits : ∀ (key : κ) (index : Nat), arena.record[key]? = some index → index ∉ handedOut →
    arena.Waits index
  handsOut : arena.next?.isSome = true ↔
    ∃ (key : κ) (index : Nat), arena.record[key]? = some index ∧ index ∉ handedOut

/-- Every arena that the search comes to is sound. -/
def StaysSound (problem : Problem κ σ α ε) : Prop :=
  ∀ arena handedOut due, problem.ComesTo arena handedOut due → problem.Sound arena handedOut

variable {problem : Problem κ σ α ε} {arena rest : Arena κ σ α ε} {handedOut expanded : List Nat}
  {due : List (Node κ σ α)} {index : Nat} {node other : Node κ σ α}

/-- Everything that is due is offered, one after the other. -/
theorem ComesTo.offerAll (comes : problem.ComesTo arena handedOut due) :
    problem.ComesTo (due.foldl problem.offer arena) handedOut [] := by
  induction due generalizing arena with
  | nil => exact comes
  | cons node due ih => exact ih comes.offer

/-- What a search comes to turn by turn it comes to call by call. -/
theorem Visits.comesTo (visits : problem.Visits arena expanded) :
    problem.ComesTo arena expanded [] := by
  induction visits with
  | init => exact .offer .new
  -- A turn hands a node out and then offers whatever its moves lead to.
  | @expand arena rest expanded index node _ next _ ih =>
    have expands : problem.expand rest index node
        = ((problem.moves node.key).map (nodeAfter index node)).foldl problem.offer rest := by
      rw [List.foldl_map]
      rfl
    rw [expands]
    exact (ComesTo.next ih next).offerAll

/-- What a search finds is read off an arena that it comes to call by call, with the last node
handed out. -/
theorem exists_comesTo_of_found {budget : Option Nat} {steps : List σ} {cost : α}
    (found : (problem.run budget).ending = .found steps cost) :
    ∃ arena index handedOut due, problem.ComesTo arena (index :: handedOut) due ∧
      arena.stepsBack index = steps := by
  obtain ⟨arena, expanded, visits, ends⟩ := run_ends problem budget
  generalize problem.run budget = report at ends found
  cases ends with
  | @found index node rest next _ =>
    obtain ⟨rfl, -⟩ : rest.stepsBack index = steps ∧ node.cost = cost := by simpa using found
    exact ⟨rest, index, expanded, _, .next visits.comesTo next, rfl⟩
  | exhausted => cases found
  | gaveUp => cases found
  | unbounded => cases found

/-! ## What every call keeps -/

/-- The same problem without an end: no key ends the search. -/
def endless (problem : Problem κ σ α ε) : Problem κ σ α ε :=
  { problem with isGoal := fun _ => false }

/-- What every call keeps: the parts of the arena agree, as they do in a search that goes on
without an end, and whatever is due has an origin in the arena. -/
structure Kept (problem : Problem κ σ α ε) (arena : Arena κ σ α ε) (handedOut : List Nat)
    (due : List (Node κ σ α)) : Prop where
  grown : problem.endless.Grown arena handedOut
  closed : problem.Closed arena []
  origins : ∀ node ∈ due, problem.Originates arena.nodes arena.nodes.size node

/-- An origin stays one when nodes are offered. -/
theorem Originates.offer (origin : problem.Originates arena.nodes arena.nodes.size other) :
    problem.Originates (problem.offer arena node).nodes (problem.offer arena node).nodes.size
      other := by
  rcases origin with rfl | ⟨i, before, move, -, found, member, rfl⟩
  · exact .inl rfl
  · have kept : (problem.offer arena node).nodes[i]? = some before := nodes_offer_of_found found
    exact .inr ⟨i, before, move, (Array.getElem?_eq_some_iff.mp kept).1, kept, member, rfl⟩

omit [Ord κ] [DecidableLE α] [HAdd α ε ε] [Priority ε] in
/-- What has an origin among nodes of no negative cost has no negative cost. -/
theorem Originates.nonneg [LawfulCost α] {nodes : Array (Node κ σ α)}
    (origin : problem.Originates nodes index node) (nonneg : problem.Nonneg)
    (nonnegNodes : ∀ {i : Nat} {n : Node κ σ α}, nodes[i]? = some n → 0 ≤ n.cost) :
    0 ≤ node.cost := by
  rcases origin with rfl | ⟨i, before, move, -, found, member, rfl⟩
  · exact LawfulCost.zero_le_zero
  · exact LawfulCost.nonneg_add (nonnegNodes found) (nonneg before.key move member)

section

variable [LawfulPriority ε]

theorem Kept.next (kept : problem.Kept arena handedOut [])
    (next : arena.next? = some (index, node, rest)) :
    problem.Kept rest (index :: handedOut)
      ((problem.moves node.key).map (nodeAfter index node)) := by
  obtain ⟨consistent, out⟩ := kept.grown.consistent.next?_eq_some next
  refine ⟨kept.grown.handOut consistent out rfl, kept.closed.congr out.nodes out.record, ?_⟩
  intro reached member
  obtain ⟨move, moves, rfl⟩ := List.mem_map.mp member
  have found : rest.nodes[index]? = some node := out.nodes ▸ out.found
  exact .inr ⟨index, node, move, (Array.getElem?_eq_some_iff.mp found).1, found, moves, rfl⟩

/-- When no node is handed out, every node on record was handed out before. -/
theorem Kept.dry (kept : problem.Kept arena handedOut []) (next : arena.next? = none) :
    problem.Kept arena.drained handedOut [] := by
  refine ⟨⟨kept.grown.consistent.drained, ?_, kept.grown.traced, ?_, ?_, kept.grown.passed,
    kept.grown.once⟩, kept.closed.congr rfl rfl, ?_⟩
  · intro _ member
    exact absurd member List.not_mem_nil
  · intro i live
    have live : arena.Live i := live
    rcases kept.grown.attended live with waits | done
    · exact absurd live (kept.grown.consistent.next?_eq_none next waits)
    · exact .inr done
  · intro i _ waits
    obtain ⟨w, member, -⟩ := waits
    exact absurd member List.not_mem_nil
  · intro _ member
    exact absurd member List.not_mem_nil

variable [Std.TransOrd κ]

omit [LawfulPriority ε] in
theorem Kept.new : problem.Kept .empty [] [⟨problem.start, none, 0⟩] := by
  refine ⟨.empty, .empty, ?_⟩
  intro node isStart
  exact .inl (List.mem_singleton.mp isStart)

variable [Std.LawfulEqOrd κ] [LawfulCost α]

theorem Kept.offer (kept : problem.Kept arena handedOut (node :: due))
    (nonneg : problem.Nonneg) : problem.Kept (problem.offer arena node) handedOut due := by
  have origin := kept.origins node List.mem_cons_self
  refine ⟨kept.grown.offer origin, kept.closed.offer (origin.nonneg nonneg kept.closed.nonneg), ?_⟩
  intro other member
  exact (kept.origins other (List.mem_cons_of_mem _ member)).offer

/-- Every call keeps the parts of an arena in agreement. -/
theorem ComesTo.kept (comes : problem.ComesTo arena handedOut due) (nonneg : problem.Nonneg) :
    problem.Kept arena handedOut due := by
  induction comes with
  | new => exact .new
  | offer _ ih => exact ih.offer nonneg
  | next _ next ih => exact ih.next next
  | dry _ next ih => exact ih.dry next

end

/-! ## What can be relied on -/

/-- Origins lie at smaller indices, so the way back ends. -/
theorem Kept.wayBack_stepsWithin (kept : problem.Kept arena handedOut due) {fuel : Nat}
    (found : arena.nodes[index]? = some node) (enough : index < fuel) :
    arena.WayBack index (arena.stepsWithin fuel index) := by
  induction fuel generalizing index node with
  | zero => exact absurd enough (Nat.not_lt_zero index)
  | succ fuel ih =>
    rcases kept.grown.traced found with rfl | ⟨i, before, move, earlier, foundBefore, -, rfl⟩
    · simp only [Arena.stepsWithin, found]
      exact .start found rfl
    · simp only [Arena.stepsWithin, found, nodeAfter]
      exact .step found rfl (ih foundBefore (by omega))

/-- Whatever is on record for a key is a cheapest node of the key, since it covers all of them. -/
theorem Kept.best (kept : problem.Kept arena handedOut due) {key : κ}
    (recorded : arena.record[key]? = some index) : arena.Best key index := by
  obtain ⟨best, found, same⟩ := kept.grown.consistent.recorded recorded
  refine ⟨recorded, best, found, same, ?_⟩
  intro i other foundOther sameOther
  obtain ⟨j, cheapest, covered⟩ := Arena.covers_iff.mp (kept.closed.best foundOther)
  obtain rfl : j = index :=
    Option.some.inj (covered.recorded.symm.trans (sameOther ▸ recorded))
  obtain rfl := Option.some.inj (covered.found.symm.trans found)
  exact covered.le

/-- What is on record and was not handed out waits. -/
theorem Kept.waits (kept : problem.Kept arena handedOut due) {key : κ}
    (recorded : arena.record[key]? = some index) (remains : index ∉ handedOut) :
    arena.Waits index :=
  (kept.grown.attended (kept.grown.consistent.live_of_record recorded)).resolve_right remains

/-- A node is handed out exactly as long as some node on record was not. -/
theorem Kept.isSome_next?_iff [LawfulPriority ε] (kept : problem.Kept arena handedOut due) :
    arena.next?.isSome = true ↔
      ∃ (key : κ) (index : Nat), arena.record[key]? = some index ∧ index ∉ handedOut := by
  have consistent := kept.grown.consistent
  constructor
  · intro some
    obtain ⟨⟨index, node, rest⟩, next⟩ := Option.isSome_iff_exists.mp some
    obtain ⟨-, out⟩ := consistent.next?_eq_some next
    exact ⟨node.key, index, out.recorded, fun done => kept.grown.apart done out.waits⟩
  · intro remaining
    obtain ⟨key, index, recorded, remains⟩ := remaining
    cases next : arena.next? with
    | some handedOut => rfl
    | none =>
      have waits := kept.waits recorded remains
      exact absurd (consistent.live_of_record recorded) (consistent.next?_eq_none next waits)

variable [LawfulCost α]

/-- A node that originates in a move was reached by it, at no less than the cost of its origin. -/
theorem Kept.reached (kept : problem.Kept arena handedOut due) (nonneg : problem.Nonneg)
    (found : arena.nodes[index]? = some node) : problem.Reached arena index node := by
  rcases kept.grown.traced found with rfl | ⟨i, before, move, earlier, foundBefore, member, rfl⟩
  · constructor
    · intro _
      rfl
    · intro _ _ origin
      cases origin
  · constructor
    · intro origin
      cases origin
    · intro _ _ origin
      cases origin
      exact ⟨earlier, before, move, foundBefore, member, rfl, rfl, rfl,
        LawfulCost.le_add (kept.closed.nonneg foundBefore) (nonneg before.key move member)⟩

/-- Every arena that a search comes to is sound, if no move has a negative cost. -/
theorem Nonneg.staysSound [Std.TransOrd κ] [Std.LawfulEqOrd κ] [LawfulPriority ε]
    (nonneg : problem.Nonneg) : problem.StaysSound := by
  intro arena handedOut due comes
  have kept := comes.kept nonneg
  refine ⟨?_, ?_, ?_, ?_, ?_, kept.isSome_next?_iff⟩
  · exact fun index node found => kept.reached nonneg found
  · intro index inside
    exact kept.wayBack_stepsWithin (Array.getElem?_eq_getElem inside) (Nat.lt_succ_self index)
  · intro index node found
    obtain ⟨best, recorded⟩ := kept.grown.consistent.known found
    exact ⟨best, kept.best recorded⟩
  · exact fun key index recorded => kept.best recorded
  · exact fun key index recorded remains => kept.waits recorded remains

end Problem

end ActionPlanning.Search
