import ActionPlanning.Search.Arena

/-!
# Best-first search

A problem gives a start, a test for keys that end the search, the moves out of each key, and an
estimate of what remains. The search expands nodes in the order of accumulated cost plus estimate,
keeping for each key only its cheapest node, until it comes to a key that ends it. Estimates need
not be costs: all that is asked of them is that they can be added to a cost, and that the sums have
a place in the queue.

A budget limits how many nodes may be expanded. Every problem also carries a bound on the number
of its keys. A key is expanded again only at a strictly lower cost, and there are fewer than
`2 ^ 64` amounts, so the bound times `2 ^ 64` expansions are never used up.

## Main definitions

* `Problem`: what is searched; both searches of this library are instances.
* `Problem.run`: the search, which yields a `Report` of how it ended.
-/

namespace ActionPlanning.Search

variable {κ σ α ε : Type}

/-- A step out of a key, where it leads, and what it costs. -/
structure Move (κ σ α : Type) where
  step : σ
  key : κ
  cost : α

/-- What is searched. -/
structure Problem (κ σ α ε : Type) where
  start : κ
  isGoal : κ → Bool
  moves : κ → List (Move κ σ α)
  estimate : κ → ε
  /-- At least the number of keys that moves can lead to. -/
  keyBound : Nat

/-- How a search ended. -/
inductive Ending (σ α : Type) where
  /-- At a key that ends it, reached by these steps, last step first, at this cost. -/
  | found (stepsBack : List σ) (cost : α)
  /-- With nothing left to expand. -/
  | exhausted
  /-- With the budget exceeded. -/
  | gaveUp (budget : Nat)
  /-- With the bound on the number of keys proved wrong. -/
  | unbounded
  deriving Repr

/-- How a search ended, and how many nodes it expanded before. -/
structure Report (σ α : Type) where
  ending : Ending σ α
  expansions : Nat
  deriving Repr

/-- The budget, if this many expansions exceed it. -/
def exceeded? (budget : Option Nat) (expansions : Nat) : Option Nat :=
  budget.filter (· < expansions)

variable [Ord κ] [Zero α] [Add α] [LE α] [DecidableLE α] [HAdd α ε ε] [Priority ε]

namespace Problem

/-- The node a move leads to from a node of the arena. -/
def nodeAfter (index : Nat) (node : Node κ σ α) (move : Move κ σ α) : Node κ σ α :=
  ⟨move.key, some (index, move.step), node.cost + move.cost⟩

/-- Offers a node, queued by its cost plus the estimate for its key. -/
def offer (problem : Problem κ σ α ε) (arena : Arena κ σ α ε) (node : Node κ σ α) : Arena κ σ α ε :=
  arena.offer node (node.cost + problem.estimate node.key)

/-- Offers the nodes that all moves out of a node lead to. -/
def expand (problem : Problem κ σ α ε) (arena : Arena κ σ α ε) (index : Nat) (node : Node κ σ α) :
    Arena κ σ α ε :=
  (problem.moves node.key).foldl
    (fun arena move => problem.offer arena (nodeAfter index node move)) arena

/-- The arena that holds the start alone. -/
def init (problem : Problem κ σ α ε) : Arena κ σ α ε :=
  problem.offer .empty ⟨problem.start, none, 0⟩

/-- Searches on from an arena, expanding at most `fuel` nodes more. -/
def runWithin (problem : Problem κ σ α ε) (budget : Option Nat) :
    Nat → Arena κ σ α ε → Nat → Report σ α
  | 0, _, expansions => ⟨.unbounded, expansions⟩
  | fuel + 1, arena, expansions =>
    match arena.next? with
    | none => ⟨.exhausted, expansions⟩
    | some (index, node, rest) =>
      if problem.isGoal node.key then ⟨.found (rest.stepsBack index) node.cost, expansions⟩
      else
        match exceeded? budget (expansions + 1) with
        | some limit => ⟨.gaveUp limit, expansions + 1⟩
        | none =>
          runWithin problem budget fuel (problem.expand rest index node) (expansions + 1)

/-- The number of expansions after which a search is cut off, more than it can need. -/
def fuel (problem : Problem κ σ α ε) : Nat := (problem.keyBound + 1) * UInt64.size

/-- Searches from the start. -/
def run (problem : Problem κ σ α ε) (budget : Option Nat) : Report σ α :=
  problem.runWithin budget problem.fuel problem.init 0

end Problem

end ActionPlanning.Search
