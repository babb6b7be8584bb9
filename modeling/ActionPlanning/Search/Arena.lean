import ActionPlanning.Search.Frontier
import Std.Data.TreeMap.Basic

/-!
# The arena of a search

All nodes that a search has made stand in an arena, each with its key, the node and step it came
from, and the cost accumulated so far. For every key the record names the node that reached it at
the least cost. An offered node enters the arena only if it is cheaper than the node on record for
its key; the node it displaces stays in the frontier and is passed over when its turn comes.
-/

namespace ActionPlanning.Search

variable {κ σ α ε : Type}

/-- A place in the search: where it is, how it was reached, and at what cost. -/
structure Node (κ σ α : Type) where
  key : κ
  /-- The index of the node before and the step taken from it; none at the start. -/
  origin : Option (Nat × σ)
  cost : α

/-- The nodes made so far, the record of the cheapest node per key, and the frontier. -/
structure Arena (κ σ α ε : Type) [Ord κ] where
  nodes : Array (Node κ σ α) := #[]
  record : Std.TreeMap κ Nat := ∅
  frontier : Frontier ε := {}

namespace Arena

variable [Ord κ]

/-- The arena before the first node. -/
def empty : Arena κ σ α ε := {}

/-- The cost at which a key is on record. -/
def recorded? (arena : Arena κ σ α ε) (key : κ) : Option α := do
  let index ← arena.record[key]?
  let node ← arena.nodes[index]?
  return node.cost

variable [LE α] [DecidableLE α]

/-- Whether a key is on record at a cost no higher than `cost`. -/
def covers (arena : Arena κ σ α ε) (key : κ) (cost : α) : Bool :=
  (arena.recorded? key).any (· ≤ cost)

variable [Priority ε]

/-- Adds a node with a priority, unless its key is on record at no higher cost. -/
def offer (arena : Arena κ σ α ε) (node : Node κ σ α) (priority : ε) : Arena κ σ α ε :=
  if arena.covers node.key node.cost then arena
  else
    let index := arena.nodes.size
    { nodes := arena.nodes.push node
      record := arena.record.insert node.key index
      frontier := arena.frontier.push index priority }

/-- Hands out nodes until one is still on record for its key, at most `fuel` of them. -/
def nextWithin : Nat → Arena κ σ α ε → Option (Nat × Node κ σ α × Arena κ σ α ε)
  | 0, _ => none
  | fuel + 1, arena =>
    match arena.frontier.pop? with
    | none => none
    | some (index, frontier) =>
      let rest := { arena with frontier }
      match arena.nodes[index]? with
      | none => nextWithin fuel rest
      | some node =>
        if arena.record[node.key]? = some index then some (index, node, rest)
        else nextWithin fuel rest

/-- The next node to look at: the first in the frontier that is still on record for its key. -/
def next? (arena : Arena κ σ α ε) : Option (Nat × Node κ σ α × Arena κ σ α ε) :=
  arena.nextWithin arena.frontier.arrivals

/-- The steps from a node back to the start, following at most `fuel` origins. -/
def stepsWithin (arena : Arena κ σ α ε) : Nat → Nat → List σ
  | 0, _ => []
  | fuel + 1, index =>
    match arena.nodes[index]? with
    | none => []
    | some node =>
      match node.origin with
      | none => []
      | some (before, step) => step :: arena.stepsWithin fuel before

/-- The steps from a node back to the start, last step first. Origins lie at smaller indices, so
the way back has at most as many steps as the index says. -/
def stepsBack (arena : Arena κ σ α ε) (index : Nat) : List σ :=
  arena.stepsWithin (index + 1) index

end Arena

end ActionPlanning.Search
