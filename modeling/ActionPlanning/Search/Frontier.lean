import ActionPlanning.Search.Priority

/-!
# The frontier of a search

The frontier holds nodes that wait to be expanded. It hands out a node of least priority, and of
several such nodes the one that was added first. It is a pairing heap: a tree whose root comes
before everything below it. Each node of the heap points to its leftmost child and to its next
sibling. Two heaps are merged by making the later root a child of the earlier one, and removing
the root merges its children, first in pairs and then from the last pair to the first.
-/

namespace ActionPlanning.Search

/-- A waiting node, its priority, and its place in the order of arrival. -/
structure Waiting (α : Type) where
  priority : α
  arrival : Nat
  node : Nat
  deriving Repr

namespace Waiting

variable {α : Type} [Priority α]

/-- Whether `a` is handed out before `b`, or is `b`: it has less priority value, or the same and
came first. -/
def before (a b : Waiting α) : Bool :=
  Priority.le a.priority b.priority && (!Priority.le b.priority a.priority || a.arrival ≤ b.arrival)

end Waiting

/-- A heap in child and sibling form. -/
inductive Heap (α : Type) where
  | empty
  | node (root : Waiting α) (child sibling : Heap α)
  deriving Repr

namespace Heap

variable {α : Type} [Priority α]

/-- The heap of two roots with their children. The siblings of both are left out. -/
def merge : Heap α → Heap α → Heap α
  | empty, empty => empty
  | empty, node b child _ => node b child empty
  | node a child _, empty => node a child empty
  | node a childA _, node b childB _ =>
    if a.before b then node a (node b childB childA) empty
    else node b (node a childA childB) empty

/-- One heap made from a root and its siblings. -/
def combine : Heap α → Heap α
  | node a childA (node b childB rest) =>
    merge (merge (node a childA empty) (node b childB empty)) (combine rest)
  | h => h

/-- The waiting nodes of a heap. -/
def toList : Heap α → List (Waiting α)
  | empty => []
  | node a child sibling => a :: (toList child ++ toList sibling)

end Heap

/-- Nodes that wait to be expanded, and the number of nodes that ever arrived. -/
structure Frontier (α : Type) where
  heap : Heap α := .empty
  arrivals : Nat := 0

namespace Frontier

variable {α : Type} [Priority α]

/-- The frontier in which nothing waits. -/
def empty : Frontier α := ⟨.empty, 0⟩

/-- Adds a node behind those of the same priority. -/
def push (f : Frontier α) (node : Nat) (priority : α) : Frontier α :=
  ⟨f.heap.merge (.node ⟨priority, f.arrivals, node⟩ .empty .empty), f.arrivals + 1⟩

/-- Hands out the first node. -/
def pop? (f : Frontier α) : Option (Nat × Frontier α) :=
  match f.heap with
  | .empty => none
  | .node first child _ => some (first.node, ⟨child.combine, f.arrivals⟩)

/-- The waiting nodes. -/
def toList (f : Frontier α) : List (Waiting α) := f.heap.toList

end Frontier

end ActionPlanning.Search
