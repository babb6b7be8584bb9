import ActionPlanning.Search.Frontier

/-!
# The frontier is a queue

The heap behind a frontier keeps every root before all that lies below it, and no operation loses
or doubles a node. So the frontier hands out its nodes by priority, and in the order of arrival
among those of one priority.

## Main results

* `Heap.toList_merge`, `Heap.toList_combine`: the operations keep the nodes of a heap.
* `Heap.Ordered.merge`, `Heap.Ordered.combine`: the operations keep the order of a heap.
* `Frontier.toList_push`, `Frontier.pop?_eq_none_iff`, `Frontier.pop?_eq_some`: what the frontier
  does, in terms of the nodes that wait.
-/

namespace ActionPlanning.Search

variable {α : Type}

namespace Waiting

variable [Priority α] {a b c : Waiting α}

theorem before_iff :
    a.before b = true ↔ Priority.le a.priority b.priority = true ∧
      (Priority.le b.priority a.priority = true → a.arrival ≤ b.arrival) := by
  cases h : Priority.le b.priority a.priority <;> simp [before, h]

variable [LawfulPriority α]

theorem before_trans (first : a.before b = true) (second : b.before c = true) :
    a.before c = true := by
  obtain ⟨ab, tieAB⟩ := before_iff.mp first
  obtain ⟨bc, tieBC⟩ := before_iff.mp second
  refine before_iff.mpr ⟨LawfulPriority.le_trans ab bc, fun ca => ?_⟩
  exact Nat.le_trans (tieAB (LawfulPriority.le_trans bc ca)) (tieBC (LawfulPriority.le_trans ca ab))

theorem before_total (a b : Waiting α) : a.before b = true ∨ b.before a = true := by
  simp only [before_iff]
  by_cases ab : Priority.le a.priority b.priority = true
  · by_cases ba : Priority.le b.priority a.priority = true
    · rcases Nat.le_total a.arrival b.arrival with h | h
      · exact .inl ⟨ab, fun _ => h⟩
      · exact .inr ⟨ba, fun _ => h⟩
    · exact .inl ⟨ab, fun h => absurd h ba⟩
  · have ba := (LawfulPriority.le_total a.priority b.priority).resolve_left ab
    exact .inr ⟨ba, fun h => absurd h ab⟩

end Waiting

namespace Heap

@[simp] theorem toList_empty : (empty : Heap α).toList = [] := rfl

@[simp] theorem toList_node (a : Waiting α) (child sibling : Heap α) :
    (node a child sibling).toList = a :: (child.toList ++ sibling.toList) := rfl

/-- Whether a heap has at most one root. -/
def Single : Heap α → Prop
  | empty => True
  | node _ _ sibling => sibling = empty

variable [Priority α]

/-- Merging makes one root. -/
theorem single_merge (h k : Heap α) : (h.merge k).Single := by
  cases h with
  | empty => cases k <;> simp [merge, Single]
  | node a childA _ =>
    cases k with
    | empty => simp [merge, Single]
    | node b childB _ =>
      rw [merge]
      split <;> exact rfl

/-- Combining makes one root. -/
theorem single_combine : ∀ h : Heap α, h.combine.Single
  | empty => trivial
  | node _ _ empty => rfl
  | node _ _ (node _ _ _) => single_merge _ _

/-- Merging keeps the nodes of both heaps. -/
theorem toList_merge {h k : Heap α} (singleH : h.Single) (singleK : k.Single) :
    (h.merge k).toList.Perm (h.toList ++ k.toList) := by
  cases h with
  | empty =>
    cases k with
    | empty => exact .refl _
    | node b childB sibling =>
      obtain rfl : sibling = empty := singleK
      exact .refl _
  | node a childA sibling =>
    obtain rfl : sibling = empty := singleH
    cases k with
    | empty => simp [merge]
    | node b childB sibling =>
      obtain rfl : sibling = empty := singleK
      simp only [merge]
      split
      · simp only [toList_node, toList_empty, List.append_nil, List.cons_append]
        exact .cons a (@List.perm_append_comm _ (b :: childB.toList) childA.toList)
      · simp only [toList_node, toList_empty, List.append_nil, List.cons_append]
        exact (@List.perm_middle _ b (a :: childA.toList) childB.toList).symm

/-- Combining keeps the nodes of a heap. -/
theorem toList_combine : ∀ h : Heap α, h.combine.toList.Perm h.toList
  | empty => .refl _
  | node _ _ empty => .refl _
  | node a childA (node b childB rest) => by
    have one : Single (node a childA empty) := rfl
    have two : Single (node b childB empty) := rfl
    have pair := toList_merge one two
    have whole := toList_merge (single_merge (node a childA empty) (node b childB empty))
      (single_combine rest)
    simp only [combine, toList_node, toList_empty, List.append_nil, List.cons_append] at *
    refine whole.trans ((pair.append (toList_combine rest)).trans ?_)
    simp

/-! ## Order -/

/-- Whether every root comes before all that lies below it. -/
def Ordered : Heap α → Prop
  | empty => True
  | node a child sibling =>
    (∀ w ∈ child.toList, a.before w = true) ∧ child.Ordered ∧ sibling.Ordered

variable [LawfulPriority α]

/-- Merging keeps the order. -/
theorem Ordered.merge {h k : Heap α} (orderedH : h.Ordered) (orderedK : k.Ordered) :
    (h.merge k).Ordered := by
  cases h with
  | empty =>
    cases k with
    | empty => exact trivial
    | node b childB _ => exact ⟨orderedK.1, orderedK.2.1, trivial⟩
  | node a childA _ =>
    cases k with
    | empty => exact ⟨orderedH.1, orderedH.2.1, trivial⟩
    | node b childB _ =>
      obtain ⟨belowA, orderedA, _⟩ := orderedH
      obtain ⟨belowB, orderedB, _⟩ := orderedK
      simp only [Heap.merge]
      split
      case isTrue first =>
        refine ⟨fun w member => ?_, ⟨belowB, orderedB, orderedA⟩, trivial⟩
        rcases List.mem_cons.mp member with rfl | member
        · exact first
        · rcases List.mem_append.mp member with member | member
          · exact Waiting.before_trans first (belowB w member)
          · exact belowA w member
      case isFalse notFirst =>
        have first := (Waiting.before_total a b).resolve_left notFirst
        refine ⟨fun w member => ?_, ⟨belowA, orderedA, orderedB⟩, trivial⟩
        rcases List.mem_cons.mp member with rfl | member
        · exact first
        · rcases List.mem_append.mp member with member | member
          · exact Waiting.before_trans first (belowA w member)
          · exact belowB w member

/-- Combining keeps the order. -/
theorem Ordered.combine : ∀ {h : Heap α}, h.Ordered → h.combine.Ordered
  | .empty, _ => trivial
  | .node _ _ .empty, ordered => ordered
  | .node _ _ (.node _ _ _), ⟨belowA, orderedA, belowB, orderedB, orderedRest⟩ =>
    .merge (.merge ⟨belowA, orderedA, trivial⟩ ⟨belowB, orderedB, trivial⟩) orderedRest.combine

end Heap

namespace Frontier

variable [Priority α]

/-- What holds of a frontier in use: its heap is in order below one root, and arrivals are counted
past every node that waits. -/
structure WellFormed (f : Frontier α) : Prop where
  single : f.heap.Single
  ordered : f.heap.Ordered
  arrived : ∀ w ∈ f.toList, w.arrival < f.arrivals

theorem WellFormed.empty : (empty : Frontier α).WellFormed :=
  ⟨trivial, trivial, fun _ member => absurd member List.not_mem_nil⟩

variable {f g : Frontier α} {node : Nat} {priority : α}

/-- Adding a node adds that node, as the last to arrive. -/
theorem toList_push (wellFormed : f.WellFormed) (node : Nat) (priority : α) :
    (f.push node priority).toList.Perm (⟨priority, f.arrivals, node⟩ :: f.toList) :=
  have one : Heap.Single (.node ⟨priority, f.arrivals, node⟩ .empty .empty) := rfl
  (Heap.toList_merge wellFormed.single one).trans (List.perm_append_singleton _ _)

/-- Nothing is handed out exactly when nothing waits. -/
theorem pop?_eq_none_iff : f.pop? = none ↔ f.toList = [] := by
  obtain ⟨heap, arrivals⟩ := f
  cases heap <;> simp [pop?, toList]

variable [LawfulPriority α]

theorem WellFormed.push (wellFormed : f.WellFormed) : (f.push node priority).WellFormed where
  single := Heap.single_merge _ _
  ordered :=
    wellFormed.ordered.merge ⟨fun _ member => absurd member List.not_mem_nil, trivial, trivial⟩
  arrived w member := by
    rcases List.mem_cons.mp ((toList_push wellFormed node priority).mem_iff.mp member) with rfl | h
    · exact Nat.lt_succ_self _
    · exact Nat.lt_succ_of_lt (wellFormed.arrived w h)

/-- What is handed out is one of the nodes that wait, comes before all others, and leaves exactly
them. -/
theorem pop?_eq_some (wellFormed : f.WellFormed) (popped : f.pop? = some (node, g)) :
    ∃ first : Waiting α, first.node = node ∧ f.toList.Perm (first :: g.toList)
      ∧ (∀ w ∈ g.toList, first.before w = true) ∧ g.WellFormed := by
  obtain ⟨heap, arrivals⟩ := f
  obtain ⟨single, ordered, arrived⟩ := wellFormed
  cases heap with
  | empty => simp [pop?] at popped
  | node first child sibling =>
    obtain rfl : sibling = .empty := single
    obtain ⟨rfl, rfl⟩ : first.node = node ∧ ⟨child.combine, arrivals⟩ = g := by
      simpa [pop?] using popped
    have kept := Heap.toList_combine child
    refine ⟨first, rfl, ?_, fun w member => ordered.1 w (kept.mem_iff.mp member), ?_⟩
    · simpa [toList] using kept.symm.cons first
    · refine ⟨Heap.single_combine child, ordered.2.1.combine, fun w member => arrived w ?_⟩
      simpa [toList] using .inr (kept.mem_iff.mp member)

end Frontier

end ActionPlanning.Search
