import ActionPlanning.Amount.Order

/-!
# Priorities

A search adds costs, compares them, and hands out the nodes of its frontier in the order of a
priority. Any type with zero, addition and an order can carry the costs. The order of priorities
is asked for separately, because amounts are queued by their total order while costs are compared
as numbers.
-/

namespace ActionPlanning.Search

/-- The order in which a frontier hands out its nodes: `le a b` when `a` need not wait for `b`. -/
class Priority (α : Type) where
  le : α → α → Bool

/-- What a frontier relies on: every two priorities compare, and comparison is transitive. -/
class LawfulPriority (α : Type) [Priority α] : Prop where
  le_trans : ∀ {a b c : α}, Priority.le a b = true → Priority.le b c = true →
    Priority.le a c = true
  le_total : ∀ a b : α, Priority.le a b = true ∨ Priority.le b a = true

/-- Amounts are queued by their total order. -/
instance : Priority Amount := ⟨Amount.totalLe⟩

instance : LawfulPriority Amount := ⟨Amount.totalLe_trans, Amount.totalLe_total⟩

end ActionPlanning.Search
