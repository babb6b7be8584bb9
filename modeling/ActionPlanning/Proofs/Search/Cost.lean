import ActionPlanning.Search.Priority
import Mathlib.Algebra.Order.Monoid.Defs

/-!
# Costs that a search may rely on

A search adds up costs and compares the sums. What it relies on is little: among costs that are not
negative comparison is a total order, and addition is monotone and never lowers what is added to.
Amounts have these properties although their addition rounds, and so does every ordered monoid, in
which costs are added exactly. A search that is to find what is cheapest also relies on its queue:
nothing is handed out before something cheaper.

## Main definitions

* `LawfulCost`: the properties relied on.
* `LawfulCost.le_rfl`, `LawfulCost.nonneg_trans`, `LawfulCost.nonneg_add`: their first consequences.
* `CheapestFirst`: the queue keeps to the order of the costs.
* `CountedCost`: there are fewer costs than the limit on expansions allows for.
* `FaithfulQueue`: costs that are equal as numbers are queued alike.
-/

namespace ActionPlanning.Search

/-- What a search relies on of the costs that are not negative. -/
class LawfulCost (α : Type) [Zero α] [Add α] [LE α] : Prop where
  le_total : ∀ {a b : α}, 0 ≤ a → 0 ≤ b → a ≤ b ∨ b ≤ a
  le_trans : ∀ {a b c : α}, 0 ≤ a → a ≤ b → b ≤ c → a ≤ c
  zero_le_zero : (0 : α) ≤ 0
  add_le_add : ∀ {a b c d : α}, 0 ≤ a → 0 ≤ c → a ≤ b → c ≤ d → a + c ≤ b + d
  le_add : ∀ {a b : α}, 0 ≤ a → 0 ≤ b → a ≤ a + b
  add_zero_le : ∀ {a : α}, 0 ≤ a → a + 0 ≤ a

namespace LawfulCost

variable {α : Type} [Zero α] [Add α] [LE α] [LawfulCost α] {a b : α}

theorem le_rfl (nonneg : 0 ≤ a) : a ≤ a := (le_total nonneg nonneg).elim id id

theorem nonneg_trans (nonneg : 0 ≤ a) (le : a ≤ b) : 0 ≤ b := le_trans zero_le_zero nonneg le

theorem nonneg_add (nonnegA : 0 ≤ a) (nonnegB : 0 ≤ b) : 0 ≤ a + b :=
  nonneg_trans nonnegA (le_add nonnegA nonnegB)

end LawfulCost

/-- Costs of which there are at most `2 ^ 64`: marks from that range tell apart all that are not
negative and do not compare as equal. -/
class CountedCost (α : Type) [Zero α] [LE α] : Prop where
  exists_mark : ∃ mark : α → Fin UInt64.size, ∀ {a b : α}, 0 ≤ a → 0 ≤ b → mark a = mark b → a ≤ b

/-- Costs that are estimated by costs: the queue hands out no sum before a lesser one. -/
class CheapestFirst (α : Type) [Zero α] [LE α] [Priority α] : Prop where
  le_of_queued : ∀ {a b : α}, 0 ≤ a → 0 ≤ b → Priority.le a b = true → a ≤ b

/-- Costs that keep their order in the queue when nothing is estimated. So costs that compare as
equal are queued alike, and the order of their arrival decides. -/
class FaithfulQueue (α : Type) [Zero α] [Add α] [LE α] [Priority α] : Prop where
  queued_of_le : ∀ {a b : α}, 0 ≤ a → 0 ≤ b → a ≤ b → Priority.le (a + 0) (b + 0) = true

/-- Exact costs are queued by their order. -/
instance (priority := low) {α : Type} [LinearOrder α] : Priority α := ⟨fun a b => decide (a ≤ b)⟩

instance (priority := low) {α : Type} [LinearOrder α] : LawfulPriority α where
  le_trans ab bc := decide_eq_true ((of_decide_eq_true ab).trans (of_decide_eq_true bc))
  le_total a b := (le_total a b).imp decide_eq_true decide_eq_true

/-- Exact addition has all that a search relies on. -/
instance (priority := low) {α : Type} [AddCommMonoid α] [LinearOrder α] [IsOrderedAddMonoid α] :
    LawfulCost α where
  le_total _ _ := le_total _ _
  le_trans _ ab bc := le_trans ab bc
  zero_le_zero := le_rfl
  add_le_add _ _ ab cd := add_le_add ab cd
  le_add _ nonneg := le_add_of_nonneg_right nonneg
  add_zero_le _ := (add_zero _).le

instance (priority := low) {α : Type} [Zero α] [LinearOrder α] : CheapestFirst α where
  le_of_queued _ _ queued := of_decide_eq_true queued

end ActionPlanning.Search
