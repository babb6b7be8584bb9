import ActionPlanning.Goal
import ActionPlanning.Text.Quoted

/-!
# Plans

A plan is a sequence of actions towards a goal, first action first, with the cost it had when it
was made. Its cost can be evaluated again in any state: the prices of the actions are added from
the first to the last, starting at `-0.0`, the neutral element of addition.
-/

namespace ActionPlanning

/-- Actions in the order they run, the goal they lead to, and what they cost. -/
structure Plan where
  goal : Goal
  actions : List Action
  cost : Amount
  deriving Inhabited

namespace Plan

/-- The sum of prices, added from the first to the last. -/
def total (prices : List Amount) : Amount := prices.foldl (· + ·) (-0.0)

/-- What the actions of a plan cost in a state. -/
def costOf (actions : List Action) (state : WorldState) : Amount :=
  total (actions.map (·.costIn state))

/-- The warnings that pricing a sequence of actions leaves. -/
def costEventsOf (actions : List Action) (state : WorldState) : List Event :=
  actions.flatMap (·.costEvents state)

/-- The plan whose actions are priced in a state. -/
def make (goal : Goal) (actions : List Action) (state : WorldState) : Recorded Plan :=
  ⟨⟨goal, actions, costOf actions state⟩, costEventsOf actions state⟩

/-- The cost of a plan, evaluated again in a state. -/
def costIn (p : Plan) (state : WorldState) : Amount := costOf p.actions state

/-- The cost of a plan, with the warnings its evaluation leaves. -/
def price (p : Plan) (state : WorldState) : Recorded Amount :=
  ⟨p.costIn state, costEventsOf p.actions state⟩

/-- The names of the actions. -/
def actionNames (p : Plan) : List String := p.actions.map Action.name

/-- Plans are equal when they have the same goal name, the same actions, and costs with the same
bits. -/
instance : BEq Plan where
  beq p q := p.goal.name == q.goal.name && p.cost.toBits == q.cost.toBits && p.actions == q.actions

/-- A plan reads as the chain of its actions and its cost. -/
def describe (p : Plan) : String :=
  let chain := if p.actions.isEmpty then "[]" else Event.chain p.actionNames
  chain ++ " (cost " ++ p.cost.plainText ++ ")"

/-- A description that names the fields of a plan. -/
def inspect (p : Plan) : String :=
  "Plan \x7b goal: " ++ Text.quoted p.goal.name ++ ", actions: " ++ Text.quotedList p.actionNames
    ++ ", cost: " ++ p.cost.compactText ++ " \x7d"

end Plan

end ActionPlanning
