import ActionPlanning.Failure
import ActionPlanning.Journal.Recorded
import ActionPlanning.Quantity

/-!
# Actions

An action can be performed where its preconditions hold, and its effects hold after it has run.
It has a price, which searches add up, and a worth of its own, which only the ranking of actions
looks at. Prices used for planning are never negative and never undefined: a price that comes out
so counts as zero and leaves a warning. An infinite price is kept.
-/

namespace ActionPlanning

/-- Something an agent can do. -/
structure Action where
  name : String
  preconditions : Conditions := ∅
  effects : Conditions := ∅
  cost : Quantity := .fixed 1
  value : Quantity := .fixed 0
  deriving Inhabited, BEq

namespace Action

/-- Whether an amount may be the fixed price of an action. -/
def isPrice (cost : Amount) : Bool := cost.isFinite && !(cost < 0)

/-- The action with a fixed price checked. -/
def checked (a : Action) : Except Failure Action :=
  match a.cost with
  | .fixed cost => if isPrice cost then .ok a else .error (.invalidActionCost a.name cost)
  | .computed .. => .ok a

/-- Whether an evaluated price has to be mended. -/
def needsMending (price : Amount) : Bool := price.isNaN || price < 0

/-- The price used for planning in a state. -/
def costIn (a : Action) (state : WorldState) : Amount :=
  let price := a.cost.amountIn state
  if needsMending price then 0 else price

/-- The warning that evaluating the price in a state leaves, if any. -/
def costEvents (a : Action) (state : WorldState) : List Event :=
  let price := a.cost.amountIn state
  if needsMending price then [.priceMended a.name price] else []

/-- The price used for planning, with the warning its evaluation leaves. -/
def price (a : Action) (state : WorldState) : Recorded Amount :=
  ⟨a.costIn state, a.costEvents state⟩

/-- What running the action on its own is worth in a state. -/
def valueIn (a : Action) (state : WorldState) : Amount := a.value.amountIn state

/-- Whether the preconditions hold. -/
def canPerform (a : Action) (facts : Conditions) : Bool := facts.satisfies a.preconditions

/-- The state after the action has run. -/
def applyTo (a : Action) (state : WorldState) : WorldState := state.successor a.effects

/-- Whether running the action makes some target hold. -/
def achievesAny (a : Action) (targets : Conditions) : Bool := a.effects.overlaps targets

/-- The first key that the effects set to another value than the preconditions ask for. -/
def contradiction? (a : Action) : Option String :=
  (a.effects.entries.find? fun e => (a.preconditions.get? e.key).any (· ≠ e.value)).map
    Condition.key

end Action

end ActionPlanning
