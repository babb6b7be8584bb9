import ActionPlanning.Conditions
import ActionPlanning.Time.Moment

/-!
# States of the world

A state of the world is a set of facts together with the moment at which they were observed.
Imagined successors describe the same moment of observation, so they keep it.
-/

namespace ActionPlanning

/-- Facts and the moment they were observed. -/
structure WorldState where
  facts : Conditions
  observed : Moment
  deriving Repr, Inhabited

namespace WorldState

/-- Two states are equal when they hold the same facts, whenever they were observed. -/
instance : BEq WorldState := ⟨fun a b => a.facts = b.facts⟩

/-- The imagined state after effects. -/
def successor (w : WorldState) (effects : Conditions) : WorldState :=
  { w with facts := w.facts.apply effects }

/-- A state reads `{facts} @ moment`. -/
def describe (w : WorldState) : String := w.facts.describe ++ " @ " ++ w.observed.describe

end WorldState

end ActionPlanning
