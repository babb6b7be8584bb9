import ActionPlanning.Amount.Text
import ActionPlanning.WorldState

/-!
# Events

Planning keeps a journal of what happened: searches that ended, prices that had to be mended,
snapshots that were fetched. Each kind of event has a level, and the text of an event is made
from its parts in one place.
-/

namespace ActionPlanning

/-- How much attention an event asks for, from least to most. -/
inductive Level where
  | debug
  | info
  | warn
  deriving DecidableEq, Repr

namespace Level

/-- The place of a level among the others. -/
def severity : Level → Nat
  | debug => 0
  | info => 1
  | warn => 2

/-- The name of a level in the journal. -/
def label : Level → String
  | debug => "DEBUG"
  | info => "INFO"
  | warn => "WARN"

end Level

/-- What the journal can tell. -/
inductive Event where
  /-- A price came out negative or not a number, so zero was used. -/
  | priceMended (action : String) (price : Amount)
  /-- A search ended with a plan. -/
  | searchFinished (strategy goal : String) (expansions : Nat)
  /-- A search ended with nothing left to expand. -/
  | searchExhausted (strategy goal : String) (expansions : Nat)
  /-- A search ended because its budget was used up. -/
  | searchGaveUp (strategy goal : String) (budget : Nat)
  /-- A goal was found to hold already. -/
  | goalHolds (goal : String)
  /-- A plan to a goal was found. -/
  | planFound (goal : String) (actions : List String)
  /-- No plan to a goal was found. -/
  | planMissing (goal : String)
  /-- A planning system was cut down to its relevant actions. -/
  | systemPruned (before after : Nat)
  /-- The actions worth running now were collected. -/
  | candidatesRanked (candidates actions : Nat)
  /-- The plans of all goals were ranked. -/
  | plansRanked (plans goals : Nat)
  /-- The world state of an episode was fetched. -/
  | stateFetched (state : WorldState)
  deriving Repr

namespace Event

/-- Mended prices and abandoned searches are warnings, outcomes per goal are information, and
the rest is for tracing. -/
def level : Event → Level
  | priceMended .. | searchGaveUp .. => .warn
  | goalHolds .. | planFound .. | planMissing .. => .info
  | _ => .debug

/-- The names of actions in the order they run. -/
def chain (actions : List String) : String := String.intercalate " -> " actions

/-- The text of an event. -/
def text : Event → String
  | priceMended action price =>
    "action " ++ action ++ " evaluated to invalid cost " ++ price.plainText ++ ", using 0"
  | searchFinished strategy goal expansions =>
    strategy ++ " search for goal " ++ goal ++ " finished after " ++ toString expansions
      ++ " expansions"
  | searchExhausted strategy goal expansions =>
    strategy ++ " search for goal " ++ goal ++ " exhausted after " ++ toString expansions
      ++ " expansions"
  | searchGaveUp strategy goal budget =>
    strategy ++ " search for goal " ++ goal ++ " gave up after " ++ toString budget
      ++ " expansions"
  | goalHolds goal => "goal " ++ goal ++ " is already satisfied"
  | planFound goal actions => "found plan to goal " ++ goal ++ ": " ++ chain actions
  | planMissing goal => "no plan found to goal " ++ goal
  | systemPruned before after =>
    "pruned planning system from " ++ toString before ++ " to " ++ toString after ++ " actions"
  | candidatesRanked candidates actions =>
    toString candidates ++ " of " ++ toString actions ++ " actions are performable candidates"
  | plansRanked plans goals =>
    "ranked " ++ toString plans ++ " plans for " ++ toString goals ++ " goals"
  | stateFetched state => "fetched world state for new episode: " ++ state.describe

/-- An event as a line of the journal. -/
def line (e : Event) : String := e.level.label ++ " " ++ e.text

end Event

/-- The lines of the events at a level or above. -/
def journalLines (lowest : Level) (events : List Event) : List String :=
  (events.filter fun e => lowest.severity ≤ e.level.severity).map Event.line

end ActionPlanning
