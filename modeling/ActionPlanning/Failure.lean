import ActionPlanning.Amount.Text
import ActionPlanning.Time.Span

/-!
# Failures

What can end a planning episode or keep a catalog or a configuration from being used. A goal that
cannot be reached is not a failure. Every failure names its cause; the wording is made from the
cause in one place.
-/

namespace ActionPlanning

/-- Why no snapshot of the world is available. -/
inductive StateFault where
  /-- The determiner said so. -/
  | reported (reason : String)
  /-- The determiner did not answer within the time limit. -/
  | timedOut (limit : Span)
  /-- The determiner stopped without giving an answer. -/
  | noAnswer
  deriving DecidableEq, Repr

/-- What a condition key is referred to by. -/
inductive Referrer where
  | action
  | goal
  deriving DecidableEq, Repr

/-- Why a planning system is not well formed. -/
inductive CatalogFault where
  | reported (reason : String)
  | duplicateAction (name : String)
  | contradiction (action key : String)
  | unknownKey (referrer : Referrer) (name key : String)
  | duplicateGoal (name : String)
  deriving DecidableEq, Repr

/-- Why a configuration cannot be used. -/
inductive ConfigFault where
  /-- The text does not follow its format, or not the shape that is asked for. -/
  | unreadable
  /-- A number is too large for the format it would be saved in. -/
  | unwritable
  | costWeight (weight : Amount)
  | noBudget
  deriving Repr

/-- Why a file cannot be read. -/
inductive FileFault where
  | missing
  | notText
  deriving DecidableEq, Repr

/-- The causes for which planning fails. -/
inductive Failure where
  | stateUnavailable (fault : StateFault)
  | invalidCatalog (fault : CatalogFault)
  | invalidActionCost (action : String) (cost : Amount)
  | cancelled
  | config (fault : ConfigFault)
  | file (fault : FileFault)
  deriving Repr

namespace StateFault

def message : StateFault → String
  | reported reason => reason
  | timedOut limit => "determiner did not answer within " ++ limit.describe
  | noAnswer => "determiner exited without a snapshot"

end StateFault

/-- The kind of thing a name belongs to. -/
def Referrer.label : Referrer → String
  | action => "action"
  | goal => "goal"

namespace CatalogFault

def message : CatalogFault → String
  | reported reason => reason
  | duplicateAction name => "duplicate action '" ++ name ++ "'"
  | contradiction action key =>
    "action '" ++ action ++ "' effects contradict its precondition on '" ++ key ++ "'"
  | unknownKey referrer name key =>
    referrer.label ++ " '" ++ name ++ "' references unknown condition '" ++ key ++ "'"
  | duplicateGoal name => "duplicate goal '" ++ name ++ "'"

end CatalogFault

namespace ConfigFault

def message : ConfigFault → String
  | unreadable => "the document cannot be read"
  | unwritable => "a number is too large to be written"
  | costWeight weight => "cost_weight must be non-negative and finite, got " ++ weight.plainText
  | noBudget => "max_expansions must be at least 1"

end ConfigFault

namespace FileFault

def message : FileFault → String
  | missing => "No such file or directory (os error 2)"
  | notText => "stream did not contain valid UTF-8"

end FileFault

namespace Failure

/-- The wording of a failure. -/
def message : Failure → String
  | stateUnavailable fault => "World state unavailable: " ++ fault.message
  | invalidCatalog fault => "Invalid catalog: " ++ fault.message
  | invalidActionCost action cost =>
    "Action cost must be non-negative and finite: " ++ action ++ " has cost " ++ cost.plainText
  | cancelled => "Planning episode was cancelled"
  | config fault => "Configuration error: " ++ fault.message
  | file fault => "IO error: " ++ fault.message

end Failure

end ActionPlanning
