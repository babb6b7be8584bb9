import ActionPlanning.Document.File
import ActionPlanning.Document.Shape
import ActionPlanning.Document.Toml.Writing
import ActionPlanning.Settings

/-!
# Settings in documents

Settings are read from a record of which every field may be left out. Scoring is a table that
names its kind, with a weight where the kind has one and whatever else beside them, or a list of
the kind and the weight.
-/

namespace ActionPlanning.Settings

/-- The strategy that a document stands for. -/
def Strategy.ofDocument? (format : Format) (document : Document) : Option Strategy :=
  match document.choice? format with
  | some "regression" => some .regression
  | some "forward" => some .forward
  | some "utility" => some .utility
  | _ => none

/-- The heuristic that a document stands for. -/
def Estimate.ofDocument? (format : Format) (document : Document) : Option Estimate :=
  match document.choice? format with
  | some "zero" => some .zero
  | some "unsatisfied_count" => some .unsatisfiedCount
  | _ => none

/-- What a table sets a key to, if it does; none if it sets the key more than once. -/
def single? (key : String) (entries : List (String × Document)) : Option (Option Document) :=
  match entries.filter fun e => e.1 = key with
  | [] => some none
  | [(_, value)] => some (some value)
  | _ => none

/-- The scoring that a document stands for. -/
def Scoring.ofDocument? : Document → Option Scoring
  | .list [.text "value_minus_cost"] => some .valueMinusCost
  | .list [.text "weighted_cost", weight] => weight.amount?.map .weightedCost
  | .table entries =>
    match single? "kind" entries with
    | some (some (.text "value_minus_cost")) => some .valueMinusCost
    | some (some (.text "weighted_cost")) =>
      match single? "cost_weight" entries with
      | some (some weight) => weight.amount?.map .weightedCost
      | _ => none
    | _ => none
  | _ => none

/-- The settings that a document stands for, not yet checked. -/
def ofDocument? (format : Format) (document : Document) : Option Settings := do
  let record ← document.record? format
    ["strategy", "heuristic", "parallel", "state_timeout_ms", "max_expansions", "scoring"]
  let strategy ← Document.orDefault? record "strategy" .regression (Strategy.ofDocument? format)
  let heuristic ← Document.orDefault? record "heuristic" .zero (Estimate.ofDocument? format)
  let parallel ← Document.orDefault? record "parallel" true Document.flag?
  let timeLimit ← Document.orDefault? record "state_timeout_ms" none
    (Document.optional? Document.count?)
  let budget ← Document.orDefault? record "max_expansions" none
    (Document.optional? Document.count?)
  let scoring ← Document.orDefault? record "scoring" .valueMinusCost Scoring.ofDocument?
  return { strategy, heuristic, parallel, timeLimit, budget, scoring }

/-- The valid settings that a document stands for. -/
def ofDocument (format : Format) (document : Document) : Except Failure Settings :=
  match ofDocument? format document with
  | some settings => settings.checked
  | none => .error (.config .unreadable)

/-- Reads settings from a TOML text. -/
def read (text : String) (library : Document.Toml.Library := .own) : Except Failure Settings :=
  match library.read? text with
  | some document => ofDocument .toml document
  | none => .error (.config .unreadable)

/-- Reads settings from a file. -/
def load (file : File) (library : Document.Toml.Library := .own) : Except Failure Settings := do
  let text ← file.text
  read text library

end ActionPlanning.Settings
