import ActionPlanning.Document.File
import ActionPlanning.Document.Toml.Writing
import ActionPlanning.Settings

/-!
# Writing settings

Settings are written as a document in TOML: an entry for each choice, absent ones left out, and
scoring in a table of its own at the end. TOML integers have 64 bits with a sign, so a time limit or
a budget beyond them cannot be written, and then the file is left as it was.
-/

namespace ActionPlanning.Settings

open Document

/-- The name of a strategy in documents. -/
def Strategy.label : Strategy → String
  | regression => "regression"
  | forward => "forward"
  | utility => "utility"

/-- The name of a heuristic in documents. -/
def Estimate.label : Estimate → String
  | zero => "zero"
  | unsatisfiedCount => "unsatisfied_count"

/-- The name of a kind of scoring in documents. -/
def Scoring.label : Scoring → String
  | valueMinusCost => "value_minus_cost"
  | weightedCost _ => "weighted_cost"

/-- The entry of a count, if there is one. -/
def countEntries (key : String) (count : Option Nat) : List (String × Document) :=
  count.toList.map fun n : Nat => (key, .integer n)

/-- The entries of the table for scoring. -/
def Scoring.entries (scoring : Scoring) : List (String × Document) :=
  ("kind", .text scoring.label) :: match scoring with
    | valueMinusCost => []
    | weightedCost weight => [("cost_weight", .amount weight)]

/-- The entries of settings before the table for scoring. -/
def entries (s : Settings) : List (String × Document) :=
  [("strategy", .text s.strategy.label), ("heuristic", .text s.heuristic.label),
    ("parallel", .flag s.parallel)]
    ++ countEntries "state_timeout_ms" s.timeLimit ++ countEntries "max_expansions" s.budget

/-- All entries of settings. -/
def record (s : Settings) : List (String × Document) :=
  s.entries ++ [("scoring", .table s.scoring.entries)]

/-- The document that settings are written as. -/
def document (s : Settings) : Document := .table s.record

/-- Writes settings as a text. -/
def text (s : Settings) (library : Toml.Library := .own) : Except Failure String :=
  match library.write? s.document with
  | some text => .ok text
  | none => .error (.config .unwritable)

/-- A file after settings are saved in it. -/
def save (s : Settings) (file : File) (library : Toml.Library := .own) : Except Failure File := do
  let text ← s.text library
  return { file with bytes := some text.toUTF8 }

end ActionPlanning.Settings
