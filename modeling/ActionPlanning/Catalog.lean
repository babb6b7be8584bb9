import ActionPlanning.Conditions.Document
import ActionPlanning.Document.Shape
import ActionPlanning.System

/-!
# Catalogs

A catalog is a document that lists the actions and goals of a planning system and may declare the
keys they can refer to. A catalog becomes a system in three steps: the text must have the shape of
a catalog, the price of each action must be valid, and the whole must be well formed. The first
step that fails names the failure.
-/

namespace ActionPlanning

/-- Actions and goals as they are written, and the declared keys, if any are declared. -/
structure Catalog where
  known : Option (List String) := none
  actions : List Action := []
  goals : List Goal := []
  deriving Inhabited

/-- The action that a document stands for, its price not yet checked. -/
def Action.ofDocument? (format : Format) (document : Document) : Option Action := do
  let record ← document.record? format ["name", "cost", "value", "preconditions", "effects"]
  let name ← Document.required? record "name" Document.text?
  let cost ← Document.orDefault? record "cost" 1 Document.amount?
  let value ← Document.orDefault? record "value" 0 Document.amount?
  let preconditions ← Document.orDefault? record "preconditions" ∅ Conditions.ofDocument?
  let effects ← Document.orDefault? record "effects" ∅ Conditions.ofDocument?
  return { name, preconditions, effects, cost := .fixed cost, value := .fixed value }

/-- The goal that a document stands for. -/
def Goal.ofDocument? (format : Format) (document : Document) : Option Goal := do
  let record ← document.record? format ["name", "value", "preconditions"]
  let name ← Document.required? record "name" Document.text?
  let value ← Document.required? record "value" Document.amount?
  let preconditions ← Document.orDefault? record "preconditions" ∅ Conditions.ofDocument?
  return { name, preconditions, value := .fixed value }

namespace Catalog

/-- The catalog that a document stands for. -/
def ofDocument? (format : Format) (document : Document) : Option Catalog := do
  let record ← document.record? format ["known_conditions", "actions", "goals"]
  let known ← Document.orDefault? record "known_conditions" none
    (Document.optional? (Document.items? Document.text?))
  let actions ← Document.orDefault? record "actions" []
    (Document.items? (Action.ofDocument? format))
  let goals ← Document.orDefault? record "goals" [] (Document.items? (Goal.ofDocument? format))
  return { known, actions, goals }

/-- The planning system of a catalog. -/
def system (c : Catalog) : Except Failure PlanningSystem := do
  let actions ← c.actions.mapM Action.checked
  match c.known with
  | some known => PlanningSystem.withKnown actions c.goals (.ofList known)
  | none => PlanningSystem.make actions c.goals

end Catalog

namespace PlanningSystem

/-- Reads a catalog from a text and makes its planning system. -/
def read (format : Format) (text : String) : Except Failure PlanningSystem :=
  match format.read? text >>= Catalog.ofDocument? format with
  | some catalog => catalog.system
  | none => .error (.config .unreadable)

/-- Reads a catalog from a file and makes its planning system. -/
def load (file : File) : Except Failure PlanningSystem := do
  let text ← file.text
  read file.format text

end PlanningSystem

end ActionPlanning
