import ActionPlanning.Goal
import ActionPlanning.KeySet

/-!
# Planning systems

A planning system holds the actions and goals of an episode and the keys they may refer to. It is
well formed when names are unique among actions and among goals, no action contradicts its own
preconditions, and every key is known. Validation looks at the actions in order and then at the
goals, and reports the first fault: for an action a repeated name, then a contradiction, then an
unknown key of its preconditions, then one of its effects.
-/

namespace ActionPlanning

/-- Actions and goals for an episode, and the condition keys they may refer to. -/
structure PlanningSystem where
  actions : List Action
  goals : List Goal
  known : KeySet
  deriving Inhabited

namespace PlanningSystem

/-- Systems are equal when their actions, goals and known keys are. -/
instance : BEq PlanningSystem where
  beq s t := s.actions == t.actions && s.goals == t.goals && s.known = t.known

/-- The first key of some conditions that is not known. -/
def unknownKey? (known : KeySet) (conditions : Conditions) : Option String :=
  conditions.keys.find? fun key => !known.contains key

/-- The first fault of an action among actions with the names `taken` before it. -/
def actionFault? (known : KeySet) (taken : List String) (a : Action) : Option CatalogFault :=
  if taken.contains a.name then some (.duplicateAction a.name)
  else
    (a.contradiction?.map (.contradiction a.name))
      <|> ((unknownKey? known a.preconditions).map (.unknownKey .action a.name))
      <|> ((unknownKey? known a.effects).map (.unknownKey .action a.name))

/-- The first fault of a goal among goals with the names `taken` before it. -/
def goalFault? (known : KeySet) (taken : List String) (g : Goal) : Option CatalogFault :=
  if taken.contains g.name then some (.duplicateGoal g.name)
  else (unknownKey? known g.preconditions).map (.unknownKey .goal g.name)

/-- The first fault in a list whose members are checked against the names before them. -/
def firstFault? {α : Type} (name : α → String) (fault? : List String → α → Option CatalogFault) :
    List String → List α → Option CatalogFault
  | _, [] => none
  | taken, x :: rest => fault? taken x <|> firstFault? name fault? (name x :: taken) rest

/-- The first fault of a system, if it has one. -/
def fault? (s : PlanningSystem) : Option CatalogFault :=
  firstFault? Action.name (actionFault? s.known) [] s.actions
    <|> firstFault? Goal.name (goalFault? s.known) [] s.goals

/-- A system with declared known keys, if it is well formed. -/
def withKnown (actions : List Action) (goals : List Goal) (known : KeySet) :
    Except Failure PlanningSystem :=
  let system : PlanningSystem := ⟨actions, goals, known⟩
  match system.fault? with
  | some fault => .error (.invalidCatalog fault)
  | none => .ok system

/-- The keys that actions and goals refer to. -/
def referencedKeys (actions : List Action) (goals : List Goal) : KeySet :=
  .ofList <|
    (actions.flatMap fun a => a.preconditions.keys ++ a.effects.keys)
      ++ goals.flatMap fun g => g.preconditions.keys

/-- A system that knows exactly the keys it refers to, if it is well formed. -/
def make (actions : List Action) (goals : List Goal) : Except Failure PlanningSystem :=
  withKnown actions goals (referencedKeys actions goals)

/-- The first action of a name. -/
def action? (s : PlanningSystem) (name : String) : Option Action :=
  s.actions.find? fun a => a.name = name

/-- The first goal of a name. -/
def goal? (s : PlanningSystem) (name : String) : Option Goal :=
  s.goals.find? fun g => g.name = name

end PlanningSystem

end ActionPlanning
