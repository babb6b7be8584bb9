import ActionPlanning.Journal.Event

/-!
# Recorded values

A recorded value carries the events that its computation left in the journal, first event first.
Doing one computation after another keeps the events of both, in that order. Computations that do
not need each other may also be done at the same time; then only their values have an order.
-/

namespace ActionPlanning

/-- A value and the events that led to it. -/
structure Recorded (α : Type) where
  value : α
  events : List Event := []

namespace Recorded

variable {α β : Type}

/-- One computation after another. -/
protected def andThen (first : Recorded α) (next : α → Recorded β) : Recorded β :=
  let second := next first.value
  ⟨second.value, first.events ++ second.events⟩

instance : Monad Recorded where
  pure value := ⟨value, []⟩
  bind := Recorded.andThen

/-- Leaves one event in the journal. -/
def note (event : Event) : Recorded Unit := ⟨(), [event]⟩

/-- Leaves several events in the journal. -/
def notes (events : List Event) : Recorded Unit := ⟨(), events⟩

@[simp] theorem value_pure (a : α) : (pure a : Recorded α).value = a := rfl

@[simp] theorem events_pure (a : α) : (pure a : Recorded α).events = [] := rfl

@[simp] theorem value_bind (first : Recorded α) (next : α → Recorded β) :
    (first >>= next).value = (next first.value).value := rfl

@[simp] theorem events_bind (first : Recorded α) (next : α → Recorded β) :
    (first >>= next).events = first.events ++ (next first.value).events := rfl

/-- Applies a recorded computation to each member of a list, in order. -/
def mapList (f : α → Recorded β) : List α → Recorded (List β)
  | [] => ⟨[], []⟩
  | a :: rest =>
    let head := f a
    let tail := mapList f rest
    ⟨head.value :: tail.value, head.events ++ tail.events⟩

theorem value_mapList (f : α → Recorded β) (as : List α) :
    (mapList f as).value = as.map fun a => (f a).value := by
  induction as with
  | nil => rfl
  | cons a rest ih => simp [mapList, ih]

theorem events_mapList (f : α → Recorded β) (as : List α) :
    (mapList f as).events = as.flatMap fun a => (f a).events := by
  induction as with
  | nil => rfl
  | cons a rest ih => simp [mapList, ih]

end Recorded

/-- A way to do a computation for every member of a list, perhaps for several at the same time. It
does each of them once and collects the values in the order of the list; in the journal the events
may be mixed. -/
structure ParallelMap (α β : Type) where
  map : (α → Recorded β) → List α → Recorded (List β)
  collectsInOrder : ∀ f as, (map f as).value = as.map fun a => (f a).value
  doesEachOnce : ∀ f as, (map f as).events.Perm (as.flatMap fun a => (f a).events)

/-- Doing one after another. -/
def ParallelMap.oneByOne {α β : Type} : ParallelMap α β where
  map := Recorded.mapList
  collectsInOrder := Recorded.value_mapList
  doesEachOnce f as := .of_eq (Recorded.events_mapList f as)

end ActionPlanning
