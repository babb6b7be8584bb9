import ActionPlanning.Conditions.Lemmas
import ActionPlanning.Proofs.Planning.Pruning
import ActionPlanning.Proofs.Planning.Relevance
import ActionPlanning.System

/-!
# Well-formed systems

Validation accepts exactly the well-formed systems, and of any other system it reports the first
fault: actions come before goals, what is listed earlier comes before what is listed later, and for
one action a repeated name comes before a contradiction and that before an unknown key. Of several
keys the least is reported. A system that knows the keys it refers to can only be refused for its
names or for a contradiction. Pruning leaves actions out of a system, and so a system stays well
formed however often it is pruned, although it is not validated again.

## Main definitions

* `PlanningSystem.WellFormed`: names are distinct, actions are consistent and keys are known.
* `PlanningSystem.FirstFault`: the first fault of a system, said without the functions that look
  for it.

## Main results

* `PlanningSystem.fault?_eq_none_iff`: a system without a fault is a well-formed one.
* `PlanningSystem.fault?_eq_some_iff`: the fault that is reported is the first.
* `PlanningSystem.WellFormed.prune`: pruning keeps a system well formed.
* `PlanningSystem.validates`: what is accepted, what is reported, and that pruning keeps it.
-/

namespace ActionPlanning

/-! ## Keys -/

/-- The first of the keys with a property, in the order of keys. -/
def FirstKey (property : String → Prop) (key : String) : Prop :=
  property key ∧ ∀ other, property other → key ≤ other

/-- In an ascending list the first key that passes a test is found. -/
theorem find?_eq_some_iff_firstKey {keys : List String} (ascending : keys.Pairwise (· < ·))
    {test : String → Bool} {key : String} :
    keys.find? test = some key ↔ FirstKey (fun k => k ∈ keys ∧ test k = true) key := by
  rw [List.find?_eq_some_iff_append]
  constructor
  · rintro ⟨passes, before, after, rfl, failing⟩
    obtain ⟨-, tail, -⟩ := List.pairwise_append.mp ascending
    refine ⟨⟨List.mem_append_right _ List.mem_cons_self, passes⟩, fun other listed => ?_⟩
    obtain ⟨member, passesOther⟩ := listed
    rcases List.mem_append.mp member with inBefore | inRest
    · have fails := failing other inBefore
      rw [passesOther] at fails
      exact absurd fails Bool.false_ne_true
    · rcases List.mem_cons.mp inRest with rfl | inAfter
      · exact String.le_refl _
      · exact Std.le_of_lt (List.rel_of_pairwise_cons tail inAfter)
  · rintro ⟨⟨member, passes⟩, least⟩
    obtain ⟨before, after, rfl⟩ := List.append_of_mem member
    refine ⟨passes, before, after, rfl, fun other inBefore => ?_⟩
    obtain ⟨-, -, below⟩ := List.pairwise_append.mp ascending
    cases passesOther : test other with
    | false => rfl
    | true =>
      have notBelow := least other ⟨List.mem_append_left _ inBefore, passesOther⟩
      exact absurd (below other inBefore key List.mem_cons_self) (String.not_lt.mpr notBelow)

/-! ## Faults -/

/-- The action needs a key to have one value and sets it to another. -/
def Action.Contradicts (a : Action) (key : String) : Prop :=
  ∃ needed set, a.preconditions.get? key = some needed ∧ a.effects.get? key = some set ∧
    needed ≠ set

namespace PlanningSystem

/-- Some conditions have a key that is not known. -/
def Unknown (known : KeySet) (conditions : Conditions) (key : String) : Prop :=
  conditions.contains key = true ∧ key ∉ known

/-- The fault of an action that is listed after others. -/
inductive ActionFault (known : KeySet) (before : List Action) (a : Action) : CatalogFault → Prop
  | duplicate : a.name ∈ before.map Action.name →
    ActionFault known before a (.duplicateAction a.name)
  | contradiction {key : String} : a.name ∉ before.map Action.name →
    FirstKey a.Contradicts key → ActionFault known before a (.contradiction a.name key)
  | precondition {key : String} : a.name ∉ before.map Action.name →
    (∀ key, ¬ a.Contradicts key) → FirstKey (Unknown known a.preconditions) key →
    ActionFault known before a (.unknownKey .action a.name key)
  | effect {key : String} : a.name ∉ before.map Action.name →
    (∀ key, ¬ a.Contradicts key) → (∀ key, ¬ Unknown known a.preconditions key) →
    FirstKey (Unknown known a.effects) key →
    ActionFault known before a (.unknownKey .action a.name key)

/-- The fault of a goal that is listed after others. -/
inductive GoalFault (known : KeySet) (before : List Goal) (g : Goal) : CatalogFault → Prop
  | duplicate : g.name ∈ before.map Goal.name → GoalFault known before g (.duplicateGoal g.name)
  | precondition {key : String} : g.name ∉ before.map Goal.name →
    FirstKey (Unknown known g.preconditions) key →
    GoalFault known before g (.unknownKey .goal g.name key)

/-- Actions have distinct names, none contradicts itself, and all their keys are known. -/
structure WellFormedActions (known : KeySet) (actions : List Action) : Prop where
  distinct : (actions.map Action.name).Nodup
  consistent : ∀ a ∈ actions, ∀ key, ¬ a.Contradicts key
  known : ∀ a ∈ actions, ∀ key,
    a.preconditions.contains key = true ∨ a.effects.contains key = true → key ∈ known

/-- Goals have distinct names, and all their keys are known. -/
structure WellFormedGoals (known : KeySet) (goals : List Goal) : Prop where
  distinct : (goals.map Goal.name).Nodup
  known : ∀ g ∈ goals, ∀ key, g.preconditions.contains key = true → key ∈ known

/-- What a planning system has to be. -/
structure WellFormed (s : PlanningSystem) : Prop where
  actions : WellFormedActions s.known s.actions
  goals : WellFormedGoals s.known s.goals

/-- The first fault of a system: whatever is listed before the action or goal at fault is well
formed. -/
inductive FirstFault (s : PlanningSystem) : CatalogFault → Prop
  | action {before after : List Action} {a : Action} {fault : CatalogFault} :
    s.actions = before ++ a :: after → WellFormedActions s.known before →
    ActionFault s.known before a fault → s.FirstFault fault
  | goal {before after : List Goal} {g : Goal} {fault : CatalogFault} :
    WellFormedActions s.known s.actions → s.goals = before ++ g :: after →
    WellFormedGoals s.known before → GoalFault s.known before g fault → s.FirstFault fault

/-- Some action or goal of the system refers to a key. -/
def Refers (s : PlanningSystem) (key : String) : Prop :=
  (∃ a ∈ s.actions, a.preconditions.contains key = true ∨ a.effects.contains key = true) ∨
    ∃ g ∈ s.goals, g.preconditions.contains key = true

/-! ## Faults of one action or goal -/

variable {known : KeySet} {taken : List String} {a : Action} {g : Goal} {key : String}
  {conditions : Conditions} {fault : CatalogFault} {actions kept : List Action}
  {goals : List Goal} {s : PlanningSystem}

theorem unknownKey?_eq_some_iff :
    unknownKey? known conditions = some key ↔ FirstKey (Unknown known conditions) key := by
  rw [unknownKey?, find?_eq_some_iff_firstKey conditions.ascending_keys]
  simp only [Conditions.mem_keys_iff, Bool.not_eq_true', Bool.eq_false_iff, ne_eq,
    KeySet.contains_iff]
  exact Iff.rfl

theorem unknownKey?_eq_none_iff :
    unknownKey? known conditions = none ↔ ∀ key, ¬ Unknown known conditions key := by
  rw [unknownKey?, List.find?_eq_none]
  simp only [Conditions.mem_keys_iff, Bool.not_eq_true', Bool.eq_false_iff, ne_eq,
    KeySet.contains_iff, Unknown, not_and]

/-- Looking for a contradiction is looking through the keys of the effects. -/
theorem contradiction?_eq (a : Action) :
    a.contradiction? = a.effects.keys.find? fun key =>
      (a.effects.get? key).any fun set => (a.preconditions.get? key).any (· ≠ set) := by
  rw [Action.contradiction?, Conditions.keys, List.find?_map]
  refine congrArg (Option.map Condition.key) (List.find?_congr fun e member => ?_)
  simp only [Function.comp_apply, Conditions.get?_eq_some_iff.mpr member, Option.any_some]

theorem contradicts_iff :
    a.Contradicts key ↔ key ∈ a.effects.keys ∧
      ((a.effects.get? key).any fun set => (a.preconditions.get? key).any (· ≠ set)) = true := by
  simp only [Conditions.mem_keys_iff, Conditions.contains_iff, Option.any_eq_true,
    decide_eq_true_eq]
  constructor
  · rintro ⟨needed, set, needs, sets, differ⟩
    exact ⟨⟨set, sets⟩, set, sets, needed, needs, differ⟩
  · rintro ⟨-, set, sets, needed, needs, differ⟩
    exact ⟨needed, set, needs, sets, differ⟩

theorem contradiction?_eq_some_iff : a.contradiction? = some key ↔ FirstKey a.Contradicts key := by
  rw [contradiction?_eq, find?_eq_some_iff_firstKey a.effects.ascending_keys]
  simp only [← contradicts_iff]

theorem contradiction?_eq_none_iff : a.contradiction? = none ↔ ∀ key, ¬ a.Contradicts key := by
  rw [contradiction?_eq, List.find?_eq_none]
  simp only [contradicts_iff, not_and]

theorem actionFault?_eq_some_iff {before : List Action} :
    actionFault? known (before.map Action.name).reverse a = some fault ↔
      ActionFault known before a fault := by
  simp only [actionFault?, List.contains_eq_mem, List.mem_reverse, decide_eq_true_eq]
  split
  case isTrue repeated =>
    constructor
    · rintro ⟨⟩
      exact .duplicate repeated
    · intro isFault
      cases isFault with
      | duplicate => rfl
      | contradiction fresh => exact absurd repeated fresh
      | precondition fresh => exact absurd repeated fresh
      | effect fresh => exact absurd repeated fresh
  case isFalse fresh =>
    -- The other checks come one after the other, and the first that fails names the fault.
    simp only [Option.orElse_eq_orElse, Option.orElse_eq_or, Option.or_eq_some_iff,
      Option.map_eq_some_iff, Option.map_eq_none_iff, contradiction?_eq_some_iff,
      contradiction?_eq_none_iff, unknownKey?_eq_some_iff, unknownKey?_eq_none_iff]
    constructor
    · rintro (⟨key, first, rfl⟩ | ⟨consistent, ⟨key, first, rfl⟩ | ⟨known, key, first, rfl⟩⟩)
      · exact .contradiction fresh first
      · exact .precondition fresh consistent first
      · exact .effect fresh consistent known first
    · intro isFault
      cases isFault with
      | duplicate repeated => exact absurd repeated fresh
      | contradiction _ first => exact .inl ⟨_, first, rfl⟩
      | precondition _ consistent first => exact .inr ⟨consistent, .inl ⟨_, first, rfl⟩⟩
      | effect _ consistent known first =>
        exact .inr ⟨consistent, .inr ⟨known, _, first, rfl⟩⟩

theorem goalFault?_eq_some_iff {before : List Goal} :
    goalFault? known (before.map Goal.name).reverse g = some fault ↔
      GoalFault known before g fault := by
  simp only [goalFault?, List.contains_eq_mem, List.mem_reverse, decide_eq_true_eq]
  split
  case isTrue repeated =>
    constructor
    · rintro ⟨⟩
      exact .duplicate repeated
    · intro isFault
      cases isFault with
      | duplicate => rfl
      | precondition fresh => exact absurd repeated fresh
  case isFalse fresh =>
    simp only [Option.map_eq_some_iff, unknownKey?_eq_some_iff]
    constructor
    · rintro ⟨key, first, rfl⟩
      exact .precondition fresh first
    · intro isFault
      cases isFault with
      | duplicate repeated => exact absurd repeated fresh
      | precondition _ first => exact ⟨_, first, rfl⟩

theorem actionFault?_eq_none_iff (taken : List String) (a : Action) :
    actionFault? known taken a = none ↔ a.name ∉ taken ∧ (∀ key, ¬ a.Contradicts key) ∧
      (∀ key, ¬ Unknown known a.preconditions key) ∧ ∀ key, ¬ Unknown known a.effects key := by
  simp only [actionFault?, List.contains_eq_mem, decide_eq_true_eq]
  split
  case isTrue repeated => simp [repeated]
  case isFalse fresh => simp [fresh, contradiction?_eq_none_iff, unknownKey?_eq_none_iff]

theorem goalFault?_eq_none_iff (taken : List String) (g : Goal) : goalFault? known taken g = none ↔
    g.name ∉ taken ∧ ∀ key, ¬ Unknown known g.preconditions key := by
  simp only [goalFault?, List.contains_eq_mem, decide_eq_true_eq]
  split
  case isTrue repeated => simp [repeated]
  case isFalse fresh => simp [fresh, unknownKey?_eq_none_iff]

/-! ## Faults of a list -/

section

variable {α : Type} {name : α → String} {memberFault? : List String → α → Option CatalogFault}
  {xs : List α}

/-- The first fault of a list is that of a member before which there is none. -/
theorem firstFault?_eq_some_iff :
    firstFault? name memberFault? taken xs = some fault ↔
      ∃ before x after, xs = before ++ x :: after ∧
        firstFault? name memberFault? taken before = none ∧
        memberFault? ((before.map name).reverse ++ taken) x = some fault := by
  -- The name of each member is taken for those behind it, so the induction is for all taken names.
  induction xs generalizing taken with
  | nil => simp [firstFault?]
  | cons y rest ih =>
    rw [firstFault?, Option.orElse_eq_orElse, Option.orElse_eq_or, Option.or_eq_some_iff, ih]
    constructor
    · rintro (faulty | ⟨sound, before, x, after, rfl, none, faulty⟩)
      · exact ⟨[], y, rest, rfl, rfl, faulty⟩
      · refine ⟨y :: before, x, after, rfl, ?_, ?_⟩
        · rw [firstFault?, sound]
          exact none
        · rwa [List.map_cons, List.reverse_cons, List.append_assoc]
    · rintro ⟨before, x, after, same, none, faulty⟩
      cases before with
      | nil =>
        obtain ⟨rfl, rfl⟩ := List.cons_eq_cons.mp same
        exact .inl faulty
      | cons first before =>
        obtain ⟨rfl, rfl⟩ := List.cons_eq_cons.mp same
        rw [firstFault?, Option.orElse_eq_orElse, Option.orElse_eq_or,
          Option.or_eq_none_iff] at none
        rw [List.map_cons, List.reverse_cons, List.append_assoc] at faulty
        exact .inr ⟨none.1, before, x, after, rfl, none.2, faulty⟩

/-- A list has no fault if its names are distinct and its members have none of their own. -/
theorem firstFault?_eq_none_iff {sound : α → Prop}
    (spec : ∀ taken x, memberFault? taken x = none ↔ name x ∉ taken ∧ sound x) :
    firstFault? name memberFault? taken xs = none ↔
      (xs.map name).Nodup ∧ (∀ x ∈ xs, name x ∉ taken) ∧ ∀ x ∈ xs, sound x := by
  induction xs generalizing taken with
  | nil => simp [firstFault?]
  | cons y rest ih =>
    rw [firstFault?, Option.orElse_eq_orElse, Option.orElse_eq_or, Option.or_eq_none_iff, ih, spec,
      List.map_cons, List.nodup_cons, List.forall_mem_cons, List.forall_mem_cons]
    simp only [List.mem_cons, not_or, List.mem_map, not_exists, not_and]
    grind

end

theorem firstFault?_actions_eq_none_iff :
    firstFault? Action.name (actionFault? known) [] actions = none ↔
      WellFormedActions known actions := by
  rw [firstFault?_eq_none_iff actionFault?_eq_none_iff]
  constructor
  · rintro ⟨distinct, -, sound⟩
    refine ⟨distinct, fun a member => (sound a member).1, fun a member key refers => ?_⟩
    obtain ⟨-, preconditions, effects⟩ := sound a member
    by_contra unknown
    exact refers.elim (preconditions key ⟨·, unknown⟩) (effects key ⟨·, unknown⟩)
  · intro wellFormed
    refine ⟨wellFormed.distinct, fun _ _ => List.not_mem_nil, fun a member =>
      ⟨wellFormed.consistent a member, fun key unknown => ?_, fun key unknown => ?_⟩⟩
    · exact unknown.2 (wellFormed.known a member key (.inl unknown.1))
    · exact unknown.2 (wellFormed.known a member key (.inr unknown.1))

theorem firstFault?_goals_eq_none_iff :
    firstFault? Goal.name (goalFault? known) [] goals = none ↔ WellFormedGoals known goals := by
  rw [firstFault?_eq_none_iff goalFault?_eq_none_iff]
  constructor
  · rintro ⟨distinct, -, sound⟩
    refine ⟨distinct, fun g member key refers => ?_⟩
    by_contra unknown
    exact sound g member key ⟨refers, unknown⟩
  · intro wellFormed
    exact ⟨wellFormed.distinct, fun _ _ => List.not_mem_nil, fun g member key unknown =>
      unknown.2 (wellFormed.known g member key unknown.1)⟩

/-! ## Faults of a system -/

/-- A system without a fault is a well-formed one. -/
theorem fault?_eq_none_iff : s.fault? = none ↔ s.WellFormed := by
  rw [fault?, Option.orElse_eq_orElse, Option.orElse_eq_or, Option.or_eq_none_iff,
    firstFault?_actions_eq_none_iff, firstFault?_goals_eq_none_iff]
  exact ⟨fun both => ⟨both.1, both.2⟩, fun wellFormed => ⟨wellFormed.actions, wellFormed.goals⟩⟩

/-- The fault that is reported is the first. -/
theorem fault?_eq_some_iff : s.fault? = some fault ↔ s.FirstFault fault := by
  rw [fault?, Option.orElse_eq_orElse, Option.orElse_eq_or, Option.or_eq_some_iff,
    firstFault?_actions_eq_none_iff, firstFault?_eq_some_iff, firstFault?_eq_some_iff]
  simp only [firstFault?_actions_eq_none_iff, firstFault?_goals_eq_none_iff, List.append_nil,
    actionFault?_eq_some_iff, goalFault?_eq_some_iff]
  constructor
  · rintro (⟨before, a, after, listed, sound, faulty⟩ |
      ⟨actions, before, g, after, listed, sound, faulty⟩)
    · exact .action listed sound faulty
    · exact .goal actions listed sound faulty
  · intro first
    cases first with
    | action listed sound faulty => exact .inl ⟨_, _, _, listed, sound, faulty⟩
    | goal actions listed sound faulty => exact .inr ⟨actions, _, _, _, listed, sound, faulty⟩

theorem withKnown_eq_ok_iff :
    withKnown actions goals known = .ok s ↔ s = ⟨actions, goals, known⟩ ∧ s.WellFormed := by
  rw [withKnown]
  split
  case h_1 faulty =>
    refine ⟨nofun, fun accepted => ?_⟩
    obtain ⟨rfl, wellFormed⟩ := accepted
    rw [fault?_eq_none_iff.mpr wellFormed] at faulty
    exact nomatch faulty
  case h_2 sound =>
    rw [Except.ok.injEq, eq_comm]
    exact ⟨fun same => ⟨same, same ▸ fault?_eq_none_iff.mp sound⟩, And.left⟩

theorem withKnown_eq_error_iff {failure : Failure} :
    withKnown actions goals known = .error failure ↔
      ∃ fault, (⟨actions, goals, known⟩ : PlanningSystem).FirstFault fault ∧
        failure = .invalidCatalog fault := by
  simp only [← fault?_eq_some_iff]
  rw [withKnown]
  split
  case h_1 fault faulty => simp [faulty, eq_comm]
  case h_2 sound => simp [sound]

theorem mem_referencedKeys_iff (known : KeySet) :
    key ∈ referencedKeys actions goals ↔
      (⟨actions, goals, known⟩ : PlanningSystem).Refers key := by
  rw [referencedKeys, KeySet.mem_ofList]
  simp only [List.mem_append, List.mem_flatMap, Conditions.mem_keys_iff, Refers]

/-! ## Pruning -/

theorem WellFormedActions.sublist (wellFormed : WellFormedActions known actions)
    (sublist : kept.Sublist actions) : WellFormedActions known kept where
  distinct := wellFormed.distinct.sublist (sublist.map _)
  consistent a member := wellFormed.consistent a (sublist.subset member)
  known a member := wellFormed.known a (sublist.subset member)

/-- Pruning keeps a system well formed. -/
theorem WellFormed.prune (wellFormed : s.WellFormed) : s.prune.value.WellFormed where
  actions := by
    obtain ⟨tracked, -, kept⟩ := s.exists_prune_eq
    have sublist : s.prune.value.actions.Sublist s.actions := kept ▸ List.filter_sublist
    exact wellFormed.actions.sublist sublist
  goals := wellFormed.goals

/-- A system that was pruned any number of times. -/
def pruned (s : PlanningSystem) : Nat → PlanningSystem
  | 0 => s
  | times + 1 => (s.pruned times).prune.value

/-- However often a well-formed system is pruned, it is well formed and has the same goals and
known keys. -/
theorem WellFormed.pruned (wellFormed : s.WellFormed) (times : Nat) :
    (s.pruned times).WellFormed ∧ (s.pruned times).goals = s.goals ∧
      (s.pruned times).known = s.known := by
  induction times with
  | zero => exact ⟨wellFormed, rfl, rfl⟩
  | succ times ih => exact ⟨ih.1.prune, ih.2⟩

/-- Exactly the well-formed systems are accepted, and of others the first fault is reported. With
the keys that are referred to as known keys, names and contradictions are all that matters. What
was accepted is accepted again however often it was pruned, with the same known keys. -/
theorem validates (actions : List Action) (goals : List Goal) (known : KeySet) :
    let system : PlanningSystem := ⟨actions, goals, known⟩
    (∀ s, withKnown actions goals known = .ok s ↔ s = system ∧ system.WellFormed) ∧
    (∀ failure, withKnown actions goals known = .error failure ↔
      ∃ fault, system.FirstFault fault ∧ failure = .invalidCatalog fault) ∧
    ((∃ s, make actions goals = .ok s) ↔ (actions.map Action.name).Nodup ∧
      (goals.map Goal.name).Nodup ∧ ∀ a ∈ actions, ∀ key, ¬ a.Contradicts key) ∧
    (∀ s, make actions goals = .ok s → s.actions = actions ∧ s.goals = goals ∧
      ∀ key, key ∈ s.known ↔ s.Refers key) ∧
    (∀ s, withKnown actions goals known = .ok s → ∀ times,
      withKnown (s.pruned times).actions goals known = .ok (s.pruned times)) := by
  intro system
  refine ⟨fun s => ?_, fun failure => withKnown_eq_error_iff, ?_, fun s accepted => ?_,
    fun s accepted times => ?_⟩
  · rw [withKnown_eq_ok_iff]
    exact and_congr_right fun same => by rw [same]
  · constructor
    · rintro ⟨s, accepted⟩
      obtain ⟨rfl, wellFormed⟩ := withKnown_eq_ok_iff.mp accepted
      exact ⟨wellFormed.actions.distinct, wellFormed.goals.distinct,
        wellFormed.actions.consistent⟩
    · rintro ⟨distinctActions, distinctGoals, consistent⟩
      refine ⟨_, withKnown_eq_ok_iff.mpr ⟨rfl, ⟨distinctActions, consistent, ?_⟩,
        ⟨distinctGoals, ?_⟩⟩⟩
      -- Every key that is referred to is among the known ones, since they are all of these.
      · intro a member key refers
        exact (mem_referencedKeys_iff _).mpr (.inl ⟨a, member, refers⟩)
      · intro g member key refers
        exact (mem_referencedKeys_iff _).mpr (.inr ⟨g, member, refers⟩)
  · obtain ⟨rfl, -⟩ := withKnown_eq_ok_iff.mp accepted
    exact ⟨rfl, rfl, fun key => mem_referencedKeys_iff _⟩
  · obtain ⟨rfl, wellFormed⟩ := withKnown_eq_ok_iff.mp accepted
    -- Pruning takes only actions away, so what is left stays well formed.
    obtain ⟨stays, sameGoals, sameKnown⟩ := wellFormed.pruned times
    refine withKnown_eq_ok_iff.mpr ⟨?_, stays⟩
    exact congrArg₂ (PlanningSystem.mk _) sameGoals sameKnown

open LockedDoor in
/-- The porch is accepted, also without a list of its keys, and accepted again when the view has
been pruned. With a second key to fetch it is refused. -/
theorem validates_porch :
    (∃ s, make porch.actions porch.goals = .ok s ∧ ∀ key, key ∈ s.known ↔ s.Refers key) ∧
    withKnown porch.actions porch.goals porch.known = .ok porch ∧
    withKnown [openDoor, fetchKey] porch.goals porch.known = .ok (porch.pruned 2) ∧
    withKnown (fetchKey :: porch.actions) porch.goals porch.known
      = .error (.invalidCatalog (.duplicateAction fetchKey.name)) := by
  have valid := validates porch.actions porch.goals porch.known
  have accepted : withKnown porch.actions porch.goals porch.known = .ok porch :=
    (valid.1 porch).mpr ⟨rfl, fault?_eq_none_iff.mp fault?_porch⟩
  obtain ⟨-, wellFormed⟩ := (valid.1 porch).mp accepted
  obtain ⟨s, made⟩ := valid.2.2.1.mpr
    ⟨wellFormed.actions.distinct, wellFormed.goals.distinct, wellFormed.actions.consistent⟩
  have again := valid.2.2.2.2 porch accepted 2
  refine ⟨⟨s, made, (valid.2.2.2.1 s made).2.2⟩, accepted, again, ?_⟩
  refine ((validates _ _ _).2.1 _).mpr ⟨_, fault?_eq_some_iff.mp ?_, rfl⟩
  rfl

end PlanningSystem

end ActionPlanning
