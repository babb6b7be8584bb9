import ActionPlanning.Proofs.Amount.Extremes
import ActionPlanning.Proofs.Planning.StoredCost
import ActionPlanning.Proofs.Ranking.Goals
import ActionPlanning.Proofs.Settings.Saving

/-!
# Plans that nobody can pay for

An action may cost infinitely much, and so does every plan with it. Such a plan is still an answer
where nothing cheaper reaches its goal, but it should stand behind the plans that cost finitely
much. Where costs count, it does so unless the finite cost of a plan behind it, once it is weighed
and taken off the value of the goal, overflows as well: both are then worth negative infinity, and
plans of the same value stand in the order of their goals. Where costs are weighed by zero, a plan
that nobody can pay for is worth no number. Which place it has then depends on the sign of what is
no number, which arithmetic leaves open.

## Main definitions

* `ScoredPlan.Unaffordable`, `ScoredPlan.Affordable`: costing infinitely or finitely much.
* `ScoredPlan.Overflows`: costing finitely much and yet worth negative infinity.
* `Ranking.AffordableFirst`: no unaffordable plan stands before an affordable one.
* `Ranking.Places`: where a ranking places unaffordable plans.

## Main results

* `affordable_first_iff`: when the rankings of valid settings have the affordable plans first.
* `unaffordable_first`: where they do not.
-/

namespace ActionPlanning

/-! ## What a plan is worth -/

namespace Settings.Scoring

variable {scoring : Scoring} {cost : Amount}

/-- What is taken off the value of a goal for the cost of a plan. -/
def deduction : Scoring → Amount → Amount
  | .valueMinusCost, cost => cost
  | .weightedCost weight, cost => weight * cost

/-- Costs are weighed by zero. -/
def IgnoresCost : Scoring → Prop
  | .valueMinusCost => False
  | .weightedCost weight => (weight == 0) = true

instance : Decidable scoring.IgnoresCost :=
  match scoring with
  | .valueMinusCost => inferInstanceAs (Decidable False)
  | .weightedCost weight => inferInstanceAs (Decidable ((weight == 0) = true))

theorem Accepted.deduction_inf (accepted : scoring.Accepted) :
    scoring.deduction Float.inf = if scoring.IgnoresCost then Float.nan else Float.inf := by
  cases scoring with
  | valueMinusCost => rfl
  | weightedCost weight =>
    obtain ⟨finite, notLess⟩ := accepted weight rfl
    exact Amount.mul_inf finite notLess

theorem Accepted.isNaN_deduction (accepted : scoring.Accepted) (finite : cost.isFinite = true) :
    (scoring.deduction cost).isNaN = false := by
  cases scoring with
  | valueMinusCost => exact Amount.isNaN_eq_false_of_isFinite finite
  | weightedCost weight => exact Amount.isNaN_mul (accepted weight rfl).1 finite

end Settings.Scoring

namespace ScoredPlan

variable {plan : ScoredPlan} {settings : Settings} {state : WorldState}

/-- A plan costs infinitely much. -/
def Unaffordable (plan : ScoredPlan) (state : WorldState) : Prop :=
  plan.plan.costIn state = Float.inf

/-- A plan costs finitely much. -/
def Affordable (plan : ScoredPlan) (state : WorldState) : Prop :=
  (plan.plan.costIn state).isFinite = true

/-- A plan costs finitely much, but taking that off the value of the goal overflows. -/
def Overflows (plan : ScoredPlan) (state : WorldState) : Prop :=
  plan.Affordable state ∧ plan.netValue state = -Float.inf

/-- A plan costs finitely much unless it costs infinitely much. -/
theorem affordable_iff : plan.Affordable state ↔ ¬ plan.Unaffordable state := by
  obtain ⟨n, -, number⟩ := Search.exists_hasNumber_costForward plan.plan.actions state
  exact Amount.isFinite_iff_ne_inf number.nonneg

/-- Settings value a plan, towards a goal that is worth a finite amount. -/
structure ValuedBy (plan : ScoredPlan) (settings : Settings) (state : WorldState) : Prop where
  scorer : plan.scorer = settings.scorer
  finite : (plan.plan.goal.valueIn state).isFinite = true

theorem ValuedBy.netValue (valued : plan.ValuedBy settings state) :
    plan.netValue state
      = plan.plan.goal.valueIn state - settings.scoring.deduction (plan.plan.costIn state) := by
  rw [ScoredPlan.netValue, score, valued.scorer, Settings.scorer]
  cases settings.scoring <;> rfl

/-- What nobody can pay for is worth negative infinity, or no number. -/
theorem ValuedBy.netValue_of_unaffordable (valued : plan.ValuedBy settings state)
    (accepted : settings.scoring.Accepted) (unaffordable : plan.Unaffordable state) :
    plan.netValue state = if settings.scoring.IgnoresCost then Float.nan else -Float.inf := by
  rw [valued.netValue, unaffordable, accepted.deduction_inf]
  split
  · exact Amount.isNaN_iff.mp (Amount.isNaN_sub valued.finite)
  · exact Amount.sub_inf valued.finite

theorem ValuedBy.isNaN_of_affordable (valued : plan.ValuedBy settings state)
    (accepted : settings.scoring.Accepted) (affordable : plan.Affordable state) :
    (plan.netValue state).isNaN = false := by
  rw [valued.netValue, Amount.isNaN_sub valued.finite]
  exact accepted.isNaN_deduction affordable

/-- Only an unaffordable plan is worth no number, and only where costs are ignored. -/
theorem ValuedBy.isNaN_iff (valued : plan.ValuedBy settings state)
    (accepted : settings.scoring.Accepted) :
    (plan.netValue state).isNaN = true
      ↔ settings.scoring.IgnoresCost ∧ plan.Unaffordable state := by
  by_cases unaffordable : plan.Unaffordable state
  · rw [valued.netValue_of_unaffordable accepted unaffordable, and_iff_left unaffordable]
    split
    case isTrue ignores => exact iff_of_true rfl ignores
    case isFalse counts => exact iff_of_false Bool.false_ne_true counts
  · rw [valued.isNaN_of_affordable accepted (affordable_iff.mpr unaffordable)]
    exact iff_of_false Bool.false_ne_true fun infinite => unaffordable infinite.2

end ScoredPlan

/-! ## Where rankings place plans -/

namespace Ranking

variable {settings : Settings} {state : WorldState} {declared plans : List ScoredPlan}
  {a b : ScoredPlan}

/-- No plan that nobody can pay for stands before one that costs finitely much. -/
def AffordableFirst (state : WorldState) (plans : List ScoredPlan) : Prop :=
  plans.Pairwise fun a b => ¬ (a.Unaffordable state ∧ b.Affordable state)

/-- Where costs count, an unaffordable plan is ranked before an affordable one exactly if it is
declared before it and the value of the affordable one overflows. -/
theorem Ranks.unaffordable_before_iff (ranks : Ranks state declared plans)
    (accepted : settings.scoring.Accepted)
    (valued : ∀ plan ∈ declared, plan.ValuedBy settings state)
    (counts : ¬ settings.scoring.IgnoresCost) (unaffordable : a.Unaffordable state) :
    [a, b].Sublist plans ∧ b.Affordable state ↔ [a, b].Sublist declared ∧ b.Overflows state := by
  have worthless (member : a ∈ declared) : a.netValue state = -Float.inf := by
    rw [(valued a member).netValue_of_unaffordable accepted unaffordable, if_neg counts]
  constructor
  · rintro ⟨sublist, affordable⟩
    have worthA := worthless (ranks.perm.subset (sublist.subset List.mem_cons_self))
    -- The plan behind is worth no more than the lowest of all amounts.
    have noWorse := List.pairwise_iff_forall_sublist.mp ranks.sorted sublist
    rw [Ranking.noWorse, worthA] at noWorse
    have number := (valued b (ranks.perm.subset (sublist.subset (by simp)))).isNaN_of_affordable
      accepted affordable
    have worthB := (Amount.totalLe_neg_inf_iff number).mp noWorse
    have same := tied_of_eq (worthA.trans worthB.symm)
    exact ⟨(ranks.pair_sublist_iff same).mp sublist, affordable, worthB⟩
  · rintro ⟨sublist, affordable, worthB⟩
    have worthA := worthless (sublist.subset List.mem_cons_self)
    have same := tied_of_eq (worthA.trans worthB.symm)
    exact ⟨(ranks.pair_sublist_iff same).mpr sublist, affordable⟩

/-- Where costs count, a ranking has the affordable plans first exactly if none whose value
overflows is declared behind an unaffordable one. -/
theorem Ranks.affordableFirst_iff_of_counts (ranks : Ranks state declared plans)
    (accepted : settings.scoring.Accepted)
    (valued : ∀ plan ∈ declared, plan.ValuedBy settings state)
    (counts : ¬ settings.scoring.IgnoresCost) :
    AffordableFirst state plans ↔
      declared.Pairwise fun a b => ¬ (a.Unaffordable state ∧ b.Overflows state) := by
  unfold AffordableFirst
  rw [List.pairwise_iff_forall_sublist, List.pairwise_iff_forall_sublist]
  constructor
  · rintro first a b sublist ⟨unaffordable, overflows⟩
    obtain ⟨before, affordable⟩ :=
      (ranks.unaffordable_before_iff accepted valued counts unaffordable).mpr ⟨sublist, overflows⟩
    exact first before ⟨unaffordable, affordable⟩
  · rintro first a b sublist ⟨unaffordable, affordable⟩
    obtain ⟨before, overflows⟩ :=
      (ranks.unaffordable_before_iff accepted valued counts unaffordable).mp ⟨sublist, affordable⟩
    exact first before ⟨unaffordable, overflows⟩

/-- Where a ranking of declared plans places the unaffordable ones. -/
structure Places (settings : Settings) (state : WorldState) (declared plans : List ScoredPlan) :
    Prop where
  /-- A plan is worth no number only if nobody can pay for it, and costs are weighed by zero. -/
  undefined : ∀ plan ∈ plans, (plan.netValue state).isNaN = true ↔
    settings.scoring.IgnoresCost ∧ plan.Unaffordable state
  /-- Where costs count, the affordable plans stand first unless one whose value overflows is
  declared behind an unaffordable one. -/
  counted : ¬ settings.scoring.IgnoresCost → (AffordableFirst state plans ↔
    declared.Pairwise fun a b => ¬ (a.Unaffordable state ∧ b.Overflows state))

theorem Ranks.places (ranks : Ranks state declared plans) (accepted : settings.scoring.Accepted)
    (valued : ∀ plan ∈ declared, plan.ValuedBy settings state) :
    Places settings state declared plans where
  undefined plan member := (valued plan (ranks.perm.subset member)).isNaN_iff accepted
  counted := ranks.affordableFirst_iff_of_counts accepted valued

end Ranking

/-- Either search finds plans towards the goals it looks for, so their goals are worth what those
are. -/
theorem Planner.valuedBy_of_outcome {ε : Type} [HAdd Amount ε ε] [Search.Priority ε]
    [Search.LawfulPriority ε] {settings : Settings} {p : Planner} {heuristic : Search.Heuristic ε}
    {budget : Option Nat}
    (searches : p.algorithm = Search.Regression.algorithm heuristic budget ∨
      p.algorithm = Search.Forward.algorithm heuristic budget)
    (scorer : p.scorer = settings.scorer) {system : PlanningSystem} {state : WorldState}
    (finite : ∀ goal ∈ system.goals, (goal.valueIn state).isFinite = true) :
    ∀ plan ∈ system.goals.filterMap (p.outcome system state), plan.ValuedBy settings state := by
  intro plan member
  obtain ⟨goal, listed, found⟩ := List.mem_filterMap.mp member
  refine ⟨(scorer_of_outcome found).trans scorer, ?_⟩
  have towards : plan.plan.goal = goal := by
    obtain ⟨_, answer, rfl⟩ := Option.map_eq_some_iff.mp found
    rcases searches with backwards | forwards
    · rw [backwards] at answer
      exact (Search.Regression.works_of_search answer).1.towards
    · rw [forwards] at answer
      exact (Search.Forward.works_of_search answer).1.towards
  rw [towards]
  exact finite goal listed

/-- On every snapshot in which the goals of a system are worth finite amounts, a planner that
searches for them and values plans as valid settings say answers with its plans for the goals.
Unless costs are weighed by zero, it places the affordable ones first exactly if none that overflows
is declared behind an unaffordable one. -/
theorem affordable_first_iff {ε γ : Type} [HAdd Amount ε ε] [Search.Priority ε]
    [Search.LawfulPriority ε] [TokenLibrary γ] {settings : Settings}
    (valid : settings.fault? = none) (p : Planner) {heuristic : Search.Heuristic ε}
    {budget : Option Nat}
    (searches : p.algorithm = Search.Regression.algorithm heuristic budget ∨
      p.algorithm = Search.Forward.algorithm heuristic budget)
    (forGoals : p.utility = false) (scorer : p.scorer = settings.scorer)
    (system : PlanningSystem) (snapshot : Snapshot)
    (finite : ∀ goal ∈ system.goals, (goal.valueIn snapshot.state).isFinite = true)
    (determiner : Determiner) (s : Session γ)
    (given : (s.current determiner).value.1 = .ok snapshot) :
    ∃ plans, (p.plansToGoals determiner s system).value.answer = .ok plans ∧
      Ranking.Places settings snapshot.state
        (system.goals.filterMap (p.outcome system snapshot.state)) plans := by
  have fits : p.RanksGoals system snapshot.state (p.outcome system snapshot.state) determiner s :=
    Planner.ranksGoals forGoals given
  obtain ⟨plans, answer, ranks⟩ := fits.ranked
  exact ⟨plans, answer, ranks.places (Settings.accepted_of_fault? valid)
    (Planner.valuedBy_of_outcome searches scorer finite)⟩

namespace Market

/-- Nobody can pay for the palace. -/
def buyPalace : Action where
  name := "buyPalace"
  effects := .ofList [⟨"palace", .flag true⟩]
  cost := .computed 0 fun _ => Float.inf

/-- The castle has a price. -/
def buyCastle : Action where
  name := "buyCastle"
  effects := .ofList [⟨"castle", .flag true⟩]
  cost := .fixed 1e308

def palace : Goal := { name := "palace", preconditions := .ofList [⟨"palace", .flag true⟩] }

def castle : Goal := { name := "castle", preconditions := .ofList [⟨"castle", .flag true⟩] }

def market : PlanningSystem :=
  ⟨[buyPalace, buyCastle], [palace, castle], .ofList ["castle", "palace"]⟩

/-- Neither is bought yet. -/
def start : WorldState := ⟨∅, default⟩

/-- Settings that weigh costs. -/
def weighing (weight : Amount) : Settings := { scoring := .weightedCost weight }

/-- The plan that consists of buying something. -/
def purchase (weight : Amount) (goal : Goal) (a : Action) (cost : Amount) : ScoredPlan :=
  ⟨⟨goal, [a], cost⟩, .weightedCost weight⟩

/-- To buy what is wanted is the only plan for it. -/
theorem exists_outcome (weight : Amount) (goal : Goal) (a : Action)
    (fails : goal.isSatisfied start.facts = false) (listed : a ∈ market.actions)
    (only : ∀ b ∈ market.actions,
      b.achievesAny (goal.preconditions.unsatisfiedBy start.facts) = true → b = a)
    (achieves : a.achievesAny (goal.preconditions.unsatisfiedBy start.facts) = true)
    (free : a.regress? goal.preconditions = some ∅) :
    ∃ cost, (weighing weight).planner.outcome market start goal
      = some (purchase weight goal a cost) := by
  have complete : start.facts.CompleteChain goal.preconditions [a] :=
    ⟨∅, Conditions.residual?_cons_eq_some_iff.mpr ⟨_, rfl, achieves, free⟩, rfl⟩
  obtain ⟨plan, found⟩ :=
    Search.Regression.exists_plan (List.cons_subset.mpr ⟨listed, List.nil_subset _⟩) complete
  obtain ⟨towards, answer⟩ := Search.Direction.value_search_eq_some_iff.mp found
  obtain ⟨among, ⟨first, chained, -⟩, -, empty⟩ := Search.Regression.find?_sound answer
  have outcome : (weighing weight).planner.outcome market start goal
      = some ⟨plan, .weightedCost weight⟩ :=
    Option.map_eq_some_iff.mpr ⟨plan, found, rfl⟩
  rcases Conditions.eq_singleton_of_residual? only free among chained with none | sole
  · exact absurd (empty.mp none) (Bool.eq_false_iff.mp fails)
  · refine ⟨plan.cost, ?_⟩
    rw [outcome, purchase, ← towards, ← sole]

/-- The palace is bought for the one goal and the castle for the other. -/
theorem exists_outcomes (weight : Amount) :
    ∃ cost price, market.goals.filterMap ((weighing weight).planner.outcome market start)
      = [purchase weight palace buyPalace cost, purchase weight castle buyCastle price] := by
  have forPalace : ∃ cost, (weighing weight).planner.outcome market start palace
      = some (purchase weight palace buyPalace cost) := by
    refine exists_outcome weight palace buyPalace rfl (by simp [market]) ?_ rfl rfl
    rintro b listed achieves
    rcases List.mem_pair.mp listed with rfl | rfl
    · rfl
    · exact Bool.noConfusion achieves
  have forCastle : ∃ cost, (weighing weight).planner.outcome market start castle
      = some (purchase weight castle buyCastle cost) := by
    refine exists_outcome weight castle buyCastle rfl (by simp [market]) ?_ rfl rfl
    rintro b listed achieves
    rcases List.mem_pair.mp listed with rfl | rfl
    · exact Bool.noConfusion achieves
    · rfl
  obtain ⟨cost, palacePlan⟩ := forPalace
  obtain ⟨price, castlePlan⟩ := forCastle
  refine ⟨cost, price, ?_⟩
  change [palace, castle].filterMap _ = _
  rw [List.filterMap_cons_some palacePlan, List.filterMap_cons_some castlePlan,
    List.filterMap_nil]

variable {weight cost : Amount}

theorem unaffordable_palace : (purchase weight palace buyPalace cost).Unaffordable start :=
  (by decide +kernel : Plan.costOf [buyPalace] start = Float.inf)

theorem affordable_castle : (purchase weight castle buyCastle cost).Affordable start :=
  (by decide +kernel : (Plan.costOf [buyCastle] start).isFinite = true)

theorem not_overflows_castle : ¬ (purchase 1 castle buyCastle cost).Overflows start := by
  rintro ⟨-, worth⟩
  have finite : (0 : Amount) - 1 * Plan.costOf [buyCastle] start ≠ -Float.inf := by decide +kernel
  exact finite worth

theorem overflows_castle : (purchase 10 castle buyCastle cost).Overflows start := by
  have infinite : (0 : Amount) - 10 * Plan.costOf [buyCastle] start = -Float.inf := by
    decide +kernel
  exact ⟨affordable_castle, infinite⟩

theorem isFinite_valueIn : ∀ goal ∈ market.goals, (goal.valueIn start).isFinite = true := by
  intro goal listed
  rcases List.mem_pair.mp listed with rfl | rfl <;> rfl

end Market

open Market

/-- Where costs are weighed by one, the castle stands before the palace. -/
theorem affordable_first_iff_market :
    ∃ plans, ((weighing 1).planner.plansToGoals (.static start) ({} : Session) market).value.answer
        = .ok plans ∧ Ranking.AffordableFirst start plans := by
  have valid : (weighing 1).fault? = none := by decide +kernel
  have counts : ¬ (weighing 1).scoring.IgnoresCost := by decide +kernel
  obtain ⟨plans, answer, places⟩ := affordable_first_iff valid (weighing 1).planner (.inl rfl) rfl
    rfl market ⟨0, start⟩ isFinite_valueIn (.static start) ({} : Session) rfl
  refine ⟨plans, answer, (places.counted counts).mpr ?_⟩
  obtain ⟨cost, price, declared⟩ := exists_outcomes 1
  rw [declared]
  exact List.pairwise_pair.mpr fun ⟨_, overflows⟩ => not_overflows_castle overflows

/-- Where costs are weighed by ten, the price of the castle overflows, and the palace, which nobody
can pay for, stays before it. -/
theorem unaffordable_first :
    (weighing 10).fault? = none ∧ market.fault? = none ∧
      (∀ goal ∈ market.goals, (goal.valueIn start).isFinite = true) ∧
      ∃ before behind, before.Unaffordable start ∧ behind.Affordable start ∧
        ((weighing 10).planner.plansToGoals (.static start) ({} : Session) market).value.answer
          = .ok [before, behind] := by
  have valid : (weighing 10).fault? = none := by decide +kernel
  have given : (Session.current (.static start) ({} : Session)).value.1 = .ok ⟨0, start⟩ := rfl
  have fits : (weighing 10).planner.RanksGoals market start
      ((weighing 10).planner.outcome market start) (.static start) ({} : Session) :=
    Planner.ranksGoals rfl given
  have valued : ∀ plan ∈ market.goals.filterMap ((weighing 10).planner.outcome market start),
      plan.ValuedBy (weighing 10) start :=
    Planner.valuedBy_of_outcome (.inl rfl) rfl isFinite_valueIn
  obtain ⟨plans, answer, ranks⟩ := fits.ranked
  obtain ⟨cost, price, declared⟩ := exists_outcomes 10
  rw [declared] at ranks valued
  obtain ⟨sublist, affordable⟩ := (ranks.unaffordable_before_iff
    (Settings.accepted_of_fault? valid) valued (by decide +kernel) unaffordable_palace).mpr
    ⟨.refl _, overflows_castle⟩
  have both := sublist.eq_of_length ranks.perm.length_eq.symm
  refine ⟨valid, by decide +kernel, isFinite_valueIn, ?_⟩
  exact ⟨_, _, unaffordable_palace, affordable, both ▸ answer⟩

end ActionPlanning
