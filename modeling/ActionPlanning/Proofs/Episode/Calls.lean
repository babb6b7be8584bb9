import ActionPlanning.Planner
import ActionPlanning.Proofs.Episode.Fetch

/-!
# Calls on a planner

A planner is used by calls, one after another: queries, which need the snapshot of the episode,
new episodes, and cancellations of the current episode or of a token that was kept. A turn is one
such call together with all that it depends on. A query either is given the snapshot of the episode
and is answered with what it comes to there, or fails for the reason for which there is none.

## Main definitions

* `Query`, `Planner.ask`: the calls that need the snapshot, and how a planner carries them out.
* `Planner.evaluate`: what a query comes to on a snapshot.
* `Call`, `Turn`: any call, and a call with what it finds.
* `Turn.obtained`, `Turn.state`: the snapshot that a call is given, and the state in it.
* `Turn.Uses`, `Turn.Succeeds`, `Turn.Refused`: how a query can go.
* `Turn.needsFetch`, `Turn.cancelled`: whether a fetch is due, and which token gets cancelled.

## Main results

* `Planner.value_ask`: a query comes to what it comes to on the snapshot, or fails as that does.
* `Turn.succeeds_iff`, `Turn.uses_iff`, `Turn.refused_iff`: how a query goes, by what becomes of
  the snapshot.
-/

namespace ActionPlanning

/-- A call that needs the snapshot of the episode. -/
inductive Query where
  | worldState
  | planToGoal (actions : List Action) (goal : Goal)
  | plansToGoals (system : PlanningSystem)
  | bestPlan (system : PlanningSystem)

/-- What a query is answered with. -/
def Query.Answer : Query → Type
  | worldState => Snapshot
  | planToGoal .. => Option ScoredPlan
  | plansToGoals _ => List ScoredPlan
  | bestPlan _ => Option ScoredPlan

namespace Planner

variable {γ : Type} [TokenLibrary γ] {determiner : Determiner} {s : Session γ}

/-- Carries out a query. -/
def ask (p : Planner) (determiner : Determiner) (s : Session γ) :
    (q : Query) → Recorded (Reaction q.Answer γ)
  | .worldState => do
    let (answer, session) ← s.current determiner
    return { answer, session }
  | .planToGoal actions goal => p.planToGoal determiner s actions goal
  | .plansToGoals system => p.plansToGoals determiner s system
  | .bestPlan system => p.bestPlan determiner s system

/-- What a query comes to on a snapshot, and what the observer is told meanwhile. -/
def evaluate (p : Planner) (snapshot : Snapshot) : (q : Query) → q.Answer × List Observation
  | .worldState => (snapshot, [])
  | .planToGoal actions goal => ((p.search actions goal snapshot.state).value, [])
  | .plansToGoals system =>
    let result := (p.rank system snapshot.state).value
    (result.plans, result.seen)
  | .bestPlan system =>
    let result := (p.rank system snapshot.state).value
    (result.plans.head?, result.seen)

/-- The reaction to a query, given what became of the snapshot and what the query comes to on it. -/
def reactionOf {α : Type} (obtained : Except Interruption Snapshot × Session γ)
    (evaluate : Snapshot → α × List Observation) : Reaction α γ :=
  match obtained.1 with
  | .error interruption => { answer := .error interruption, session := obtained.2 }
  | .ok snapshot =>
    { answer := .ok (evaluate snapshot).1, seen := (evaluate snapshot).2, session := obtained.2 }

theorem value_onSnapshot {α : Type} (operation : WorldState → Recorded (α × List Observation)) :
    (onSnapshot determiner s operation).value
      = reactionOf (s.current determiner).value fun snapshot =>
          (operation snapshot.state).value := by
  unfold onSnapshot reactionOf
  rw [Recorded.value_bind]
  cases outcome : (s.current determiner).value.1 <;> simp only [outcome] <;> rfl

/-- A query comes to what it comes to on the snapshot of the episode, or fails as that does. -/
theorem value_ask (p : Planner) (q : Query) :
    (p.ask determiner s q).value
      = reactionOf (s.current determiner).value fun snapshot => p.evaluate snapshot q := by
  cases q with
  | worldState =>
    unfold ask reactionOf
    rw [Recorded.value_bind]
    cases outcome : (s.current determiner).value.1 <;> simp only [outcome] <;> rfl
  | planToGoal actions goal => exact value_onSnapshot _
  | plansToGoals system => exact value_onSnapshot _
  | bestPlan system =>
    -- The best plan is read off the ranking, which asks for the snapshot itself.
    have plans : (p.plansToGoals determiner s system).value
        = reactionOf (s.current determiner).value fun snapshot =>
            p.evaluate snapshot (.plansToGoals system) := value_onSnapshot _
    unfold ask bestPlan
    rw [Recorded.value_bind, plans]
    unfold reactionOf
    cases (s.current determiner).value.1 <;> rfl

theorem value_ask_of_ok {p : Planner} {q : Query} {snapshot : Snapshot}
    (given : (s.current determiner).value.1 = .ok snapshot) :
    (p.ask determiner s q).value
      = ⟨.ok (p.evaluate snapshot q).1, (p.evaluate snapshot q).2,
          (s.current determiner).value.2⟩ := by
  rw [value_ask, reactionOf]
  simp only [given]

theorem value_ask_of_error {p : Planner} {q : Query} {interruption : Interruption}
    (missing : (s.current determiner).value.1 = .error interruption) :
    (p.ask determiner s q).value = ⟨.error interruption, [], (s.current determiner).value.2⟩ := by
  rw [value_ask, reactionOf]
  simp only [missing]

end Planner

/-- Anything that can be called on a planner during its episodes. -/
inductive Call where
  | query (q : Query)
  | newEpisode
  | cancelEpisode
  /-- Cancels a token that was kept, of any episode, or a root. -/
  | cancel (token : Token)

/-- Whether a call starts a new episode. -/
def Call.startsEpisode : Call → Bool
  | .newEpisode => true
  | _ => false

/-- A call, and all that it depends on. -/
structure Turn (γ : Type := Cancellations) [TokenLibrary γ] where
  planner : Planner
  determiner : Determiner
  before : Session γ
  call : Call

namespace Turn

variable {γ : Type} [TokenLibrary γ] {t : Turn γ} {q : Query} {snapshot : Snapshot}

/-- What a query yields in this turn. -/
def reaction (t : Turn γ) (q : Query) : Reaction q.Answer γ :=
  (t.planner.ask t.determiner t.before q).value

/-- What the turn leaves to later ones. -/
def after (t : Turn γ) : Session γ :=
  match t.call with
  | .query q => (t.reaction q).session
  | .newEpisode => t.before.newEpisode
  | .cancelEpisode => t.before.cancelEpisode
  | .cancel token => t.before.cancel token

/-- Whether the call returns. -/
def returns (t : Turn γ) : Bool :=
  match t.call with
  | .query q =>
    match (t.reaction q).answer with
    | .error .stuck => false
    | _ => true
  | _ => true

/-- The token of the episode in which the call is made. -/
def token (t : Turn γ) : Token := t.before.cache.token

/-- The call needs the snapshot of the episode. -/
def IsQuery (t : Turn γ) : Prop := ∃ q, t.call = .query q

/-- The call needs the snapshot and is answered. -/
def Succeeds (t : Turn γ) : Prop := ∃ q, t.call = .query q ∧ ∃ a, (t.reaction q).answer = .ok a

/-- The call needs the snapshot and is refused because of a cancellation. -/
def Refused (t : Turn γ) : Prop :=
  ∃ q, t.call = .query q ∧ (t.reaction q).answer = .error (.failed .cancelled)

/-- What becomes of the snapshot if the call needs it. -/
def obtained (t : Turn γ) : Except Interruption Snapshot :=
  (t.before.current t.determiner).value.1

/-- What the call is given of the state of the world, or why it is given none. -/
def state (t : Turn γ) : Except Interruption WorldState := t.obtained.map Snapshot.state

/-- The call is answered with what it comes to on the snapshot, which it was given. -/
def Uses (t : Turn γ) (snapshot : Snapshot) : Prop :=
  ∃ q, t.call = .query q ∧ t.obtained = .ok snapshot ∧
    (t.reaction q).answer = .ok (t.planner.evaluate snapshot q).1 ∧
    (t.reaction q).seen = (t.planner.evaluate snapshot q).2

/-- The call needs the snapshot while nothing is cached and neither the token of the episode nor
its root is cancelled. -/
def needsFetch (t : Turn γ) : Bool :=
  match t.call with
  | .query _ =>
    t.before.cache.snapshot.isNone && !TokenLibrary.isCancelled t.before.cancellations t.token
      && !TokenLibrary.isCancelled t.before.cancellations (.root t.before.cache.root)
  | _ => false

/-- The token that is cancelled in the turn, by the call or by the determiner that it asks. -/
def cancelled (t : Turn γ) : Option Token :=
  match t.call with
  | .query _ =>
    if t.needsFetch then t.before.cancelledByFetch t.determiner else none
  | .newEpisode => none
  | .cancelEpisode => some t.token
  | .cancel token => some token

theorem reaction_of_ok (given : t.obtained = .ok snapshot) :
    t.reaction q
      = ⟨.ok (t.planner.evaluate snapshot q).1, (t.planner.evaluate snapshot q).2,
          (t.before.current t.determiner).value.2⟩ :=
  Planner.value_ask_of_ok given

theorem reaction_of_error {interruption : Interruption}
    (missing : t.obtained = .error interruption) :
    t.reaction q = ⟨.error interruption, [], (t.before.current t.determiner).value.2⟩ :=
  Planner.value_ask_of_error missing

/-- A query comes by the snapshot in one of the four ways, whatever it asks for. -/
theorem obtains_after (isQuery : t.IsQuery) :
    t.before.Obtains t.determiner t.obtained t.after := by
  obtain ⟨q, isQuery⟩ := isQuery
  have after_eq : t.after = (t.before.current t.determiner).value.2 := by
    simp only [after, isQuery]
    cases outcome : t.obtained with
    | ok snapshot => rw [reaction_of_ok outcome]
    | error interruption => rw [reaction_of_error outcome]
  exact after_eq ▸ t.before.current_obtains t.determiner

theorem toOption_state (t : Turn γ) :
    t.state.toOption = t.obtained.toOption.map Snapshot.state := by
  unfold state
  cases t.obtained <;> rfl

theorem state_eq_error_iff {interruption : Interruption} :
    t.state = .error interruption ↔ t.obtained = .error interruption := by
  unfold state
  cases t.obtained <;> simp [Except.map]

/-- A call is answered exactly if it is given a snapshot. -/
theorem succeeds_iff : t.Succeeds ↔ t.IsQuery ∧ ∃ snapshot, t.obtained = .ok snapshot := by
  constructor
  · rintro ⟨q, isQuery, a, answer⟩
    refine ⟨⟨q, isQuery⟩, ?_⟩
    cases outcome : t.obtained with
    | ok snapshot => exact ⟨snapshot, rfl⟩
    | error interruption =>
      rw [reaction_of_error outcome] at answer
      exact nomatch answer
  · rintro ⟨⟨q, isQuery⟩, snapshot, given⟩
    exact ⟨q, isQuery, _, congrArg Reaction.answer (reaction_of_ok given)⟩

theorem uses_iff : t.Uses snapshot ↔ t.IsQuery ∧ t.obtained = .ok snapshot := by
  constructor
  · rintro ⟨q, isQuery, given, -⟩
    exact ⟨⟨q, isQuery⟩, given⟩
  · rintro ⟨⟨q, isQuery⟩, given⟩
    exact ⟨q, isQuery, given, congrArg Reaction.answer (reaction_of_ok given),
      congrArg Reaction.seen (reaction_of_ok given)⟩

theorem refused_iff : t.Refused ↔ t.IsQuery ∧ t.obtained = .error (.failed .cancelled) := by
  constructor
  · rintro ⟨q, isQuery, answer⟩
    refine ⟨⟨q, isQuery⟩, ?_⟩
    cases outcome : t.obtained with
    | ok snapshot =>
      rw [reaction_of_ok outcome] at answer
      exact nomatch answer
    | error interruption =>
      rw [reaction_of_error outcome] at answer
      exact congrArg _ (Except.error.inj answer)
  · rintro ⟨⟨q, isQuery⟩, missing⟩
    exact ⟨q, isQuery, congrArg Reaction.answer (reaction_of_error missing)⟩

/-- A call returns unless it waits for a determiner that never comes back. -/
theorem returns_iff : t.returns = true ↔ (t.IsQuery → t.obtained ≠ .error .stuck) := by
  unfold returns IsQuery
  cases call : t.call with
  | query q =>
    cases outcome : t.obtained with
    | ok snapshot => simp [reaction_of_ok outcome]
    | error interruption => cases interruption <;> simp [reaction_of_error outcome]
  | newEpisode | cancelEpisode | cancel token => simp

/-- An episode whose token does not count as cancelled has a root that does not either. -/
theorem needsFetch_iff :
    t.needsFetch = true ↔
      t.IsQuery ∧ t.before.cache.snapshot = none ∧ t.before.isCancelled = false := by
  have root : t.before.isCancelled = false →
      TokenLibrary.isCancelled t.before.cancellations (.root t.before.cache.root) = false := by
    intro uncancelled
    refine Bool.eq_false_iff.mpr fun cancelled => Bool.eq_false_iff.mp uncancelled ?_
    exact TokenLibrary.isCancelled_of_root _ _ _ cancelled
  unfold needsFetch IsQuery
  cases t.call with
  | query q =>
    change (_ && !t.before.isCancelled && _) = true ↔ _
    simpa [and_assoc] using fun _ => root
  | newEpisode | cancelEpisode | cancel token => simp

end Turn

end ActionPlanning
