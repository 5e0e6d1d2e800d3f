import AgenticOS.OmniRoute.RateLimiter.Atomicity
import AgenticOS.OmniRoute.Router.Consumption
import AgenticOS.OmniRoute.RoutingPolicies

/-!
# Which routing calls raise

Routing with the policy engine of the program in place of a function, and with the conversions
of context windows checked. A call raises in one of three ways: at the rate limiter by a
division by zero or an infinite number of entries to drain, at the learning engine, which cannot
unpack the candidates, or at the scores by the overflow of a context window.
-/

namespace AgenticOS.OmniRoute.RouterEngineImpl

open AgenticOS.Transition

/-- The weighted score of a candidate, or what the conversion of its context window raises. -/
def scoreCandidateChecked (router : RouterEngineImpl) (request : RoutingRequest)
    (candidate : Candidate) : Except String Candidate :=
  (computeContextScore router.log1p candidate.model).map fun _ =>
    let score := router.scoreCandidate request candidate.provider candidate.model
    { provider := candidate.provider
      model := candidate.model
      score
      weightedTotal := score.weightedTotal }

def scoreInTurn (router : RouterEngineImpl) (request : RoutingRequest) :
    List Candidate → Except String (List Candidate)
  | [] => .ok []
  | candidate :: rest => do
      let scored ← router.scoreCandidateChecked request candidate
      let others ← scoreInTurn router request rest
      return scored :: others

def scoreAllChecked (router : RouterEngineImpl) (request : RoutingRequest)
    (candidates : List Candidate) : Except String (List Candidate) :=
  router.scoreInTurn request <| candidates.insertionSort fun left right =>
    right.model.qualityScore ≤ left.model.qualityScore

/-- Select by the weighted scores, where all of them can be computed. -/
def selectByScoreChecked (router : RouterEngineImpl) (request : RoutingRequest)
    (candidates : List Candidate) : Except Failure RoutingDecision :=
  match router.scoreAllChecked request candidates with
  | .error error => .error (.raised error)
  | .ok _ => router.selectByScore request candidates

def selectWithPolicies (router : RouterEngineImpl) (draws : Draws) (request : RoutingRequest)
    (candidates : List Candidate) :
    Option RoutingPolicyEngineImpl → Except Failure RoutingDecision × Option RoutingPolicyEngineImpl
  | none => (router.selectByScoreChecked request candidates, none)
  | some engine =>
    let (result, engine) := engine.evaluate draws
      (candidates.map fun candidate => (candidate.provider, candidate.model)) request
    match result with
    | .error error => (.error (.raised error), some engine)
    | .ok report => (selectByPolicy request candidates report.toPolicyResult, some engine)

/-- Route a request with a given selection, which may keep a state. -/
def routeBy {σ : Type} (router : RouterEngineImpl)
    (select : List Candidate → σ → Except Failure RoutingDecision × σ) (times : RouteTimes)
    (engines : Engines) (state : σ) (request : RoutingRequest) :
    Except String RoutingDecision × Engines × σ :=
  if ¬ router.started then
    (conclude request (.error (.failed "Router engine not started")), engines, state)
  else if validateRequest request ≠ [] then
    (.ok
      { requestId := request.requestId
        status := .rejected
        reason := "; ".intercalate (validateRequest request) }, engines, state)
  else
    match router.findCandidates request with
    | .error failure => (conclude request (.error failure), engines, state)
    | .ok candidates =>
      let (result, engines) := consult times request engines candidates
      match result.bind (router.applyConstraints request) with
      | .error failure => (conclude request (.error failure), engines, state)
      | .ok eligible =>
        let (selected, state) := select eligible state
        (conclude request selected, engines, state)

def routeWithPolicies (router : RouterEngineImpl) (draws : Draws) (times : RouteTimes)
    (engines : Engines) (policyEngine : Option RoutingPolicyEngineImpl) (request : RoutingRequest) :
    Except String RoutingDecision × Engines × Option RoutingPolicyEngineImpl :=
  router.routeBy (router.selectWithPolicies draws request) times engines policyEngine request

variable {router : RouterEngineImpl} {times : RouteTimes} {request : RoutingRequest}
variable {draws : Draws} {policyEngine : Option RoutingPolicyEngineImpl}

theorem scoreInTurn_eq_ok {candidates scored : List Candidate}
    (ok : router.scoreInTurn request candidates = .ok scored) :
    scored = candidates.map fun candidate =>
      let score := router.scoreCandidate request candidate.provider candidate.model
      { provider := candidate.provider
        model := candidate.model
        score
        weightedTotal := score.weightedTotal } := by
  induction candidates generalizing scored with
  | nil => exact (Except.ok.inj ok).symm
  | cons candidate rest ih =>
    rw [scoreInTurn, scoreCandidateChecked] at ok
    cases converted : computeContextScore router.log1p candidate.model with
    | error error =>
      rw [converted] at ok
      cases ok
    | ok context =>
      cases others : router.scoreInTurn request rest with
      | error error =>
        rw [converted, others] at ok
        cases ok
      | ok found =>
        rw [converted, others] at ok
        rw [← Except.ok.inj ok, List.map_cons, ih others]

theorem scoreInTurn_returns_iff (candidates : List Candidate) :
    (∃ scored, router.scoreInTurn request candidates = .ok scored) ↔
      ∀ candidate ∈ candidates, candidate.model.FitsFloat := by
  induction candidates with
  | nil => simp [scoreInTurn]
  | cons candidate rest ih =>
    rw [List.forall_mem_cons, ← ih,
      ← computeContextScore_returns_iff router.log1p candidate.model, scoreInTurn,
      scoreCandidateChecked]
    cases computeContextScore router.log1p candidate.model with
    | error error => simp [Except.map, bind, Except.bind]
    | ok context =>
      cases router.scoreInTurn request rest with
      | error error => simp [Except.map, bind, Except.bind]
      | ok scored => simp [Except.map, bind, Except.bind, pure, Except.pure]

theorem scoreAllChecked_returns_iff (router : RouterEngineImpl) (request : RoutingRequest)
    (candidates : List Candidate) :
    (∃ scored, router.scoreAllChecked request candidates = .ok scored) ↔
      ∀ candidate ∈ candidates, candidate.model.FitsFloat := by
  rw [scoreAllChecked, scoreInTurn_returns_iff]
  simp only [List.mem_insertionSort]

/-- The stage does not raise; it may fail. -/
def Returns {α : Type} (outcome : Except Failure α) : Prop :=
  ∀ error, outcome ≠ .error (.raised error)

@[simp]
theorem returns_ok {α : Type} (value : α) : Returns (.ok value) := by
  intro error equal
  cases equal

@[simp]
theorem returns_failed {α : Type} (reason : String) :
    Returns (.error (.failed reason) : Except Failure α) := by
  intro error equal
  cases equal

@[simp]
theorem not_returns_raised {α : Type} (error : String) :
    ¬ Returns (.error (.raised error) : Except Failure α) :=
  fun returns => returns error rfl

theorem conclude_returns_iff (outcome : Except Failure RoutingDecision) :
    (∃ decision, conclude request outcome = .ok decision) ↔ Returns outcome := by
  rcases outcome with (reason | error) | decision
  · simp [conclude]
  · simp [conclude]
  · simp [conclude]

theorem returns_bind_iff {α β : Type} (first : Except Failure α) (next : α → Except Failure β) :
    Returns (first >>= next) ↔
      Returns first ∧ ∀ value, first = .ok value → Returns (next value) := by
  rcases first with (reason | error) | value
  · simp [bind, Except.bind]
  · simp [bind, Except.bind]
  · simp [bind, Except.bind]

theorem returns_nonempty (candidates : List Candidate) (reason : String) :
    Returns (nonempty candidates reason) := by
  rw [nonempty]
  split
  · exact returns_failed reason
  · exact returns_ok candidates

theorem returns_findCandidates (router : RouterEngineImpl) (request : RoutingRequest) :
    Returns (router.findCandidates request) := by
  rw [findCandidates]
  dsimp only
  split
  · exact returns_failed _
  · exact returns_nonempty _ _

theorem returns_andThen_iff (stage : Engines → List Candidate → Consultation)
    (consultation : Consultation) : Returns (andThen stage consultation).1 ↔
      Returns consultation.1 ∧
        ∀ candidates, consultation.1 = .ok candidates →
          Returns (stage consultation.2 candidates).1 := by
  rcases consultation with ⟨result, engines⟩
  cases result <;> simp [andThen]

theorem returns_consultBudget (times : RouteTimes) (request : RoutingRequest) (engines : Engines)
    (candidates : List Candidate) : Returns (consultBudget times request engines candidates).1 := by
  rw [consultBudget]
  split
  · exact returns_ok candidates
  · dsimp only
    split
    · split
      · exact returns_ok candidates
      · exact returns_nonempty _ _
    · exact returns_failed _

section

variable (times : RouteTimes) (engines : Engines) (candidates : List Candidate)

theorem returns_consultScheduler : Returns (consultScheduler times engines candidates).1 := by
  rw [consultScheduler]
  split
  · exact returns_ok candidates
  · exact returns_nonempty _ _

theorem returns_consultCircuitBreaker :
    Returns (consultCircuitBreaker times engines candidates).1 := by
  rw [consultCircuitBreaker]
  split
  · exact returns_ok candidates
  · exact returns_nonempty _ _

end

def CanLimit (request : RoutingRequest) :
    (Nat → Instant) → RateLimiterEngineImpl → List Candidate → Prop
  | _, _, [] => True
  | times, limiter, candidate :: rest =>
    limiter.CanEvaluate (times 0) (permitRequest request candidate) ∧
      CanLimit request (fun index => times (index + 1))
        (limiter.evaluate (times 0) (permitRequest request candidate)).2 rest

theorem returns_limitCandidates_iff (request : RoutingRequest) (times : Nat → Instant)
    (limiter : RateLimiterEngineImpl) (candidates remaining : List Candidate) :
    Returns (limitCandidates request times limiter candidates remaining).1 ↔
      CanLimit request times limiter candidates := by
  induction candidates generalizing times limiter remaining with
  | nil => exact ⟨fun _ => trivial, fun _ => returns_ok remaining⟩
  | cons candidate rest ih =>
    have normal : (permitRequest request candidate).priority ≠ .background := by
      intro equal
      cases equal
    have returns := limiter.evaluate_returns_iff normal (times 0)
    rw [CanLimit, ← returns, limitCandidates]
    split
    next error after raised =>
      simp [raised]
    next decision after decided =>
      simp [decided, ih]

theorem returns_consultRateLimiter_iff (times : RouteTimes) (request : RoutingRequest)
    (engines : Engines) (candidates : List Candidate) :
    Returns (consultRateLimiter times request engines candidates).1 ↔
      ∀ limiter, engines.rateLimiter = some limiter →
        CanLimit request times.rateLimiter limiter candidates := by
  rw [consultRateLimiter]
  cases attached : engines.rateLimiter with
  | none =>
    refine ⟨fun _ => ?_, fun _ => returns_ok candidates⟩
    intro limiter equal
    cases equal
  | some limiter =>
    have limited := returns_limitCandidates_iff request times.rateLimiter limiter candidates
      candidates
    change Returns ((limitCandidates request times.rateLimiter limiter candidates
      candidates).1 >>= fun remaining => nonempty remaining _) ↔ _
    rw [returns_bind_iff, limited]
    constructor
    · rintro ⟨can, _⟩ other equal
      cases equal
      exact can
    · intro can
      exact ⟨can limiter rfl, fun remaining _ => returns_nonempty remaining _⟩

/-! ## Routing -/

/-- The candidates that the circuit breaker leaves: those that reach the learning engine. -/
def afterCircuitBreaker (times : RouteTimes) (request : RoutingRequest)
    (found : Except Failure (List Candidate)) (engines : Engines) : Consultation :=
  andThen (consultCircuitBreaker times) (afterScheduler times request found engines)

theorem rateLimiter_afterBudget (found : Except Failure (List Candidate)) (engines : Engines) :
    (afterBudget times request found engines).2.rateLimiter = engines.rateLimiter := by
  have keeps := andThen_keeps (found, engines)
    (fun engines : Engines => { engines with budgetEngine := none })
    (consultBudget_keeps times request)
  have limiter := congrArg Engines.rateLimiter keeps
  exact limiter

theorem returns_afterCircuitBreaker_iff {found : Except Failure (List Candidate)}
    (returns : Returns found) (engines : Engines) :
    Returns (afterCircuitBreaker times request found engines).1 ↔
      ∀ asked limiter, (afterBudget times request found engines).1 = .ok asked →
        engines.rateLimiter = some limiter → CanLimit request times.rateLimiter limiter asked := by
  have budget : Returns (afterBudget times request found engines).1 :=
    (returns_andThen_iff _ _).mpr ⟨returns, fun _ _ => returns_consultBudget _ _ _ _⟩
  have limiter : Returns (afterRateLimiter times request found engines).1 ↔
      ∀ asked limiter, (afterBudget times request found engines).1 = .ok asked →
        engines.rateLimiter = some limiter →
          CanLimit request times.rateLimiter limiter asked := by
    rw [afterRateLimiter, returns_andThen_iff]
    constructor
    · rintro ⟨_, stage⟩ asked limiter reached attached
      apply (returns_consultRateLimiter_iff _ _ _ _).mp (stage asked reached)
      rw [rateLimiter_afterBudget]
      exact attached
    · intro can
      refine ⟨budget, ?_⟩
      intro asked reached
      apply (returns_consultRateLimiter_iff _ _ _ _).mpr
      intro limiter attached
      rw [rateLimiter_afterBudget] at attached
      exact can asked limiter reached attached
  rw [← limiter, afterCircuitBreaker, afterScheduler, returns_andThen_iff, returns_andThen_iff]
  constructor
  · exact fun stages => stages.1.1
  · exact fun limits => ⟨⟨limits, fun _ _ => returns_consultScheduler _ _ _⟩,
      fun _ _ => returns_consultCircuitBreaker _ _ _⟩

def LeavesSome (stage : Engines → List Candidate → Consultation) : Prop :=
  ∀ engines candidates remaining, candidates ≠ [] →
    (stage engines candidates).1 = .ok remaining → remaining ≠ []

theorem ne_nil_of_nonempty {candidates remaining : List Candidate} {reason : String}
    (ok : nonempty candidates reason = .ok remaining) : remaining ≠ [] := by
  rw [nonempty] at ok
  split at ok
  · cases ok
  next some =>
    cases ok
    exact some

theorem LeavesSome.andThen {stage : Engines → List Candidate → Consultation}
    (leaves : LeavesSome stage) {consultation : Consultation}
    (before : ∀ candidates, consultation.1 = .ok candidates → candidates ≠ [])
    (remaining : List Candidate) (ok : (andThen stage consultation).1 = .ok remaining) :
    remaining ≠ [] := by
  rcases consultation with ⟨result, engines⟩
  cases result with
  | error failure => cases ok
  | ok candidates => exact leaves engines candidates remaining (before candidates rfl) ok

theorem consultBudget_leavesSome : LeavesSome (consultBudget times request) := by
  intro engines candidates remaining some ok
  rw [consultBudget] at ok
  split at ok
  · cases ok
    exact some
  · dsimp only at ok
    split at ok
    · split at ok
      · cases ok
        exact some
      · exact ne_nil_of_nonempty ok
    · cases ok

theorem consultRateLimiter_leavesSome : LeavesSome (consultRateLimiter times request) := by
  intro engines candidates remaining some ok
  rw [consultRateLimiter] at ok
  split at ok
  · cases ok
    exact some
  · obtain ⟨kept, _, left⟩ := bind_eq_ok ok
    exact ne_nil_of_nonempty left

theorem consultScheduler_leavesSome : LeavesSome (consultScheduler times) := by
  intro engines candidates remaining some ok
  rw [consultScheduler] at ok
  split at ok
  · cases ok
    exact some
  · exact ne_nil_of_nonempty ok

theorem consultCircuitBreaker_leavesSome : LeavesSome (consultCircuitBreaker times) := by
  intro engines candidates remaining some ok
  rw [consultCircuitBreaker] at ok
  split at ok
  · cases ok
    exact some
  · exact ne_nil_of_nonempty ok

theorem afterCircuitBreaker_ne_nil {engines : Engines} {remaining : List Candidate}
    (reached : (afterCircuitBreaker times request (router.findCandidates request) engines).1 =
      .ok remaining) : remaining ≠ [] := by
  have found : ∀ candidates, router.findCandidates request = .ok candidates →
      candidates ≠ [] := by
    intro candidates found
    rw [findCandidates] at found
    dsimp only at found
    split at found
    · cases found
    · exact ne_nil_of_nonempty found
  exact consultCircuitBreaker_leavesSome.andThen
    (consultScheduler_leavesSome.andThen
      (consultRateLimiter_leavesSome.andThen (consultBudget_leavesSome.andThen found)))
    remaining reached

theorem returns_applyConstraints_iff {candidates : List Candidate} (some : candidates ≠ []) :
    Returns (router.applyConstraints request candidates) ↔
      router.adaptiveLearningEngine ≠ Option.some true := by
  rw [applyConstraints, enrich, returns_bind_iff]
  constructor
  · rintro ⟨enriched, _⟩ started
    rw [if_pos ⟨started, some⟩] at enriched
    exact enriched _ rfl
  · intro notStarted
    rw [if_neg fun both => notStarted both.1]
    refine ⟨returns_ok (), ?_⟩
    intro _ _
    rw [returns_bind_iff]
    exact ⟨returns_nonempty _ _, fun _ _ => returns_nonempty _ _⟩

def CanSelect (draws : Draws) (policyEngine : Option RoutingPolicyEngineImpl)
    (request : RoutingRequest) (eligible : List Candidate) : Prop :=
  match policyEngine with
  | none => ∀ candidate ∈ eligible, candidate.model.FitsFloat
  | some engine =>
    engine.CanScore draws
      (eligible.map fun candidate => (candidate.provider, candidate.model)) request

theorem returns_selectByPolicy (request : RoutingRequest) (candidates : List Candidate)
    (result : PolicyResult) : Returns (selectByPolicy request candidates result) := by
  rw [selectByPolicy]
  split
  · exact returns_failed _
  · dsimp only
    split
    · exact returns_failed _
    · exact returns_ok _

theorem returns_selectByScore (router : RouterEngineImpl) (request : RoutingRequest)
    (candidates : List Candidate) : Returns (router.selectByScore request candidates) := by
  unfold selectByScore
  dsimp only
  split
  · exact returns_failed _
  · exact returns_ok _

theorem returns_selectWithPolicies_iff (eligible : List Candidate) :
    Returns (router.selectWithPolicies draws request eligible policyEngine).1 ↔
      CanSelect draws policyEngine request eligible := by
  cases policyEngine with
  | none =>
    rw [selectWithPolicies, selectByScoreChecked, CanSelect]
    rw [← router.scoreAllChecked_returns_iff request eligible]
    cases router.scoreAllChecked request eligible with
    | error error => simp
    | ok scored => simp [returns_selectByScore]
  | some engine =>
    rw [selectWithPolicies, CanSelect]
    dsimp only
    rw [← RoutingPolicyEngineImpl.evaluate_returns_iff]
    cases (engine.evaluate draws
        (eligible.map fun candidate => (candidate.provider, candidate.model)) request).1 with
    | error error => simp
    | ok report => simp [returns_selectByPolicy]

/-- What a call meets on its way. -/
structure Answerable (router : RouterEngineImpl) (draws : Draws) (times : RouteTimes)
    (engines : Engines) (policyEngine : Option RoutingPolicyEngineImpl)
    (request : RoutingRequest) : Prop where
  /-- The rate limiter asks no policy that raises. -/
  limiter : ∀ asked limiter,
    (afterBudget times request (router.findCandidates request) engines).1 = .ok asked →
      engines.rateLimiter = some limiter → CanLimit request times.rateLimiter limiter asked
  /-- A learning engine that is reached is not started. -/
  learning : ∀ remaining,
    (afterCircuitBreaker times request (router.findCandidates request) engines).1 =
      .ok remaining → router.adaptiveLearningEngine ≠ some true
  /-- The context windows that are scored fit into a float. -/
  selection : ∀ remaining eligible,
    (afterCircuitBreaker times request (router.findCandidates request) engines).1 =
      .ok remaining → router.applyConstraints request remaining = .ok eligible →
        CanSelect draws policyEngine request eligible

theorem routeWithPolicies_of_admitted (started : router.started)
    (valid : validateRequest request = []) (engines : Engines) :
    (router.routeWithPolicies draws times engines policyEngine request).1 =
      conclude request
        ((afterCircuitBreaker times request (router.findCandidates request) engines).1 >>=
          router.applyConstraints request >>= fun eligible =>
            (router.selectWithPolicies draws request eligible policyEngine).1) := by
  rw [routeWithPolicies, routeBy, if_neg (not_not.mpr started), if_neg (not_not.mpr valid)]
  cases router.findCandidates request with
  | error failure => rfl
  | ok candidates =>
    change _ = conclude request ((consult times request engines candidates).1 >>=
      router.applyConstraints request >>= _)
    change (match (consult times request engines candidates).1 >>=
      router.applyConstraints request with
      | .error failure => _
      | .ok eligible => _ : Except String RoutingDecision × Engines × _).1 = _
    cases (consult times request engines candidates).1 >>= router.applyConstraints request <;> rfl

def sampleDraws : Draws where
  policyId := "d"
  random := fun _ => 0

end AgenticOS.OmniRoute.RouterEngineImpl
