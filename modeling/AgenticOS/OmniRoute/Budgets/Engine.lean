import Mathlib.Data.List.Sort
import AgenticOS.OmniRoute.Budgets.UsageTracker

/-!
# The budget engine

The engine decides whether a provider and model may be selected under the spending
policies that apply to a request, and takes a reservation for every candidate it
approves through its life cycle. Each method holds the engine's lock from its
first to its last access to the state, so one call is one transition.

A call reads the clocks once. Published events and the audit log are not part of
the state: nothing in the engine depends on them.
-/

namespace AgenticOS.OmniRoute

/-- A candidate pair handed over by the router. -/
abbrev BudgetCandidate := OmniRouteProvider × OmniRouteModel

def BudgetReservation.isOpen (reservation : BudgetReservation) : Bool :=
  !reservation.committed && !reservation.rolledBack && !reservation.released

structure BudgetEngineImpl where
  policies : Dict String BudgetPolicy
  policiesByScope : Dict String (List String)
  reservations : Dict ReservationId BudgetReservation
  overrides : Dict String BudgetOverride
  usageTracker : UsageTracker
  emergencyMode : Bool
  stats : BudgetStatistics
  /-- The id the next reservation receives. -/
  nextReservation : ReservationId

namespace BudgetEngineImpl

/-- Reservations expire after this time if not committed. -/
def reservationTtlSeconds : ℚ := 30

/-- A freshly constructed engine. -/
def init : BudgetEngineImpl where
  policies := Dict.empty
  policiesByScope := Dict.empty
  reservations := Dict.empty
  overrides := Dict.empty
  usageTracker := UsageTracker.init
  emergencyMode := false
  stats := {}
  nextReservation := 0

def scopeKey (scope : BudgetScope) (scopeId : String) : String :=
  scope.value ++ ":" ++ scopeId

variable (engine : BudgetEngineImpl)

/-- Add a policy. The ids of one scope are kept sorted by descending priority; the
sort is stable. -/
def createPolicy (policy : BudgetPolicy) : BudgetEngineImpl :=
  let policies := engine.policies.set policy.id policy
  let key := scopeKey policy.scope policy.scopeId
  let priority := fun pid => ((policies.get? pid).map BudgetPolicy.priority).getD 0
  let ids := (engine.policiesByScope.get? key).getD [] ++ [policy.id]
  { engine with
    policies
    policiesByScope := engine.policiesByScope.set key
      (ids.insertionSort fun left right => priority right ≤ priority left) }

/-- The scopes a request falls under, in order of precedence. -/
def scopeKeys (request : RoutingRequest) : List String :=
  [scopeKey .global "",
    scopeKey .organization request.organization,
    scopeKey .workspace request.workspace,
    scopeKey .user request.userId,
    scopeKey .agent request.agent,
    scopeKey .session request.missionId]

/-- One round of the collecting loop. -/
def collectPolicy (collected : Dict String BudgetPolicy)
    (pid : String) : Dict String BudgetPolicy :=
  match engine.policies.get? pid with
  | some policy => if policy.enabled then collected.set pid policy else collected
  | none => collected

def resolveApplicablePolicies (request : RoutingRequest) : List BudgetPolicy :=
  let ids := (scopeKeys request).flatMap fun key => (engine.policiesByScope.get? key).getD []
  (ids.foldl engine.collectPolicy Dict.empty).values

def findActiveOverride (now : Timestamp) (policyId : String) : Option BudgetOverride :=
  engine.overrides.values.find? fun override =>
    override.policyId = policyId && !(override.expiresAt.any (· < now))

/-- What the loop over the policies carries from one policy to the next. -/
structure PolicyLoop where
  stats : BudgetStatistics
  warnings : List String := []
  overrides : List String := []
  effectivePolicyId : String := ""
  effectiveScope : BudgetScope := .global
  remaining : WithTop ℚ := ⊤

def recordLimitHit (stats : BudgetStatistics) (scope : String) : BudgetStatistics :=
  { stats with limitHits := stats.limitHits.set scope ((stats.limitHits.get? scope).getD 0 + 1) }

def overridden (override : Option BudgetOverride) (key : String) (limit : ℚ) : ℚ :=
  (override.bind fun override => override.overriddenLimits.get? key).getD limit

variable (clock : Clock)

/-- Check one policy: the rejection with its reason and the statistics it leaves, or
the loop's next state. -/
def checkPolicy (estimatedCost : ℚ) (loop : PolicyLoop) (policy : BudgetPolicy) :
    Except (BudgetStatistics × String) PolicyLoop :=
  let override := engine.findActiveOverride clock.now policy.id
  let limitTotal := overridden override "max_spend_total" policy.maxSpendTotal
  let limitDaily := overridden override "max_spend_daily" policy.maxSpendDaily
  let limitMonthly := policy.maxSpendMonthly
  let limitPerRequest := policy.maxSpendPerRequest
  let hardLimit := overridden override "hard_limit" policy.hardLimit
  let usage := engine.usageTracker.getUsage clock.now policy.id
  let money := Decimal.fixed 4
  if 0 < hardLimit ∧ hardLimit < estimatedCost then
    .error (loop.stats, "Estimated cost " ++ money estimatedCost ++ " exceeds hard limit " ++
      money hardLimit ++ " (policy " ++ policy.id ++ ")")
  else if 0 < limitPerRequest ∧ limitPerRequest < estimatedCost then
    .error (loop.stats, "Estimated cost " ++ money estimatedCost ++
      " exceeds per-request limit " ++ money limitPerRequest)
  else if 0 < limitTotal ∧ limitTotal < usage.totalSpent + estimatedCost then
    .error (recordLimitHit loop.stats policy.scope.value, "Total budget limit " ++
      money limitTotal ++ " exceeded (spent: " ++ money usage.totalSpent ++
      ", estimated: " ++ money estimatedCost ++ ")")
  else if 0 < limitDaily ∧ limitDaily < usage.dailySpent + estimatedCost then
    .error (recordLimitHit loop.stats policy.scope.value, "Daily budget limit " ++
      money limitDaily ++ " exceeded (daily spent: " ++ money usage.dailySpent ++ ")")
  else if 0 < limitMonthly ∧ limitMonthly < usage.monthlySpent + estimatedCost then
    .error (recordLimitHit loop.stats policy.scope.value, "Monthly budget limit " ++
      money limitMonthly ++ " exceeded (monthly spent: " ++ money usage.monthlySpent ++ ")")
  else
    let effectiveLimit := if 0 < hardLimit then hardLimit else limitTotal
    let ratio := (usage.totalSpent + estimatedCost) / effectiveLimit
    -- The soft limit only warns.
    let warned : Bool := 0 < policy.softLimit ∧ 0 < effectiveLimit ∧
      policy.warningThreshold ≤ ratio
    .ok
      { stats :=
          if warned then { loop.stats with warningsIssued := loop.stats.warningsIssued + 1 }
          else loop.stats
        warnings :=
          if warned then loop.warnings ++ ["Approaching limit on " ++ policy.scope.value ++
            " policy: " ++ Decimal.percent ratio ++ " used"]
          else loop.warnings
        overrides := if override.isSome then loop.overrides ++ [policy.id] else loop.overrides
        effectivePolicyId := policy.id
        effectiveScope := policy.scope
        remaining :=
          if 0 < limitTotal then
            min loop.remaining
              ((limitTotal - usage.totalSpent - usage.activeReservations : ℚ) : WithTop ℚ)
          else loop.remaining }

/-- All checks on one candidate: the request's own limit first, then every
applicable policy in turn. -/
def admission (request : RoutingRequest) (policies : List BudgetPolicy) (estimatedCost : ℚ) :
    Except (BudgetStatistics × String) PolicyLoop :=
  if 0 < request.budgetLimit ∧ request.budgetLimit < estimatedCost then
    .error (engine.stats, "Estimated cost " ++ Decimal.fixed 4 estimatedCost ++
      " exceeds request budget limit " ++ Decimal.fixed 4 request.budgetLimit)
  else
    policies.foldlM (engine.checkPolicy clock estimatedCost) { stats := engine.stats }

/-- Store a new reservation, and hold its amount where it names a policy. -/
def hold (reservation : BudgetReservation) : BudgetEngineImpl :=
  { engine with
    reservations := engine.reservations.set engine.nextReservation reservation
    nextReservation := engine.nextReservation + 1
    usageTracker :=
      if reservation.policyId = "" then engine.usageTracker
      else engine.usageTracker.addReservation clock.now reservation.policyId
        reservation.estimatedCost }

def evaluateCandidate (candidate : BudgetCandidate)
    (request : RoutingRequest) (policies : List BudgetPolicy) : BudgetResult × BudgetEngineImpl :=
  let estimate := CostPredictor.estimate candidate.1 candidate.2 request
  match engine.admission clock request policies estimate.estimatedCost with
  | .error (stats, reason) =>
    ({ rejected := true
       reason
       estimatedCost := estimate.estimatedCost
       maxCost := estimate.maxCost },
      { engine with stats })
  | .ok loop =>
    let reservation : BudgetReservation :=
      { id := engine.nextReservation
        policyId := loop.effectivePolicyId
        scope := loop.effectiveScope
        provider := candidate.1.name
        model := candidate.2.modelId
        estimatedCost := estimate.estimatedCost
        maxCost := estimate.maxCost
        timestamp := clock.now
        expiresAt := some (clock.now + reservationTtlSeconds) }
    ({ approved := true
       estimatedCost := estimate.estimatedCost
       maxCost := estimate.maxCost
       remainingBudget := loop.remaining
       reservationId := some engine.nextReservation
       effectivePolicyId := loop.effectivePolicyId
       effectiveScope := loop.effectiveScope
       warnings := loop.warnings
       overridesApplied := loop.overrides.dedup },
      { engine with stats := loop.stats }.hold clock reservation)

/-- The loop over the candidates. -/
def evaluateCandidates (engine : BudgetEngineImpl) (clock : Clock) (request : RoutingRequest)
    (policies : List BudgetPolicy) :
    List BudgetCandidate → List BudgetResult × BudgetEngineImpl
  | [] => ([], engine)
  | candidate :: rest =>
    let (result, engine) := engine.evaluateCandidate clock candidate request policies
    let (results, engine) := engine.evaluateCandidates clock request policies rest
    (result :: results, engine)

/-! ## Expiry -/

def expiredIds (now : Timestamp) : List ReservationId :=
  (engine.reservations.entries.filter fun entry =>
    entry.2.isOpen && entry.2.expiresAt.any (· < now)).map Prod.fst

/-- Give back the amount a reservation held, where it names a policy. -/
def untrack (reservation : BudgetReservation) : UsageTracker :=
  if reservation.policyId = "" then engine.usageTracker
  else engine.usageTracker.removeReservation clock.now reservation.policyId
    reservation.estimatedCost

/-- One round of the clean-up loop. -/
def expire (engine : BudgetEngineImpl) (rid : ReservationId) : BudgetEngineImpl :=
  match engine.reservations.get? rid with
  | none => engine
  | some reservation =>
    { engine with
      reservations := engine.reservations.set rid
        { reservation with
          expiresAt := none, committed := false, rolledBack := false, released := true }
      usageTracker := engine.untrack clock reservation }

def cleanupExpiredReservations : BudgetEngineImpl :=
  (engine.expiredIds clock.now).foldl (expire clock) engine

/-- Evaluate all candidates against the applicable policies. `evaluationTimeMs` is the
measured duration of the call. -/
def evaluate (evaluationTimeMs : ℚ) (candidates : List BudgetCandidate) (request : RoutingRequest) :
    BudgetDecision × BudgetEngineImpl :=
  let engine := engine.cleanupExpiredReservations clock
  if engine.emergencyMode then
    ({ rejected := true
       reason := "Emergency mode: all spending blocked"
       evaluationTimeMs
       emergencyMode := true },
      { engine with
        stats :=
          { engine.stats with
            totalEvaluations := engine.stats.totalEvaluations + 1
            rejections := engine.stats.rejections + 1
            activeReservations := engine.reservations.size } })
  else
    let policies := engine.resolveApplicablePolicies request
    let (results, engine) := engine.evaluateCandidates clock request policies candidates
    let reservations := results.filterMap fun result =>
      if result.approved then result.reservationId else none
    let filtered := ((candidates.zip results).filter fun entry => !entry.2.approved).map
      fun entry => entry.1.1.name ++ "/" ++ entry.1.2.modelId
    let stats := engine.stats
    let totalEvaluations := stats.totalEvaluations + 1
    let hasApproved := results.any BudgetResult.approved
    ({ approved := hasApproved
       rejected := !hasApproved
       reason := if hasApproved then "" else "All candidates exceed budget limits"
       filteredCandidates := filtered
       results
       reservations
       evaluationTimeMs },
      { engine with
        stats :=
          { stats with
            totalEvaluations
            approvals := stats.approvals + results.countP BudgetResult.approved
            rejections := stats.rejections + results.countP BudgetResult.rejected
            reservationCount := stats.reservationCount + reservations.length
            activeReservations := engine.reservations.size
            averageEvaluationTimeMs :=
              (stats.averageEvaluationTimeMs * stats.totalEvaluations + evaluationTimeMs) /
                totalEvaluations } })

/-- Create an explicit reservation outside of `evaluate`. It names no policy, so
nothing is held for it. -/
def reserve (provider model : String)
    (estimatedCost maxCost : ℚ) (scope : BudgetScope) (scopeId : String) :
    BudgetReservation × BudgetEngineImpl :=
  let engine := engine.cleanupExpiredReservations clock
  let reservation : BudgetReservation :=
    { id := engine.nextReservation
      scope, scopeId, provider, model, estimatedCost, maxCost
      timestamp := clock.now
      expiresAt := some (clock.now + reservationTtlSeconds) }
  (reservation, engine.hold clock reservation)

def updateDict (spend : Dict String ℚ) (key : String) (amount : ℚ) : Dict String ℚ :=
  spend.set key ((spend.get? key).getD 0 + amount)

def commit (rid : ReservationId) : Bool × BudgetEngineImpl :=
  match engine.reservations.get? rid with
  | none => (false, engine)
  | some reservation =>
    if reservation.committed || reservation.rolledBack || reservation.released then
      (false, engine)
    else
      let cost := reservation.estimatedCost
      (true,
        { engine with
          reservations := engine.reservations.set rid
            { reservation with committed := true, rolledBack := false, released := false }
          usageTracker :=
            if reservation.policyId = "" then engine.usageTracker
            else
              (engine.untrack clock reservation).recordSpend clock reservation.policyId cost
                reservation.provider reservation.model
          stats :=
            { engine.stats with
              commits := engine.stats.commits + 1
              providerSpend := updateDict engine.stats.providerSpend reservation.provider cost
              modelSpend := updateDict engine.stats.modelSpend reservation.model cost } })

/-- Roll back a reservation: release the funds without recording spend. -/
def rollback (rid : ReservationId) : Bool × BudgetEngineImpl :=
  match engine.reservations.get? rid with
  | none => (false, engine)
  | some reservation =>
    if reservation.committed || reservation.rolledBack then (false, engine)
    else
      (true,
        { engine with
          reservations := engine.reservations.set rid
            { reservation with
              expiresAt := none, committed := false, rolledBack := true, released := false }
          usageTracker := engine.untrack clock reservation
          stats :=
            { engine.stats with
              rollbacks := engine.stats.rollbacks + 1
              costSaved := engine.stats.costSaved + reservation.estimatedCost } })

def release (rid : ReservationId) : Bool × BudgetEngineImpl :=
  match engine.reservations.get? rid with
  | none => (false, engine)
  | some reservation =>
    if reservation.released then (false, engine)
    else
      (true,
        { engine with
          reservations := engine.reservations.set rid
            { reservation with
              expiresAt := none, committed := false, rolledBack := false, released := true }
          usageTracker := engine.untrack clock reservation })

end BudgetEngineImpl

end AgenticOS.OmniRoute
