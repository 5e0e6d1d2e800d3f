import AgenticOS.OmniRoute.Budgets.Engine
import AgenticOS.OmniRoute.CircuitBreaker
import AgenticOS.OmniRoute.RateLimiter
import AgenticOS.OmniRoute.Scheduler

/-!
# The router

`route` runs a request through a fixed sequence of stages. The first ones pair models with
providers, the next consult the attached engines about every candidate, the last filter,
score and select. A stage that leaves no candidate ends the call; what the engines have
taken for the candidates until then stays with them.

The functions of the standard library that have no counterpart on exact numbers or strings
here, `math.log1p` and `str.lower`, are parameters of the router, and so is the policy engine:
any function from candidates and request to a result.
-/

namespace AgenticOS.OmniRoute

open Decimal

structure RoutingScore where
  qualityScore : ℚ := 0
  costScore : ℚ := 0
  latencyScore : ℚ := 0
  healthScore : ℚ := 0
  reliabilityScore : ℚ := 0
  contextScore : ℚ := 0
  preferenceScore : ℚ := 0
  weightedTotal : ℚ := 0
  candidateCount : Nat := 0
  rank : Nat := 0
  deriving DecidableEq

structure Candidate where
  provider : OmniRouteProvider
  model : OmniRouteModel
  score : RoutingScore := {}
  weightedTotal : ℚ := 0
  rank : Nat := 0
  deriving DecidableEq

/-- `provider/model`, the name under which the budget engine reports a candidate. -/
def Candidate.name (candidate : Candidate) : String :=
  candidate.provider.name ++ "/" ++ candidate.model.modelId

/-- How a routing call ends. -/
inductive RoutingStatus
  | routed | failed | rejected
  deriving DecidableEq

structure RoutingDecision where
  requestId : String
  provider : String := ""
  providerId : String := ""
  model : String := ""
  modelId : String := ""
  score : RoutingScore := {}
  reason : String := ""
  fallbackChain : List (String × String × String) := []
  estimatedCost : ℚ := 0
  estimatedLatencyMs : ℚ := 0
  confidence : ℚ := 0
  policyUsed : String := "weighted"
  status : RoutingStatus := .routed
  alternativesRejected : ℤ := 0
  deriving DecidableEq

/-- The result of a policy engine. A scored candidate names provider and model id, and
carries a reason and a score. -/
structure PolicyResult where
  strategy : String := "balanced"
  selectedModelId : String := ""
  selectedCost : ℚ := 0
  selectedLatencyMs : ℚ := 0
  scoredCandidates : List (String × String × String × ℚ) := []
  reason : String := ""

abbrev RoutingPolicyEngine :=
  List (OmniRouteProvider × OmniRouteModel) → RoutingRequest → PolicyResult

structure RouterEngineImpl where
  started : Bool := false
  /-- The content of the provider registry, where one is attached. -/
  providerRegistry : Option (List OmniRouteProvider) := none
  /-- The content of the model registry, where one is attached. -/
  modelRegistry : Option (List OmniRouteModel) := none
  routingPolicyEngine : Option RoutingPolicyEngine := none
  /-- Whether the learning engine is started, where one is attached. -/
  adaptiveLearningEngine : Option Bool := none
  /-- `math.log1p`. -/
  log1p : ℚ → ℚ
  /-- `str.lower`. -/
  lower : String → String

/-- The attached engines that a routing call consumes from. -/
structure Engines where
  budgetEngine : Option BudgetEngineImpl := none
  rateLimiter : Option RateLimiterEngineImpl := none
  scheduler : Option SchedulerEngineImpl := none
  circuitBreaker : Option CircuitBreakerEngineImpl := none

/-- The clock readings of a routing call: one for the budget engine with the duration it
measures, and one for each candidate that a later engine is asked about. -/
structure RouteTimes where
  budget : Clock
  budgetEvaluationMs : ℚ := 0
  rateLimiter : Nat → Instant
  scheduler : Nat → Instant
  circuitBreaker : Nat → Timestamp

/-- A routing call that ends early: with a failure, or with an exception. -/
inductive Failure
  | failed (reason : String)
  | raised (error : String)

namespace RouterEngineImpl

def validateRequest (request : RoutingRequest) : List String :=
  (if request.taskType = "" then ["task_type is required"] else []) ++
  (if request.costWeight < 0 then ["cost_weight must be >= 0"] else []) ++
  (if request.qualityWeight < 0 then ["quality_weight must be >= 0"] else []) ++
  (if request.latencyWeight < 0 then ["latency_weight must be >= 0"] else []) ++
  (if request.budgetLimit < 0 then ["budget_limit must be >= 0"] else []) ++
  (if request.maxLatencyMs < 0 then ["max_latency_ms must be >= 0"] else [])

variable (router : RouterEngineImpl)

variable (request : RoutingRequest)

/-- The providers and the models of the registries. A task type that names a kind of
providers restricts them to it; the preferred provider is added in any case. -/
def queryRegistries : List OmniRouteProvider × List OmniRouteModel :=
  let registered := router.providerRegistry.getD []
  let listed :=
    if request.taskType = "openai" ∨ request.taskType = "anthropic" ∨
        request.taskType = "ollama" then
      registered.filter fun provider => provider.kind = request.taskType
    else registered
  let preferred :=
    if request.preferredProvider = "" then none
    else registered.find? fun provider => provider.name = request.preferredProvider
  let providers :=
    match preferred with
    | some provider => if provider ∈ listed then listed else listed ++ [provider]
    | none => listed
  (providers, (router.modelRegistry.getD []).filter OmniRouteModel.enabled)

/-- Pair each enabled model with its provider, found by id or else by name among the enabled
and healthy ones. Where a key repeats, the last provider counts. -/
def filterUnhealthyDisabled (providers : List OmniRouteProvider)
    (models : List OmniRouteModel) : List Candidate :=
  let validProviders := providers.filter fun provider => provider.enabled && provider.healthy
  (models.filter OmniRouteModel.enabled).filterMap fun model =>
    let byId := validProviders.reverse.find? fun provider => provider.id = model.providerId
    let found :=
      match byId with
      | some provider => some provider
      | none =>
        if model.provider = "" then none
        else validProviders.reverse.find? fun provider => provider.name = model.provider
    found.map fun provider => { provider, model }

/-- Candidates that survive a stage, or the end of the call; and the engines. -/
abbrev Consultation := Except Failure (List Candidate) × Engines

variable (candidates : List Candidate)

def nonempty (reason : String) : Except Failure (List Candidate) :=
  if candidates = [] then .error (.failed reason) else .ok candidates

/-- The budget engine evaluates all candidates at once and holds a reservation for each one
it approves. -/
def consultBudget (times : RouteTimes) (request : RoutingRequest) (engines : Engines)
    (candidates : List Candidate) : Consultation :=
  match engines.budgetEngine with
  | none => (.ok candidates, engines)
  | some budget =>
    let (decision, budget) := budget.evaluate times.budget times.budgetEvaluationMs
      (candidates.map fun candidate => (candidate.provider, candidate.model)) request
    let engines := { engines with budgetEngine := some budget }
    if decision.approved then
      if decision.filteredCandidates = [] then (.ok candidates, engines)
      else
        (nonempty
          (candidates.filter fun candidate => candidate.name ∉ decision.filteredCandidates)
          "All candidates excluded by budget policies", engines)
    else (.error (.failed ("Budget exceeded: " ++ decision.reason)), engines)

def permitRequest (candidate : Candidate) : RateLimiterEngineImpl.PermitRequest where
  provider := candidate.provider.name
  model := candidate.model.modelId
  scopeId := if request.workspace = "" then request.userId else request.workspace

/-- The loop over the candidates at the rate limiter. A candidate that is neither approved nor
queued is removed. -/
def limitCandidates (request : RoutingRequest) :
    (Nat → Instant) → RateLimiterEngineImpl → List Candidate → List Candidate →
      Except Failure (List Candidate) × RateLimiterEngineImpl
  | _, limiter, [], remaining => (.ok remaining, limiter)
  | times, limiter, candidate :: rest, remaining =>
    match limiter.evaluate (times 0) (permitRequest request candidate) with
    | (.error error, limiter) => (.error (.raised error), limiter)
    | (.ok decision, limiter) =>
      limitCandidates request (fun index => times (index + 1)) limiter rest
        (if decision.approved || decision.queued then remaining
        else remaining.erase candidate)

def consultRateLimiter (times : RouteTimes) (request : RoutingRequest) (engines : Engines)
    (candidates : List Candidate) : Consultation :=
  match engines.rateLimiter with
  | none => (.ok candidates, engines)
  | some limiter =>
    let (result, limiter) :=
      limitCandidates request times.rateLimiter limiter candidates candidates
    (result.bind fun remaining => nonempty remaining "All candidates excluded by rate limiter",
      { engines with rateLimiter := some limiter })

/-- The request to the scheduler for a candidate. Models carry no priority and no cost of
their own, and requests no deadline. -/
def scheduleRequest (candidate : Candidate) : ScheduleRequest where
  provider := candidate.provider.name
  model := candidate.model.modelId
  queueAffinity := some candidate.provider.name

def scheduleCandidates :
    (Nat → Instant) → SchedulerEngineImpl → List Candidate → List Candidate →
      List Candidate × SchedulerEngineImpl
  | _, scheduler, [], remaining => (remaining, scheduler)
  | times, scheduler, candidate :: rest, remaining =>
    let (decision, scheduler) := scheduler.schedule (times 0) (scheduleRequest candidate)
    scheduleCandidates (fun index => times (index + 1)) scheduler rest
      (if decision.queued then remaining else remaining.erase candidate)

def consultScheduler (times : RouteTimes) (engines : Engines) (candidates : List Candidate) :
    Consultation :=
  match engines.scheduler with
  | none => (.ok candidates, engines)
  | some scheduler =>
    let (remaining, scheduler) :=
      scheduleCandidates times.scheduler scheduler candidates candidates
    (nonempty remaining "All candidates excluded by scheduler",
      { engines with scheduler := some scheduler })

def filterCircuitBreaker :
    (Nat → Timestamp) → CircuitBreakerEngineImpl → List Candidate →
      List Candidate × CircuitBreakerEngineImpl
  | _, breaker, [] => ([], breaker)
  | times, breaker, candidate :: rest =>
    let (allowed, breaker) := breaker.allowRequest (times 0) candidate.provider.name
    let (filtered, breaker) := filterCircuitBreaker (fun index => times (index + 1)) breaker rest
    (if allowed then candidate :: filtered else filtered, breaker)

/-- The circuit breaker is asked about the provider of each candidate. -/
def consultCircuitBreaker (times : RouteTimes) (engines : Engines)
    (candidates : List Candidate) : Consultation :=
  match engines.circuitBreaker with
  | none => (.ok candidates, engines)
  | some breaker =>
    let (filtered, breaker) := filterCircuitBreaker times.circuitBreaker breaker candidates
    (nonempty filtered "All candidates excluded by circuit breaker",
      { engines with circuitBreaker := some breaker })

/-- Go on with the next stage where candidates are left. -/
def andThen (stage : Engines → List Candidate → Consultation) :
    Consultation → Consultation
  | (.error failure, engines) => (.error failure, engines)
  | (.ok candidates, engines) => stage engines candidates

/-- Consult the four engines in their order. -/
def consult (times : RouteTimes) (request : RoutingRequest) (engines : Engines)
    (candidates : List Candidate) : Consultation :=
  andThen (consultCircuitBreaker times) <|
    andThen (consultScheduler times) <|
      andThen (consultRateLimiter times request) <| consultBudget times request engines candidates

/-! ## Filters -/

/-- The learning engine unpacks every candidate as a pair, which candidates are not: a
started one raises on the first. -/
def enrich : Except Failure Unit :=
  if router.adaptiveLearningEngine = some true ∧ candidates ≠ [] then
    .error (.raised "cannot unpack non-iterable _Candidate object")
  else .ok ()

/-- The capabilities of a candidate meet the required ones. One common capability is
enough. -/
def offersCapability (candidate : Candidate) : Bool :=
  request.requiredCapabilities.any fun required =>
    candidate.model.capabilities.any fun offered => router.lower required = router.lower offered

def filterCapabilities (candidates : List Candidate) : List Candidate :=
  let capable :=
    if request.requiredCapabilities = [] then candidates
    else candidates.filter (router.offersCapability request)
  let streaming :=
    if request.streamingRequired then
      capable.filter fun candidate => candidate.model.supportsStreaming
    else capable
  let vision :=
    if request.visionRequired then
      streaming.filter fun candidate => candidate.model.supportsVision
    else streaming
  let reasoning :=
    if request.reasoningRequired then
      vision.filter fun candidate => candidate.model.supportsReasoning
    else vision
  if request.toolsRequired then
    reasoning.filter fun candidate => candidate.model.supportsTools
  else reasoning

def filterContext : List Candidate :=
  if request.minimumContext ≤ 0 then candidates
  else candidates.filter fun candidate => request.minimumContext ≤ candidate.model.contextWindow

def filterBudget : List Candidate :=
  if request.budgetLimit ≤ 0 then candidates
  else
    candidates.filter fun candidate =>
      candidate.model.inputCostPer1k + candidate.model.outputCostPer1k ≤ request.budgetLimit

def filterLatency : List Candidate :=
  if request.maxLatencyMs ≤ 0 then candidates
  else
    candidates.filter fun candidate =>
      max candidate.provider.latencyMs candidate.model.latencyMs ≤ request.maxLatencyMs

/-- The stages between the engines and the selection. -/
def applyConstraints
    (candidates : List Candidate) : Except Failure (List Candidate) := do
  router.enrich candidates
  let capable ← nonempty (router.filterCapabilities request candidates)
    "No candidates match required capabilities"
  nonempty (filterLatency request (filterBudget request (filterContext request capable)))
    "No candidates pass budget/latency constraints"

variable (provider : OmniRouteProvider)

def scoreCost (model : OmniRouteModel) : ℚ :=
  let totalCost := provider.costPer1kInput + provider.costPer1kOutput +
    (model.inputCostPer1k + model.outputCostPer1k)
  if totalCost ≤ 0 then 1
  else roundTo 4 (max 0 (1 - router.log1p totalCost / router.log1p 10))

def scoreLatency (model : OmniRouteModel) : ℚ :=
  let combined := max provider.latencyMs model.latencyMs
  if combined ≤ 0 then 1
  else
    let maxLatency := if request.maxLatencyMs = 0 then 5000 else request.maxLatencyMs
    roundTo 4 (max 0 (min 1 (1 - combined / maxLatency)))

def scoreHealth (model : OmniRouteModel) : ℚ :=
  if provider.healthy ∧ model.healthy then 1
  else if provider.healthy ∨ model.healthy then 1 / 2
  else 0

def scoreReliability : ℚ :=
  if ¬ provider.enabled then 0
  else if provider.healthy then 1
  else 3 / 10

def scoreContext (model : OmniRouteModel) : ℚ :=
  if model.contextWindow ≤ 0 then 0
  else roundTo 4 (min 1 (router.log1p model.contextWindow / router.log1p 1000000))

def scorePreference (model : OmniRouteModel) : ℚ :=
  let preferredProvider : ℚ :=
    if request.preferredProvider ≠ "" ∧ (provider.name = request.preferredProvider ∨
        provider.id = request.preferredProvider) then 1 / 2
    else 0
  let preferredModel : ℚ :=
    if request.preferredModel ≠ "" ∧ (model.modelId = request.preferredModel ∨
        model.displayName = request.preferredModel) then 1 / 2
    else 0
  roundTo 4 (min 1 (preferredProvider + preferredModel))

def scoreCandidate (provider : OmniRouteProvider) (model : OmniRouteModel) : RoutingScore :=
  let quality := min (max model.qualityScore 0) 1
  let cost := router.scoreCost provider model
  let latency := scoreLatency request provider model
  let health := scoreHealth provider model
  let reliability := scoreReliability provider
  let context := router.scoreContext model
  let preference := scorePreference request provider model
  let weights := request.qualityWeight + request.costWeight + request.latencyWeight + 1 + 1 / 2 +
    3 / 10 + 1 / 2
  let totalWeight := if weights ≤ 0 then 1 else weights
  let weightedTotal :=
    (quality * request.qualityWeight + cost * request.costWeight +
      latency * request.latencyWeight + health * 1 + reliability * (1 / 2) +
      context * (3 / 10) + preference * (1 / 2)) / totalWeight
  { qualityScore := roundTo 4 quality
    costScore := roundTo 4 cost
    latencyScore := roundTo 4 latency
    healthScore := roundTo 4 health
    reliabilityScore := roundTo 4 reliability
    contextScore := roundTo 4 context
    preferenceScore := roundTo 4 preference
    weightedTotal := roundTo 4 weightedTotal
    candidateCount := 1 }

/-- The candidates that the policy engine has scored, found again by provider name and
model id. Where several have these, the first is taken. -/
def rejoin (result : PolicyResult) : List Candidate :=
  result.scoredCandidates.filterMap fun (provider, modelId, _, score) =>
    (candidates.find? fun candidate =>
        candidate.provider.name = provider ∧ candidate.model.modelId = modelId).map
      fun candidate =>
        { provider := candidate.provider
          model := candidate.model
          score :=
            { qualityScore := score
              costScore := score
              latencyScore := score
              healthScore := score
              reliabilityScore := score
              contextScore := score
              preferenceScore := score
              weightedTotal := score
              candidateCount := result.scoredCandidates.length }
          weightedTotal := score }

def scoreAll (candidates : List Candidate) : List Candidate :=
  (candidates.insertionSort fun left right =>
      right.model.qualityScore ≤ left.model.qualityScore).map fun candidate =>
    let score := router.scoreCandidate request candidate.provider candidate.model
    { provider := candidate.provider
      model := candidate.model
      score
      weightedTotal := score.weightedTotal }

/-- Order scored candidates by their totals, and number them. -/
def rankScored (scored : List Candidate) : List Candidate :=
  (scored.insertionSort fun left right => right.weightedTotal ≤ left.weightedTotal).mapIdx
    fun index candidate =>
      { candidate with
        rank := index + 1
        score := { candidate.score with candidateCount := scored.length, rank := index + 1 } }

def fallbackEntry (candidate : Candidate) : String × String × String :=
  (candidate.provider.name, candidate.provider.id, candidate.model.modelId)

def generateFallback (ranked : List Candidate) (chainLength : Nat) :
    List (String × String × String) :=
  ((ranked.filter fun candidate => 0 < candidate.weightedTotal).take chainLength).map fallbackEntry

def decide (best : Candidate) (ranked : List Candidate)
    (reason policyUsed : String) (cost latency : ℚ) : RoutingDecision where
  requestId := request.requestId
  provider := best.provider.name
  providerId := best.provider.id
  model := if best.model.displayName = "" then best.model.modelId else best.model.displayName
  modelId := best.model.modelId
  score := best.score
  reason := reason
  fallbackChain := generateFallback ranked 5
  estimatedCost := roundTo 6 cost
  estimatedLatencyMs := roundTo 2 latency
  confidence := roundTo 4 best.score.weightedTotal
  policyUsed := policyUsed
  alternativesRejected := ranked.length - 1

def selectByPolicy (result : PolicyResult) : Except Failure RoutingDecision :=
  if result.selectedModelId = "" then
    .error (.failed
      (if result.reason = "" then "Policy engine returned no selection" else result.reason))
  else
    let ranked := rankScored (rejoin candidates result)
    match ranked with
    | [] => .error (.failed "Policy engine scored zero candidates")
    | best :: _ =>
      .ok (decide request best ranked
        (if result.reason = "" then
          "Selected " ++ best.name ++ " via " ++ result.strategy
        else result.reason)
        (if result.strategy = "" then "policy_engine" else result.strategy)
        (if result.selectedCost = 0 then
          best.model.inputCostPer1k + best.model.outputCostPer1k
        else result.selectedCost)
        (if result.selectedLatencyMs = 0 then
          max best.provider.latencyMs best.model.latencyMs
        else result.selectedLatencyMs))

def selectByScore (candidates : List Candidate) : Except Failure RoutingDecision :=
  let ranked := rankScored (router.scoreAll request candidates)
  match ranked with
  | [] => .error (.failed "All candidates scored zero")
  | best :: _ =>
    .ok (decide request best ranked
      ("Selected " ++ best.name ++ " (score=" ++ fixed 3 best.score.weightedTotal ++ ")")
      "weighted" (best.model.inputCostPer1k + best.model.outputCostPer1k)
      (max best.provider.latencyMs best.model.latencyMs))

def select (candidates : List Candidate) : Except Failure RoutingDecision :=
  match router.routingPolicyEngine with
  | some evaluate =>
    selectByPolicy request candidates
      (evaluate (candidates.map fun candidate => (candidate.provider, candidate.model)) request)
  | none => router.selectByScore request candidates

/-- The candidates of a request before any engine is consulted. -/
def findCandidates : Except Failure (List Candidate) :=
  let (providers, models) := router.queryRegistries request
  if providers = [] ∨ models = [] then .error (.failed "No providers or models available")
  else
    nonempty (filterUnhealthyDisabled providers models) "All providers/models unhealthy or disabled"

/-- The outcome of a call that ends early; an exception reaches the caller. -/
def conclude :
    Except Failure RoutingDecision → Except String RoutingDecision
  | .ok decision => .ok decision
  | .error (.failed reason) => .ok { requestId := request.requestId, status := .failed, reason }
  | .error (.raised error) => .error error

def route (times : RouteTimes) (engines : Engines)
    (request : RoutingRequest) : Except String RoutingDecision × Engines :=
  if ¬ router.started then
    (conclude request (.error (.failed "Router engine not started")), engines)
  else if validateRequest request ≠ [] then
    (.ok
      { requestId := request.requestId
        status := .rejected
        reason := "; ".intercalate (validateRequest request) }, engines)
  else
    match router.findCandidates request with
    | .error failure => (conclude request (.error failure), engines)
    | .ok candidates =>
      let (result, engines) := consult times request engines candidates
      (conclude request (do
        let remaining ← result
        let eligible ← router.applyConstraints request remaining
        router.select request eligible), engines)

end RouterEngineImpl

end AgenticOS.OmniRoute
