import AgenticOS.OmniRoute.Domain

/-!
# Cost prediction and usage tracking

The two helpers of the budget engine. The predictor turns a candidate into an
estimated cost; the tracker accumulates, for each policy, the spend recorded by
commits and the amount held by active reservations.

A routing request carries no token estimates of its own, so the predictor's
`getattr` defaults always apply and the token counts depend on the request's
feature flags only.
-/

namespace AgenticOS.OmniRoute

/-- The estimated cost of a provider and model handling a request. -/
structure CostEstimate where
  estimatedCost : ℚ := 0
  maxCost : ℚ := 0
  expectedCost : ℚ := 0
  inputCost : ℚ := 0
  outputCost : ℚ := 0
  reasoningCost : ℚ := 0
  visionCost : ℚ := 0
  toolCost : ℚ := 0
  cacheSavings : ℚ := 0
  streamingDiscount : ℚ := 0

namespace CostPredictor

def defaultInputTokens : ℚ := 500
def defaultOutputTokens : ℚ := 200
def reasoningMultiplier : ℚ := 3 / 2
def visionImageTokens : ℚ := 258
def toolCallOverhead : ℚ := 100
def streamingDiscountFactor : ℚ := 17 / 20
def cacheHitRatio : ℚ := 3 / 10
def cacheDiscount : ℚ := 1 / 2

def estimateInputTokens (_request : RoutingRequest) : ℚ :=
  max 0 defaultInputTokens

def estimateOutputTokens (_request : RoutingRequest) : ℚ :=
  max 0 defaultOutputTokens

/-- `int` truncates towards zero; the product is not negative. -/
def estimateReasoningTokens (request : RoutingRequest) : ℚ :=
  if request.reasoningRequired then
    ⌊estimateOutputTokens request * (reasoningMultiplier - 1)⌋
  else 0

def estimateVisionTokens (request : RoutingRequest) : ℚ :=
  if request.visionRequired then max 1 1 * visionImageTokens else 0

def estimateToolTokens (request : RoutingRequest) : ℚ :=
  if request.toolsRequired then max 2 1 * toolCallOverhead else 0

def estimate (_provider : OmniRouteProvider) (model : OmniRouteModel)
    (request : RoutingRequest) : CostEstimate :=
  let inputTokens := estimateInputTokens request
  let inputCost := inputTokens / 1000 * model.inputCostPer1k
  let outputCost := estimateOutputTokens request / 1000 * model.outputCostPer1k
  let reasoningCost := estimateReasoningTokens request / 1000 * model.outputCostPer1k
  let visionCost := estimateVisionTokens request / 1000 * model.inputCostPer1k
  let toolCost := estimateToolTokens request / 1000 * model.inputCostPer1k
  let cacheInput := inputTokens * cacheHitRatio
  let cacheSavings := cacheInput / 1000 * model.inputCostPer1k * cacheDiscount
  let streamingDiscount :=
    if request.streamingRequired && model.supportsStreaming then
      (outputCost + reasoningCost) * (1 - streamingDiscountFactor)
    else 0
  let sum := inputCost + outputCost + reasoningCost + visionCost + toolCost
  let totalEstimated := sum - (cacheSavings + streamingDiscount)
  { estimatedCost := max 0 totalEstimated
    maxCost := sum
    expectedCost := max 0 totalEstimated
    inputCost, outputCost, reasoningCost, visionCost, toolCost
    cacheSavings, streamingDiscount }

theorem estimatedCost_nonneg (provider : OmniRouteProvider) (model : OmniRouteModel)
    (request : RoutingRequest) : 0 ≤ (estimate provider model request).estimatedCost :=
  le_max_left _ _

end CostPredictor

/-- Accumulated spend per policy, and the log of every recorded spend. -/
structure UsageTracker where
  usage : Dict String BudgetUsage
  spendLog : List (String × ℚ × Timestamp)

namespace UsageTracker

/-- The tracker of a fresh engine. -/
def init : UsageTracker :=
  ⟨Dict.empty, []⟩

variable (tracker : UsageTracker)

/-- The usage of a policy, all zero where nothing was recorded yet. -/
def getUsage (now : Timestamp) (policyId : String) : BudgetUsage :=
  (tracker.usage.get? policyId).getD { policyId, lastUpdated := now }

/-- `if key: spend[key] = spend.get(key, 0.0) + amount`. -/
def addSpend (spend : Dict String ℚ) (key : String) (amount : ℚ) : Dict String ℚ :=
  if key = "" then spend else spend.set key ((spend.get? key).getD 0 + amount)

/-- Record a spend against a policy. The daily and the monthly figures restart when
the last update lies on an earlier day or in another month. -/
def recordSpend (clock : Clock) (policyId : String) (amount : ℚ)
    (provider model : String) : UsageTracker :=
  let updated : BudgetUsage :=
    match tracker.usage.get? policyId with
    | some existing =>
      let lastDay := existing.lastUpdated.date
      let newDay := lastDay < clock.today
      let newMonth := lastDay.yearMonth ≠ clock.today.yearMonth
      let daily := if newDay then 0 else existing.dailySpent
      let dailyCount := if newDay then 0 else existing.dailyRequestCount
      let monthly := if newMonth then 0 else existing.monthlySpent
      let monthlyCount := if newMonth then 0 else existing.monthlyRequestCount
      { policyId := existing.policyId
        totalSpent := existing.totalSpent + amount
        dailySpent := daily + amount
        monthlySpent := monthly + amount
        requestCount := existing.requestCount + 1
        dailyRequestCount := dailyCount + 1
        monthlyRequestCount := monthlyCount + 1
        providerSpend := addSpend existing.providerSpend provider amount
        modelSpend := addSpend existing.modelSpend model amount
        activeReservations := existing.activeReservations
        lastUpdated := clock.now }
    | none =>
      { policyId
        totalSpent := amount
        dailySpent := amount
        monthlySpent := amount
        requestCount := 1
        dailyRequestCount := 1
        monthlyRequestCount := 1
        providerSpend := addSpend Dict.empty provider amount
        modelSpend := addSpend Dict.empty model amount
        lastUpdated := clock.now }
  { usage := tracker.usage.set policyId updated
    spendLog := tracker.spendLog ++ [(policyId, amount, clock.now)] }

def addReservation (now : Timestamp) (policyId : String) (amount : ℚ) : UsageTracker :=
  let usage := tracker.getUsage now policyId
  { tracker with
    usage := tracker.usage.set policyId
      { usage with activeReservations := usage.activeReservations + amount } }

/-- Give back an amount held, unless nothing is held at all. -/
def removeReservation (now : Timestamp) (policyId : String) (amount : ℚ) : UsageTracker :=
  let usage := tracker.getUsage now policyId
  if 0 < usage.activeReservations then
    { tracker with
      usage := tracker.usage.set policyId
        { usage with activeReservations := usage.activeReservations - amount } }
  else tracker

/-- The spend recorded against a policy so far. -/
def totalSpent (policyId : String) : ℚ :=
  ((tracker.usage.get? policyId).map BudgetUsage.totalSpent).getD 0

def activeReservations (policyId : String) : ℚ :=
  ((tracker.usage.get? policyId).map BudgetUsage.activeReservations).getD 0

variable (tracker : UsageTracker) (clock : Clock) (now : Timestamp) (policyId : String)

@[simp]
theorem totalSpent_init : init.totalSpent policyId = 0 :=
  rfl

@[simp]
theorem activeReservations_init : init.activeReservations policyId = 0 :=
  rfl

@[simp]
theorem getUsage_totalSpent :
    (tracker.getUsage now policyId).totalSpent = tracker.totalSpent policyId := by
  rw [getUsage, totalSpent]
  cases tracker.usage.get? policyId <;> rfl

@[simp]
theorem getUsage_activeReservations : (tracker.getUsage now policyId).activeReservations =
      tracker.activeReservations policyId := by
  rw [getUsage, activeReservations]
  cases tracker.usage.get? policyId <;> rfl

variable (amount : ℚ) (provider model other : String)

theorem totalSpent_recordSpend :
    (tracker.recordSpend clock policyId amount provider model).totalSpent other =
      tracker.totalSpent other + if other = policyId then amount else 0 := by
  unfold totalSpent recordSpend
  rw [Dict.get?_set]
  by_cases same : other = policyId
  · subst same
    cases tracker.usage.get? other <;> simp
  · simp [same]

@[simp]
theorem activeReservations_recordSpend :
    (tracker.recordSpend clock policyId amount provider model).activeReservations other =
      tracker.activeReservations other := by
  unfold activeReservations recordSpend
  rw [Dict.get?_set]
  by_cases same : other = policyId
  · subst same
    cases tracker.usage.get? other <;> simp
  · simp [same]

@[simp]
theorem totalSpent_addReservation : (tracker.addReservation now policyId amount).totalSpent other =
      tracker.totalSpent other := by
  rw [addReservation]
  by_cases same : other = policyId
  · subst same
    simp [totalSpent]
  · simp [totalSpent, Dict.get?_set_ne _ same]

theorem activeReservations_addReservation :
    (tracker.addReservation now policyId amount).activeReservations other =
      tracker.activeReservations other + if other = policyId then amount else 0 := by
  rw [addReservation]
  by_cases same : other = policyId
  · subst same
    simp [activeReservations]
  · simp [activeReservations, Dict.get?_set_ne _ same, same]

@[simp]
theorem totalSpent_removeReservation :
    (tracker.removeReservation now policyId amount).totalSpent other =
      tracker.totalSpent other := by
  unfold removeReservation
  dsimp only
  split
  · by_cases same : other = policyId
    · subst same
      simp [totalSpent]
    · simp [totalSpent, Dict.get?_set_ne _ same]
  · rfl

theorem activeReservations_removeReservation :
    (tracker.removeReservation now policyId amount).activeReservations other =
      tracker.activeReservations other -
        if other = policyId ∧ 0 < tracker.activeReservations policyId then amount else 0 := by
  rw [removeReservation]
  simp only [getUsage_activeReservations]
  by_cases held : 0 < tracker.activeReservations policyId
  · rw [if_pos held]
    by_cases same : other = policyId
    · subst same
      simp only [held, and_self, if_true]
      simp [activeReservations]
    · simp [activeReservations, Dict.get?_set_ne _ same, same]
  · simp [held]

@[simp]
theorem spendLog_recordSpend : (tracker.recordSpend clock policyId amount provider model).spendLog =
      tracker.spendLog ++ [(policyId, amount, clock.now)] :=
  rfl

@[simp]
theorem spendLog_addReservation :
    (tracker.addReservation now policyId amount).spendLog = tracker.spendLog :=
  rfl

@[simp]
theorem spendLog_removeReservation :
    (tracker.removeReservation now policyId amount).spendLog = tracker.spendLog := by
  unfold removeReservation
  dsimp only
  split
  · rfl
  · rfl

end UsageTracker

end AgenticOS.OmniRoute
