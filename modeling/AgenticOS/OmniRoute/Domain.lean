import AgenticOS.Data.Clock
import AgenticOS.Data.Dict

/-!
# OmniRoute entities

The records that the OmniRoute engines exchange: providers, models, the routing
request, and the budget entities. Fields keep the names and the defaults of the
domain module; fields that none of the modelled engines reads are left out.
Amounts, latencies and scores are exact rationals, context windows are integers.
-/

namespace AgenticOS.OmniRoute

/-- The least integer without a float next to it: from here on, rounding overflows. -/
def floatOverflow : ℤ := 2 ^ 1024 - 2 ^ 970

structure OmniRouteProvider where
  id : String
  name : String := ""
  kind : String := ""
  enabled : Bool := true
  latencyMs : ℚ := 0
  costPer1kInput : ℚ := 0
  costPer1kOutput : ℚ := 0
  healthy : Bool := false
  deriving DecidableEq

structure OmniRouteModel where
  id : String := ""
  modelId : String := ""
  provider : String := ""
  providerId : String := ""
  displayName : String := ""
  contextWindow : ℤ := 0
  inputCostPer1k : ℚ := 0
  outputCostPer1k : ℚ := 0
  capabilities : List String := []
  supportsStreaming : Bool := true
  supportsReasoning : Bool := false
  supportsVision : Bool := false
  supportsTools : Bool := false
  latencyMs : ℚ := 0
  qualityScore : ℚ := 1 / 2
  healthy : Bool := false
  enabled : Bool := true
  deriving DecidableEq

structure RoutingRequest where
  requestId : String
  taskType : String := "chat"
  requiredCapabilities : List String := []
  preferredProvider : String := ""
  preferredModel : String := ""
  budgetLimit : ℚ := 0
  maxLatencyMs : ℚ := 0
  qualityWeight : ℚ := 1
  costWeight : ℚ := 1
  latencyWeight : ℚ := 1
  streamingRequired : Bool := false
  visionRequired : Bool := false
  reasoningRequired : Bool := false
  toolsRequired : Bool := false
  minimumContext : ℤ := 0
  workspace : String := ""
  organization : String := ""
  agent : String := ""
  userId : String := ""
  missionId : String := ""

/-- The priority of a request, highest first. -/
inductive PriorityLevel
  | critical | high | normal | low | bulk | background
  deriving DecidableEq

/-- The levels in the order of the enumeration. -/
def PriorityLevel.all : List PriorityLevel :=
  [.critical, .high, .normal, .low, .bulk, .background]

theorem PriorityLevel.mem_all (level : PriorityLevel) : level ∈ all := by
  cases level <;> decide

inductive BudgetScope
  | «global» | organization | workspace | agent | user | session | request | provider | model
  deriving DecidableEq

def BudgetScope.value : BudgetScope → String
  | .global => "global"
  | .organization => "organization"
  | .workspace => "workspace"
  | .agent => "agent"
  | .user => "user"
  | .session => "session"
  | .request => "request"
  | .provider => "provider"
  | .model => "model"

structure BudgetPolicy where
  id : String
  scope : BudgetScope := .global
  scopeId : String := ""
  enabled : Bool := true
  priority : ℤ := 0
  maxSpendTotal : ℚ := 0
  maxSpendDaily : ℚ := 0
  maxSpendMonthly : ℚ := 0
  maxSpendPerRequest : ℚ := 0
  softLimit : ℚ := 0
  hardLimit : ℚ := 0
  warningThreshold : ℚ := 4 / 5
  deriving DecidableEq

/-- Reservation ids are drawn from a counter instead of `uuid4`: like those, they
never repeat. -/
abbrev ReservationId := Nat

structure BudgetReservation where
  id : ReservationId
  policyId : String := ""
  scope : BudgetScope := .global
  scopeId : String := ""
  provider : String := ""
  model : String := ""
  estimatedCost : ℚ := 0
  maxCost : ℚ := 0
  timestamp : Timestamp
  expiresAt : Option Timestamp := none
  committed : Bool := false
  rolledBack : Bool := false
  released : Bool := false

structure BudgetUsage where
  policyId : String := ""
  totalSpent : ℚ := 0
  dailySpent : ℚ := 0
  monthlySpent : ℚ := 0
  requestCount : Nat := 0
  dailyRequestCount : Nat := 0
  monthlyRequestCount : Nat := 0
  providerSpend : Dict String ℚ := Dict.empty
  modelSpend : Dict String ℚ := Dict.empty
  activeReservations : ℚ := 0
  lastUpdated : Timestamp

/-- The result of evaluating one candidate. The remaining budget is `⊤` where no
policy has a total limit. -/
structure BudgetResult where
  approved : Bool := false
  rejected : Bool := false
  reason : String := ""
  estimatedCost : ℚ := 0
  maxCost : ℚ := 0
  remainingBudget : WithTop ℚ := 0
  reservationId : Option ReservationId := none
  effectivePolicyId : String := ""
  effectiveScope : BudgetScope := .global
  warnings : List String := []
  overridesApplied : List String := []

structure BudgetStatistics where
  totalEvaluations : Nat := 0
  approvals : Nat := 0
  rejections : Nat := 0
  reservationCount : Nat := 0
  activeReservations : Nat := 0
  commits : Nat := 0
  rollbacks : Nat := 0
  averageEvaluationTimeMs : ℚ := 0
  costSaved : ℚ := 0
  providerSpend : Dict String ℚ := Dict.empty
  modelSpend : Dict String ℚ := Dict.empty
  limitHits : Dict String Nat := Dict.empty
  warningsIssued : Nat := 0

structure BudgetOverride where
  id : String
  policyId : String := ""
  overriddenLimits : Dict String ℚ := Dict.empty
  expiresAt : Option Timestamp := none

structure BudgetDecision where
  approved : Bool := false
  rejected : Bool := false
  reason : String := ""
  filteredCandidates : List String := []
  results : List BudgetResult := []
  reservations : List ReservationId := []
  evaluationTimeMs : ℚ := 0
  emergencyMode : Bool := false

end AgenticOS.OmniRoute
