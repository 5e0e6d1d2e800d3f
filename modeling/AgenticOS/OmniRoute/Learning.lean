import AgenticOS.Data.Clock
import AgenticOS.Data.Dict

/-!
# The learning engine

The engine keeps moving averages and trend detectors for each provider, which an observation
updates. From them it builds reputations, predictions, trends and scores when it is asked. A
trend is built by an update of the detectors, with the averages as they are.
-/

namespace AgenticOS.OmniRoute

open Decimal

/-- The functions of `math` that the engine uses. -/
structure MathFunctions where
  sqrt : ℚ → ℚ
  exp : ℚ → ℚ

inductive TrendDirection
  | improving | stable | degrading | rapidDegradation | recovery | oscillation | unknown
  deriving DecidableEq

/-- The outcome of a request. -/
structure LearningRecord where
  provider : String := ""
  model : String := ""
  success : Bool := false
  failure : Bool := false
  retry : Bool := false
  fallback : Bool := false
  latencyMs : ℚ := 0
  cost : ℚ := 0
  timestamp : Timestamp := 0
  deriving DecidableEq

structure AdaptiveWeights where
  quality : ℚ := 25 / 100
  latency : ℚ := 20 / 100
  cost : ℚ := 20 / 100
  reliability : ℚ := 15 / 100
  availability : ℚ := 10 / 100
  recovery : ℚ := 5 / 100
  budgetEfficiency : ℚ := 5 / 100

structure LatencyTrend where
  current : ℚ := 0
  ewma : ℚ := 0
  min : ℚ := 0
  max : ℚ := 0
  variance : ℚ := 0
  sampleCount : ℕ := 0
  direction : TrendDirection := .unknown
  deriving DecidableEq

structure CostTrend where
  current : ℚ := 0
  ewma : ℚ := 0
  min : ℚ := 0
  max : ℚ := 0
  variance : ℚ := 0
  sampleCount : ℕ := 0
  direction : TrendDirection := .unknown
  deriving DecidableEq

structure SuccessTrend where
  current : ℚ := 0
  ewma : ℚ := 0
  direction : TrendDirection := .unknown
  deriving DecidableEq

structure FailureTrend where
  current : ℚ := 0
  ewma : ℚ := 0
  direction : TrendDirection := .unknown
  deriving DecidableEq

structure ProviderTrend where
  latency : LatencyTrend := {}
  cost : CostTrend := {}
  success : SuccessTrend := {}
  failure : FailureTrend := {}
  overall : TrendDirection := .unknown
  deriving DecidableEq

structure ConfidenceScore where
  score : ℚ := 0
  sampleCount : ℕ := 0
  variance : ℚ := 0
  predictionError : ℚ := 0
  calibration : ℚ := 1
  deriving DecidableEq

structure PredictionResult where
  expectedLatencyMs : ℚ := 0
  expectedCost : ℚ := 0
  expectedSuccessProbability : ℚ := 0
  expectedFailureProbability : ℚ := 0
  expectedRetryProbability : ℚ := 0
  expectedAvailability : ℚ := 0
  confidence : ConfidenceScore := {}
  predictionHorizon : String := "short_term"
  deriving DecidableEq

structure AdaptiveScore where
  rawScore : ℚ := 0
  normalizedScore : ℚ := 0
  qualityComponent : ℚ := 0
  latencyComponent : ℚ := 0
  costComponent : ℚ := 0
  reliabilityComponent : ℚ := 0
  availabilityComponent : ℚ := 0
  recoveryComponent : ℚ := 0
  budgetEfficiency : ℚ := 0
  confidence : ConfidenceScore := {}
  trend : TrendDirection := .unknown
  deriving DecidableEq

structure ReputationScore where
  successCount : ℕ := 0
  failureCount : ℕ := 0
  totalAttempts : ℕ := 0
  successRate : ℚ := 0
  failureRate : ℚ := 0
  latencyScore : ℚ := 0
  costScore : ℚ := 0
  availability : ℚ := 0
  stability : ℚ := 0
  confidence : ℚ := 0
  quality : ℚ := 0
  trend : TrendDirection := .unknown
  sampleSize : ℕ := 0
  deriving DecidableEq

structure ProviderReputation where
  provider : String := ""
  reputation : ReputationScore := {}
  adaptiveScore : AdaptiveScore := {}
  trend : ProviderTrend := {}
  predictions : PredictionResult := {}
  deriving DecidableEq

structure ModelReputation where
  provider : String := ""
  model : String := ""
  reputation : ReputationScore := {}
  adaptiveScore : AdaptiveScore := {}
  trend : ProviderTrend := {}
  predictions : PredictionResult := {}
  deriving DecidableEq

structure LearningStatistics where
  totalObservations : ℕ := 0
  totalSuccesses : ℕ := 0
  totalFailures : ℕ := 0
  totalRetries : ℕ := 0
  totalFallbacks : ℕ := 0
  providerCount : ℕ := 0
  modelCount : ℕ := 0
  averageLatencyMs : ℚ := 0
  averageCost : ℚ := 0
  averageConfidence : ℚ := 0
  predictionAccuracy : ℚ := 0
  alertsTriggered : ℕ := 0
  anomaliesDetected : ℕ := 0
  lastObservation : Option Timestamp := none
  deriving DecidableEq

structure LearningForecast where
  providerForecast : List (String × PredictionResult) := []
  globalLatencyTrend : LatencyTrend := {}
  globalCostTrend : CostTrend := {}
  globalSuccessRate : ℚ := 0
  confidence : ConfidenceScore := {}
  atRiskProviders : List String := []
  deriving DecidableEq

structure LearningSnapshot where
  providerReputations : List ProviderReputation := []
  modelReputations : List ModelReputation := []
  statistics : LearningStatistics := {}
  recentRecords : List LearningRecord := []
  deriving DecidableEq

structure LearningDecision where
  enrichedCandidates : List (String × String × AdaptiveScore) := []
  predictions : List (String × PredictionResult) := []
  observationsCount : ℕ := 0
  deriving DecidableEq

namespace BayesianEstimator

/-- The mean and the standard deviation of the posterior, with the prior `Beta(1, 1)`. -/
def estimate (math : MathFunctions) (successCount failureCount : ℕ) : ℚ × ℚ :=
  let a : ℚ := 1 + successCount
  let b : ℚ := 1 + failureCount
  let n := a + b
  (a / n, math.sqrt (a * b / (n * n * (n + 1))))

/-- The interval around the mean; `1.96` standard deviations are 95 percent. -/
def credibleInterval (math : MathFunctions) (successCount failureCount : ℕ) : ℚ × ℚ :=
  let (mean, std) := estimate math successCount failureCount
  (max 0 (mean - 196 / 100 * std), min 1 (mean + 196 / 100 * std))

/-- The lower bound of the interval, scaled down for few samples. -/
def reliabilityScore (math : MathFunctions) (successCount failureCount : ℕ) : ℚ :=
  let lower := (credibleInterval math successCount failureCount).1
  let n := successCount + failureCount
  if n < 5 then lower * (n / 5) else lower

end BayesianEstimator

/-- An exponentially weighted moving average. -/
structure Ewma where
  alpha : ℚ := 3 / 10
  value? : Option ℚ := none
  count : ℕ := 0

namespace Ewma

def update (average : Ewma) (value : ℚ) : ℚ × Ewma :=
  let next :=
    match average.value? with
    | none => value
    | some old => average.alpha * value + (1 - average.alpha) * old
  (next, { average with value? := some next, count := average.count + 1 })

def value (average : Ewma) : ℚ :=
  average.value?.getD 0

end Ewma

/-- A detector compares a short-term average with a long-term one. -/
structure TrendDetector where
  short : Ewma := { alpha := 1 / 2 }
  long : Ewma := { alpha := 1 / 10 }
  lastDirection : TrendDirection := .unknown

namespace TrendDetector

/-- The direction that two averages show. -/
def classify (short long : ℚ) : TrendDirection :=
  let ratio := if 0 < long then short / long else 1
  if 0 < short - long then
    if 3 / 2 < ratio then .rapidDegradation
    else if 115 / 100 < ratio then .degrading
    else .stable
  else if ratio < 6 / 10 then .rapidDegradation
  else if ratio < 85 / 100 then .degrading
  else .stable

def update (detector : TrendDetector) (value : ℚ) : TrendDirection × TrendDetector :=
  let (shortVal, short) := detector.short.update value
  let (longVal, long) := detector.long.update value
  if short.count < 3 then (.unknown, { detector with short, long })
  else
    let direction := classify shortVal longVal
    let last := detector.lastDirection
    let direction :=
      if (last = .degrading ∨ last = .rapidDegradation) ∧ direction = .stable ∧
          shortVal - longVal < 0 then .recovery
      else direction
    let direction :=
      if 10 ≤ short.count ∧ last ≠ direction ∧ last ≠ .unknown then .oscillation
      else direction
    (direction, { short, long, lastDirection := direction })

end TrendDetector

/-- `_ConfidenceCalculator.calculate`, without a prediction error. -/
def calculateConfidence (math : MathFunctions) (sampleCount : ℕ) (variance : ℚ) : ConfidenceScore :=
  if sampleCount = 0 then { score := 0, sampleCount := 0, variance }
  else
    let sampleConfidence := 1 - math.exp (-sampleCount / 20)
    let varPenalty := 1 - min (variance * 5) (1 / 2)
    let score := max 0 (min 1 (sampleConfidence * varPenalty))
    { score := roundTo 4 score
      sampleCount
      variance := roundTo 6 variance }

/-- `_PredictionEngine.predict`. -/
def predictFrom (math : MathFunctions) (reputation : ReputationScore)
    (latencyEwma costEwma latencyVariance : ℚ) : PredictionResult :=
  let successProb :=
    (BayesianEstimator.estimate math reputation.successCount reputation.failureCount).1
  let failureProb := 1 - successProb
  { expectedLatencyMs := roundTo 2 latencyEwma
    expectedCost := roundTo 6 costEwma
    expectedSuccessProbability := roundTo 4 successProb
    expectedFailureProbability := roundTo 4 failureProb
    expectedRetryProbability := roundTo 4 (failureProb * (3 / 10))
    expectedAvailability := roundTo 4 reputation.availability
    confidence := calculateConfidence math reputation.sampleSize latencyVariance }

def computeReputation (math : MathFunctions) (successCount failureCount : ℕ)
    (latencyScore costScore availability : ℚ) (sampleSize : ℕ) : ReputationScore :=
  let total := max (successCount + failureCount) 1
  let successRate : ℚ := successCount / total
  let failureRate : ℚ := failureCount / total
  let reliability := BayesianEstimator.reliabilityScore math successCount failureCount
  let confidence : ℚ := min 1 (sampleSize / 20)
  let quality := 4 / 10 * successRate + 3 / 10 * reliability + 3 / 10 * availability
  let stability := 1 - |1 / 2 - successRate| * 2
  { successCount
    failureCount
    totalAttempts := total
    successRate := roundTo 4 successRate
    failureRate := roundTo 4 failureRate
    latencyScore := roundTo 4 latencyScore
    costScore := roundTo 4 costScore
    availability := roundTo 4 availability
    stability := roundTo 4 stability
    confidence := roundTo 4 confidence
    quality := roundTo 4 quality
    sampleSize }

def overallTrend (trends : List TrendDirection) : TrendDirection :=
  if .rapidDegradation ∈ trends then .rapidDegradation
  else if .degrading ∈ trends then .degrading
  else if .improving ∈ trends then .improving
  else if .recovery ∈ trends then .recovery
  else if .stable ∈ trends then .stable
  else .unknown

/-- `_AdaptiveScorer.compute`. -/
def computeScore (math : MathFunctions) (weights : AdaptiveWeights) (reputation : ReputationScore)
    (latencyTrend : LatencyTrend) (costTrend : CostTrend) (successTrend : SuccessTrend)
    (failureTrend : FailureTrend) (budgetEfficiency : ℚ) : AdaptiveScore :=
  let qualityComp := reputation.quality
  let latencyComp := 1 - min (latencyTrend.current / max latencyTrend.max 1) 1
  let costComp := 1 - min (costTrend.current / max costTrend.max (1 / 1000)) 1
  let reliabilityComp := reputation.quality
  let availabilityComp := reputation.availability
  let recoveryComp : ℚ :=
    if successTrend.direction = .recovery then 8 / 10
    else if failureTrend.direction = .degrading then 2 / 10
    else 1 / 2
  let budgetEff := min budgetEfficiency 1
  let raw :=
    qualityComp * weights.quality + latencyComp * weights.latency + costComp * weights.cost +
      reliabilityComp * weights.reliability + availabilityComp * weights.availability +
      recoveryComp * weights.recovery + budgetEff * weights.budgetEfficiency
  let totalW :=
    weights.quality + weights.latency + weights.cost + weights.reliability +
      weights.availability + weights.recovery + weights.budgetEfficiency
  let normalized := if 0 < totalW then raw / totalW else 0
  { rawScore := roundTo 4 raw
    normalizedScore := roundTo 4 (max 0 (min 1 normalized))
    qualityComponent := roundTo 4 qualityComp
    latencyComponent := roundTo 4 latencyComp
    costComponent := roundTo 4 costComp
    reliabilityComponent := roundTo 4 reliabilityComp
    availabilityComponent := roundTo 4 availabilityComp
    recoveryComponent := roundTo 4 recoveryComp
    budgetEfficiency := roundTo 4 budgetEff
    confidence := calculateConfidence math reputation.sampleSize latencyTrend.variance
    trend :=
      overallTrend [latencyTrend.direction, successTrend.direction, failureTrend.direction] }

/-! ## What is learned of a provider -/

/-- The state of a provider. The minima are absent before there is a positive value. -/
structure ProviderLearningState where
  successCount : ℕ := 0
  failureCount : ℕ := 0
  latencyEwma : Ewma := {}
  costEwma : Ewma := {}
  successEwma : Ewma := {}
  failureEwma : Ewma := {}
  latencyTracker : TrendDetector := {}
  costTracker : TrendDetector := {}
  successTracker : TrendDetector := {}
  failureTracker : TrendDetector := {}
  minLatency : Option ℚ := none
  maxLatency : ℚ := 0
  minCost : Option ℚ := none
  maxCost : ℚ := 0
  availability : ℚ := 1
  consecutiveFailures : ℕ := 0

structure ModelLearningState where
  successCount : ℕ := 0
  failureCount : ℕ := 0

/-- One for true, zero for false. -/
def indicator (flag : Bool) : ℚ :=
  if flag then 1 else 0

namespace ProviderLearningState

variable (state : ProviderLearningState)

/-- The state after an outcome. -/
def observe (record : LearningRecord) : ProviderLearningState :=
  let state :=
    if record.success then
      { state with successCount := state.successCount + 1, consecutiveFailures := 0 }
    else state
  let state :=
    if record.failure then
      { state with
        failureCount := state.failureCount + 1
        consecutiveFailures := state.consecutiveFailures + 1 }
    else state
  let state :=
    if 0 < record.latencyMs then
      { state with
        latencyEwma := (state.latencyEwma.update record.latencyMs).2
        minLatency := some (min (state.minLatency.getD record.latencyMs) record.latencyMs)
        maxLatency := max state.maxLatency record.latencyMs }
    else state
  let state :=
    if 0 < record.cost then
      { state with
        costEwma := (state.costEwma.update record.cost).2
        minCost := some (min (state.minCost.getD record.cost) record.cost)
        maxCost := max state.maxCost record.cost }
    else state
  let total := state.successCount + state.failureCount
  { state with
    successEwma := (state.successEwma.update (indicator record.success)).2
    failureEwma := (state.failureEwma.update (indicator record.failure)).2
    availability := if 0 < total then state.successCount / total else 1
    latencyTracker := (state.latencyTracker.update record.latencyMs).2
    costTracker := (state.costTracker.update record.cost).2
    successTracker := (state.successTracker.update (indicator record.success)).2
    failureTracker := (state.failureTracker.update (indicator record.failure)).2 }

/-- `_build_reputation_from_state`. -/
def reputation (math : MathFunctions) (state : ProviderLearningState) : ReputationScore :=
  computeReputation math state.successCount state.failureCount
    (if 0 < state.maxLatency then 1 - min (state.latencyEwma.value / max state.maxLatency 1) 1
      else 1 / 2)
    (if 0 < state.maxCost then 1 - min (state.costEwma.value / max state.maxCost (1 / 1000)) 1
      else 1 / 2)
    state.availability (state.successCount + state.failureCount)

def prediction (math : MathFunctions) (state : ProviderLearningState) : PredictionResult :=
  predictFrom math (state.reputation math) state.latencyEwma.value state.costEwma.value
    (if 0 < state.latencyEwma.count then state.latencyEwma.value * (1 / 10) else 0)

/-- `_latency_trend_from_state`. -/
def latencyTrend : LatencyTrend × ProviderLearningState :=
  let (direction, latencyTracker) := state.latencyTracker.update state.latencyEwma.value
  ({ current := state.latencyEwma.value
     ewma := state.latencyEwma.value
     min := state.minLatency.getD 0
     max := state.maxLatency
     sampleCount := state.latencyEwma.count
     direction },
    { state with latencyTracker })

/-- `_cost_trend_from_state`. -/
def costTrend : CostTrend × ProviderLearningState :=
  let (direction, costTracker) := state.costTracker.update state.costEwma.value
  ({ current := state.costEwma.value
     ewma := state.costEwma.value
     min := state.minCost.getD 0
     max := state.maxCost
     sampleCount := state.costEwma.count
     direction },
    { state with costTracker })

/-- The trend of the successes: whether there was one is one value more for the detector. -/
def successTrend : SuccessTrend × ProviderLearningState :=
  let (direction, successTracker) :=
    state.successTracker.update (indicator (0 < state.successCount))
  ({ current := state.successEwma.value, ewma := state.successEwma.value, direction },
    { state with successTracker })

def failureTrend : FailureTrend × ProviderLearningState :=
  let (direction, failureTracker) :=
    state.failureTracker.update (indicator (0 < state.failureCount))
  ({ current := state.failureEwma.value, ewma := state.failureEwma.value, direction },
    { state with failureTracker })

/-- `_build_adaptive_score`. -/
def adaptiveScore (math : MathFunctions) (weights : AdaptiveWeights)
    (state : ProviderLearningState) : AdaptiveScore × ProviderLearningState :=
  let rep := state.reputation math
  let (latency, state) := state.latencyTrend
  let (cost, state) := state.costTrend
  let (success, state) := state.successTrend
  let (failure, state) := state.failureTrend
  (computeScore math weights rep latency cost success failure (1 / 2), state)

/-- `_build_provider_trend`. -/
def providerTrend : ProviderTrend × ProviderLearningState :=
  let (latency, state) := state.latencyTrend
  let (cost, state) := state.costTrend
  let (success, state) := state.successTrend
  let (failure, state) := state.failureTrend
  ({ latency, cost, success, failure }, state)

def providerReputation (math : MathFunctions) (weights : AdaptiveWeights) (provider : String)
    (state : ProviderLearningState) : ProviderReputation × ProviderLearningState :=
  let reputation := state.reputation math
  let (adaptiveScore, state) := state.adaptiveScore math weights
  let (trend, state) := state.providerTrend
  ({ provider, reputation, adaptiveScore, trend, predictions := state.prediction math }, state)

end ProviderLearningState

namespace ModelLearningState

def observe (state : ModelLearningState) (record : LearningRecord) : ModelLearningState where
  successCount := state.successCount + if record.success then 1 else 0
  failureCount := state.failureCount + if record.failure then 1 else 0

def modelReputation (state : ModelLearningState) (provider model : String) : ModelReputation where
  provider
  model
  reputation :=
    let total := state.successCount + state.failureCount
    { successCount := state.successCount
      failureCount := state.failureCount
      totalAttempts := total
      successRate := state.successCount / max total 1
      sampleSize := total }

end ModelLearningState

/-- The learning engine. Whether there is an event bus matters for the count of the alerts. -/
structure AdaptiveLearningEngineImpl where
  math : MathFunctions
  weights : AdaptiveWeights := {}
  maxRecords : ℕ := 10000
  maxRecent : ℕ := 1000
  hasEventBus : Bool := false
  providers : Dict String ProviderLearningState := Dict.empty
  models : Dict String ModelLearningState := Dict.empty
  records : List LearningRecord := []
  recentRecords : List LearningRecord := []
  cachedStats : LearningStatistics := {}
  observationCount : ℕ := 0
  anomalyCount : ℕ := 0
  alertCount : ℕ := 0
  totalLatency : ℚ := 0
  totalCost : ℚ := 0
  started : Bool := false

namespace AdaptiveLearningEngineImpl

variable (engine : AdaptiveLearningEngineImpl)

def start : AdaptiveLearningEngineImpl :=
  { engine with started := true }

def stop : AdaptiveLearningEngineImpl :=
  { engine with started := false }

/-- Everything is forgotten but the last statistics. -/
def dispose : AdaptiveLearningEngineImpl :=
  { engine.stop with
    providers := Dict.empty
    models := Dict.empty
    records := []
    recentRecords := []
    observationCount := 0
    anomalyCount := 0
    alertCount := 0
    totalLatency := 0
    totalCost := 0 }

def appendBounded (bound : ℕ) (records : List LearningRecord) (record : LearningRecord) :
    List LearningRecord :=
  (records ++ [record]).drop (records.length + 1 - bound)

def modelKey (provider model : String) : String :=
  provider ++ ":" ++ model

/-- `mkey.split(":", 1)`. -/
def splitModelKey (key : String) : String × String :=
  (String.ofList (key.toList.takeWhile (· ≠ ':')),
    String.ofList ((key.toList.dropWhile (· ≠ ':')).drop 1))

/-- `_check_anomalies`, without the events that it publishes. -/
def checkAnomalies (provider : String) : AdaptiveLearningEngineImpl :=
  match engine.providers.get? provider with
  | none => engine
  | some state =>
    if 5 ≤ state.consecutiveFailures then
      { engine with
        anomalyCount := engine.anomalyCount + 1
        alertCount := engine.alertCount + if engine.hasEventBus then 1 else 0 }
    else engine

def statistics (record : LearningRecord) : LearningStatistics where
  totalObservations := engine.observationCount
  totalSuccesses := engine.records.countP fun record => record.success
  totalFailures := engine.records.countP fun record => record.failure
  totalRetries := engine.records.countP fun record => record.retry
  totalFallbacks := engine.records.countP fun record => record.fallback
  providerCount := engine.providers.size
  modelCount := engine.models.size
  averageLatencyMs := engine.totalLatency / engine.observationCount
  averageCost := engine.totalCost / engine.observationCount
  alertsTriggered := engine.alertCount
  anomaliesDetected := engine.anomalyCount
  lastObservation := some record.timestamp

def observe (record : LearningRecord) : AdaptiveLearningEngineImpl :=
  let key := modelKey record.provider record.model
  let provider := ((engine.providers.get? record.provider).getD {}).observe record
  let model := ((engine.models.get? key).getD {}).observe record
  let engine :=
    { engine with
      records := appendBounded engine.maxRecords engine.records record
      recentRecords := appendBounded engine.maxRecent engine.recentRecords record
      observationCount := engine.observationCount + 1
      providers := engine.providers.set record.provider provider
      models := engine.models.set key model
      totalLatency := engine.totalLatency + record.latencyMs
      totalCost := engine.totalCost + record.cost }
  { engine with cachedStats := engine.statistics record }.checkAnomalies record.provider

def predictions : List (String × PredictionResult) :=
  engine.providers.entries.map fun (provider, state) => (provider, state.prediction engine.math)

def enrichCandidates (engine : AdaptiveLearningEngineImpl) :
    List (String × String) → List (String × String × AdaptiveScore) × AdaptiveLearningEngineImpl
  | [] => ([], engine)
  | (provider, model) :: candidates =>
    match engine.providers.get? provider with
    | none => engine.enrichCandidates candidates
    | some state =>
      let (score, state) := state.adaptiveScore engine.math engine.weights
      let engine := { engine with providers := engine.providers.set provider state }
      let (enriched, engine) := engine.enrichCandidates candidates
      ((provider, model, score) :: enriched, engine)

/-- Enrich candidates, which are given by the names of their provider and model. -/
def enrich (candidates : List (String × String)) : LearningDecision × AdaptiveLearningEngineImpl :=
  if ¬ engine.started ∨ candidates = [] then ({}, engine)
  else
    let (enriched, engine) := engine.enrichCandidates candidates
    ({ enrichedCandidates := enriched
       predictions := engine.predictions
       observationsCount := engine.observationCount },
      engine)

def predict (provider : String) : PredictionResult :=
  match engine.providers.get? provider with
  | none => {}
  | some state => state.prediction engine.math

/-- The mean of some values; zero without any. -/
def meanOf (values : List ℚ) : ℚ :=
  if values = [] then 0 else values.sum / values.length

def forecast : LearningForecast :=
  let states := engine.providers.values
  let latencies :=
    (states.filter fun state => 0 < state.latencyEwma.count).map fun state =>
      state.latencyEwma.value
  let costs :=
    (states.filter fun state => 0 < state.costEwma.count).map fun state => state.costEwma.value
  let successes := (states.map fun state => state.successCount).sum
  let failures := (states.map fun state => state.failureCount).sum
  let total := successes + failures
  { providerForecast := engine.predictions
    globalLatencyTrend :=
      { current := meanOf latencies, ewma := meanOf latencies, sampleCount := latencies.length }
    globalCostTrend :=
      { current := meanOf costs, ewma := meanOf costs, sampleCount := costs.length }
    globalSuccessRate := roundTo 4 (if 0 < total then successes / total else 0)
    confidence := calculateConfidence engine.math total 0
    atRiskProviders :=
      (engine.providers.entries.filter fun (_, state) =>
        (state.reputation engine.math).quality < 3 / 10 ∨ 3 ≤ state.consecutiveFailures).map
          Prod.fst }

/-- A snapshot builds the score and the trend of each provider. -/
def snapshot : LearningSnapshot × AdaptiveLearningEngineImpl :=
  let reputation := fun provider (state : ProviderLearningState) =>
    state.providerReputation engine.math engine.weights provider
  ({ providerReputations :=
       engine.providers.entries.map fun (provider, state) => (reputation provider state).1
     modelReputations := engine.models.entries.map fun (key, state) =>
       state.modelReputation (splitModelKey key).1 (splitModelKey key).2
     statistics := engine.cachedStats
     recentRecords := engine.recentRecords },
    { engine with
      providers := engine.providers.mapValues fun state => (reputation "" state).2 })

def providerReputation (provider : String) :
    Option ProviderReputation × AdaptiveLearningEngineImpl :=
  match engine.providers.get? provider with
  | none => (none, engine)
  | some state =>
    let (reputation, state) := state.providerReputation engine.math engine.weights provider
    (some reputation, { engine with providers := engine.providers.set provider state })

def modelReputation (provider model : String) : Option ModelReputation :=
  (engine.models.get? (modelKey provider model)).map fun state =>
    state.modelReputation provider model

end AdaptiveLearningEngineImpl

end AgenticOS.OmniRoute
