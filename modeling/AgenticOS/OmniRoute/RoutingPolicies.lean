import AgenticOS.OmniRoute.Router.Core
import Mathlib.Data.List.Infix

/-!
# The routing policy engine

A policy restricts the candidates by its filters and names the strategy that scores them. The
engine finds the policy of a request, applies the filters, and lets the strategy score and sort
what is left.

Scores are exact, but for one conversion: `math.log1p` turns an integer into a float first, and
raises where no float is near enough. Random numbers and fresh ids are drawn from a parameter.
Metrics and events are left out.
-/

namespace AgenticOS.OmniRoute

open Decimal List RouterEngineImpl OmniRouteModel

structure RoutingPolicy where
  id : String
  name : String := ""
  enabled : Bool := true
  priority : ℤ := 0
  strategy : String := "balanced"
  providerFilter : List String := []
  modelFilter : List String := []
  capabilityFilter : List String := []
  weightOverrides : Dict String ℚ := Dict.empty
  workspaceScope : String := ""
  agentScope : String := ""
  userScope : String := ""

/-- A candidate under evaluation. -/
structure ScoredCandidate where
  provider : OmniRouteProvider
  model : OmniRouteModel
  score : ℚ := 0
  reason : String := ""
  deriving DecidableEq

/-- The result of an evaluation, with the part that the router does not read. -/
structure PolicyReport extends PolicyResult where
  policyName : String := ""
  policyId : String := ""
  selectedProvider : String := ""
  selectedProviderId : String := ""
  selectedModel : String := ""
  policyApplied : Bool := false

/-- What an evaluation draws: the id of a policy that it creates, and the values of
`random.random()`, one for each candidate. -/
structure Draws where
  policyId : String
  random : Nat → ℚ

/-- What a strategy remembers from one evaluation to the next. -/
structure StrategyState where
  /-- The position of the rotation. -/
  counter : Nat := 0
  /-- The provider that was last selected for a user or a workspace. -/
  lastProvider : Dict String String := Dict.empty

structure StrategyContext where
  /-- `math.log1p`. -/
  log1p : ℚ → ℚ
  /-- `str.lower`. -/
  lower : String → String
  random : Nat → ℚ
  request : RoutingRequest
  policy : RoutingPolicy

/-- `math.log1p` of an integer. -/
def log1pOfInt (log1p : ℚ → ℚ) (value : ℤ) : Except String ℚ :=
  if floatOverflow ≤ value then .error "int too large to convert to float" else .ok (log1p value)

/-- `str(bool)`. -/
def printBool (value : Bool) : String :=
  if value then "True" else "False"

def computeCostScore (log1p : ℚ → ℚ) (provider : OmniRouteProvider) (model : OmniRouteModel) : ℚ :=
  let total := provider.costPer1kInput + provider.costPer1kOutput +
    (model.inputCostPer1k + model.outputCostPer1k)
  if total ≤ 0 then 1
  else roundTo 4 (max 0 (1 - log1p total / log1p 10))

variable (provider : OmniRouteProvider)

def computeLatencyScore (model : OmniRouteModel) (maxLatency : ℚ) : ℚ :=
  let combined := max provider.latencyMs model.latencyMs
  if combined ≤ 0 then 1
  else
    let bound := if 0 < maxLatency then maxLatency else 5000
    roundTo 4 (max 0 (min 1 (1 - combined / bound)))

def computeHealthScore (model : OmniRouteModel) : ℚ :=
  scoreHealth provider model

def computeReliabilityScore : ℚ :=
  scoreReliability provider

def computeContextScore (log1p : ℚ → ℚ) (model : OmniRouteModel) : Except String ℚ :=
  if model.contextWindow ≤ 0 then .ok 0
  else
    (log1pOfInt log1p model.contextWindow).map fun raw =>
      roundTo 4 (min 1 (raw / log1p 1000000))

def computePreference (model : OmniRouteModel) (request : RoutingRequest) : ℚ :=
  scorePreference request provider model

/-- The quality score, brought between zero and one. -/
def clampedQuality (model : OmniRouteModel) : ℚ :=
  min (max model.qualityScore 0) 1

/-- The weights of the partial scores. -/
structure Weights where
  quality : ℚ := 1
  cost : ℚ := 1
  latency : ℚ := 1
  health : ℚ := 1
  reliability : ℚ := 1 / 2
  context : ℚ := 3 / 10
  preference : ℚ := 1 / 2

def resolveWeights (policy : RoutingPolicy) (weights : Weights) : Weights where
  quality := (policy.weightOverrides.get? "quality").getD weights.quality
  cost := (policy.weightOverrides.get? "cost").getD weights.cost
  latency := (policy.weightOverrides.get? "latency").getD weights.latency
  health := (policy.weightOverrides.get? "health").getD weights.health
  reliability := (policy.weightOverrides.get? "reliability").getD weights.reliability
  context := (policy.weightOverrides.get? "context").getD weights.context
  preference := (policy.weightOverrides.get? "preference").getD weights.preference

/-- The weighted score of a provider and a model. Weights without a positive sum give zero. -/
def weightedTotal (log1p : ℚ → ℚ) (provider : OmniRouteProvider) (model : OmniRouteModel)
    (request : RoutingRequest) (weights : Weights) : Except String ℚ := do
  let context ← computeContextScore log1p model
  let total :=
    clampedQuality model * weights.quality +
    computeCostScore log1p provider model * weights.cost +
    computeLatencyScore provider model request.maxLatencyMs * weights.latency +
    computeHealthScore provider model * weights.health +
    computeReliabilityScore provider * weights.reliability +
    context * weights.context +
    computePreference provider model request * weights.preference
  let denominator := weights.quality + weights.cost + weights.latency + weights.health +
    weights.reliability + weights.context + weights.preference
  return roundTo 4 (if 0 < denominator then total / denominator else 0)

def mentions (lower : String → String) (provider : OmniRouteProvider) (names : List String) :
    Bool :=
  let kind := if provider.kind = "" then "" else lower provider.kind
  let name := if provider.name = "" then "" else lower provider.name
  names.any fun part => part.toList <:+: kind.toList ∨ part.toList <:+: name.toList

def localNames : List String := ["local", "ollama", "lm-studio", "lmstudio"]

abbrev PolicyStrategy :=
  StrategyContext → StrategyState → List ScoredCandidate →
    Except String (List ScoredCandidate) × StrategyState

def sortByScore (candidates : List ScoredCandidate) : List ScoredCandidate :=
  candidates.insertionSort fun left right => right.score ≤ left.score

def gradedBy (grade : StrategyContext → OmniRouteProvider → OmniRouteModel → ℚ × String) :
    PolicyStrategy :=
  fun context state candidates =>
    (.ok <| sortByScore <| candidates.map fun candidate =>
      let (score, reason) := grade context candidate.provider candidate.model
      { candidate with score, reason }, state)

/-- Give every candidate its weighted score, in their order. The first one whose score raises
ends the evaluation. -/
def scoreEach (context : StrategyContext) (weights : Weights) (reason : String) :
    List ScoredCandidate → Except String (List ScoredCandidate)
  | [] => .ok []
  | candidate :: rest => do
      let score ← weightedTotal context.log1p candidate.provider candidate.model context.request
        weights
      let scored ← scoreEach context weights reason rest
      return { candidate with score, reason } :: scored

def weightedBy (weights : RoutingPolicy → Weights) (reason : RoutingPolicy → String) :
    PolicyStrategy :=
  fun context state candidates =>
    ((scoreEach context (weights context.policy) (reason context.policy) candidates).map
      sortByScore, state)

def balanced : PolicyStrategy :=
  weightedBy (fun policy => resolveWeights policy {}) fun _ => "balanced"

def lowestCost : PolicyStrategy :=
  gradedBy fun context provider model =>
    let cost := computeCostScore context.log1p provider model
    (cost * 5 + computeHealthScore provider model * (1 / 2), "cost_score=" ++ fixed 3 cost)

def highestQuality : PolicyStrategy :=
  gradedBy fun _ provider model =>
    let quality := clampedQuality model
    (quality * 5 + computeHealthScore provider model * (1 / 2), "quality_score=" ++ fixed 3 quality)

def lowestLatency : PolicyStrategy :=
  gradedBy fun context provider model =>
    let latency := computeLatencyScore provider model context.request.maxLatencyMs
    (latency * 5 + computeHealthScore provider model * (1 / 2), "latency_score=" ++ fixed 3 latency)

def highestReliability : PolicyStrategy :=
  gradedBy fun _ provider model =>
    let reliability := computeReliabilityScore provider
    (reliability * 5 + clampedQuality model * 1, "reliability_score=" ++ fixed 3 reliability)

def localFirst : PolicyStrategy :=
  gradedBy fun context provider model =>
    let isLocal := mentions context.lower provider localNames
    let quality := clampedQuality model
    (quality + (if isLocal then 5 else 0),
      "local=" ++ printBool isLocal ++ ", quality=" ++ fixed 3 quality)

def cloudFirst : PolicyStrategy :=
  gradedBy fun context provider model =>
    let isLocal := mentions context.lower provider localNames
    let quality := clampedQuality model
    (quality + (if isLocal then 0 else 3),
      "cloud=" ++ printBool (!isLocal) ++ ", quality=" ++ fixed 3 quality)

def qualityWith (label : String) (supports : OmniRouteModel → Bool) : PolicyStrategy :=
  gradedBy fun _ _ model =>
    let quality := clampedQuality model
    (quality * 2 + (if supports model then 3 else 0),
      label ++ "=" ++ printBool (supports model) ++ ", quality=" ++ fixed 3 quality)

def reasoningOptimized : PolicyStrategy :=
  qualityWith "reasoning" supportsReasoning

def visionOptimized : PolicyStrategy :=
  qualityWith "vision" supportsVision

def streamingOptimized : PolicyStrategy :=
  gradedBy fun context provider model =>
    let latency := computeLatencyScore provider model context.request.maxLatencyMs
    (latency * 2 + (if model.supportsStreaming then 3 else 0),
      "streaming=" ++ printBool model.supportsStreaming ++ ", latency=" ++ fixed 3 latency)

def toolCallingOptimized : PolicyStrategy :=
  qualityWith "tools" supportsTools

/-- The overrides of the policy are the defaults here, and then override themselves. -/
def customWeighted : PolicyStrategy :=
  weightedBy
    (fun policy => resolveWeights policy
      { quality := (policy.weightOverrides.get? "quality").getD 1
        cost := (policy.weightOverrides.get? "cost").getD 1
        latency := (policy.weightOverrides.get? "latency").getD 1
        health := (policy.weightOverrides.get? "health").getD 1
        reliability := (policy.weightOverrides.get? "reliability").getD (1 / 2)
        context := (policy.weightOverrides.get? "context").getD (3 / 10)
        preference := (policy.weightOverrides.get? "preference").getD (1 / 2) })
    fun _ => "custom_weighted"

/-- The score falls with the distance from the position of the rotation. -/
def roundRobin : PolicyStrategy
  | _, state, [] => (.ok [], state)
  | _, state, first :: rest =>
    let count := (first :: rest).length
    (.ok <| sortByScore <| (first :: rest).mapIdx fun index candidate =>
      let distance : ℤ := ((index : ℤ) - ((state.counter % count : Nat) : ℤ)) % (count : ℤ)
      { candidate with
        score := 1 - distance / max (count : ℚ) 1
        reason := "round_robin_idx=" ++ toString index },
      { state with counter := (state.counter + 1) % count })

def randomChoice : PolicyStrategy :=
  fun context state candidates =>
    (.ok <| sortByScore <| candidates.mapIdx fun index candidate =>
      { candidate with score := context.random index, reason := "random" }, state)

/-- The provider that was selected last counts more; the one that is selected is remembered. -/
def stickyProvider : PolicyStrategy :=
  fun context state candidates =>
    let key :=
      if context.request.userId ≠ "" then context.request.userId
      else if context.request.workspace ≠ "" then context.request.workspace
      else "default"
    let last := (state.lastProvider.get? key).getD ""
    let scored := sortByScore <| candidates.map fun candidate =>
      let sticks := candidate.provider.id = last ∨ candidate.provider.name = last
      { candidate with
        score := clampedQuality candidate.model + (if sticks then 3 else 0)
        reason := if sticks then "sticky_provider=yes" else "sticky_provider=no" }
    (.ok scored,
      match scored with
      | [] => state
      | best :: _ => { state with lastProvider := state.lastProvider.set key best.provider.name })

def workspaceDefault : PolicyStrategy :=
  weightedBy (fun policy => resolveWeights policy {}) fun policy =>
    "workspace=" ++ policy.workspaceScope

def agentDefault : PolicyStrategy :=
  weightedBy (fun policy => resolveWeights policy {}) fun policy => "agent=" ++ policy.agentScope

def userDefault : PolicyStrategy :=
  weightedBy (fun policy => resolveWeights policy {}) fun policy => "user=" ++ policy.userScope

def emergencyFailover : PolicyStrategy :=
  gradedBy fun _ provider model =>
    (if provider.healthy ∧ model.healthy then 1 else 0, "emergency_failover")

def safeMode : PolicyStrategy :=
  gradedBy fun _ provider model =>
    (if computeHealthScore provider model < 1 then 0
      else clampedQuality model * 2 + computeReliabilityScore provider * 3, "safe_mode")

def offlineMode : PolicyStrategy :=
  gradedBy fun context provider _ =>
    (if mentions context.lower provider (localNames ++ ["offline"]) then 1 else 0, "offline_mode")

/-- The strategies by their names. -/
def strategyRegistry : List (String × PolicyStrategy) :=
  [("balanced", balanced),
    ("lowest_cost", lowestCost),
    ("highest_quality", highestQuality),
    ("lowest_latency", lowestLatency),
    ("highest_reliability", highestReliability),
    ("local_first", localFirst),
    ("cloud_first", cloudFirst),
    ("reasoning_optimized", reasoningOptimized),
    ("vision_optimized", visionOptimized),
    ("streaming_optimized", streamingOptimized),
    ("tool_calling_optimized", toolCallingOptimized),
    ("custom_weighted", customWeighted),
    ("round_robin", roundRobin),
    ("random", randomChoice),
    ("sticky_provider", stickyProvider),
    ("workspace_default", workspaceDefault),
    ("agent_default", agentDefault),
    ("user_default", userDefault),
    ("emergency_failover", emergencyFailover),
    ("safe_mode", safeMode),
    ("offline_mode", offlineMode)]

/-- The strategy of a name; `balanced` where there is none. -/
def strategyNamed (name : String) : PolicyStrategy :=
  (strategyRegistry.lookup name).getD balanced

/-! ## The engine -/

structure RoutingPolicyEngineImpl where
  policies : Dict String RoutingPolicy := Dict.empty
  defaultPolicyId : String := ""
  strategyState : StrategyState := {}
  /-- `math.log1p`. -/
  log1p : ℚ → ℚ
  /-- `str.lower`. -/
  lower : String → String

namespace RoutingPolicyEngineImpl

def Precedes (left right : RoutingPolicy) : Prop :=
  right.priority < left.priority ∨ (left.priority = right.priority ∧ left.name ≤ right.name)
deriving Decidable

/-- Sort by the priority, the highest first, and then by the name. -/
def sortByPriority (policies : List RoutingPolicy) : List RoutingPolicy :=
  policies.insertionSort Precedes

variable (engine : RoutingPolicyEngineImpl)

def listPolicies (enabledOnly : Bool) : List RoutingPolicy :=
  sortByPriority <|
    if enabledOnly then engine.policies.values.filter RoutingPolicy.enabled
    else engine.policies.values

/-- The policy with the highest priority, and among several the one with the last name. Of
policies that agree in both the first counts. -/
def maxByPriority : List RoutingPolicy → Option RoutingPolicy
  | [] => none
  | first :: rest =>
    some <| rest.foldl
      (fun best policy =>
        if best.priority < policy.priority ∨
            (best.priority = policy.priority ∧ best.name < policy.name) then policy
        else best) first

def defaultPolicy : Option RoutingPolicy :=
  if engine.defaultPolicyId ≠ "" then engine.policies.get? engine.defaultPolicyId
  else maxByPriority engine.policies.values

variable (policy : RoutingPolicy)

def Admits (request : RoutingRequest) : Prop :=
  (policy.userScope = "" ∨ policy.userScope = request.userId) ∧
  (policy.agentScope = "" ∨ policy.agentScope = request.agent) ∧
  (policy.workspaceScope = "" ∨ policy.workspaceScope = request.workspace) ∧
  (policy.providerFilter = [] ∨ request.preferredProvider = "" ∨
    request.preferredProvider ∈ policy.providerFilter) ∧
  (policy.modelFilter = [] ∨ request.preferredModel = "" ∨
    request.preferredModel ∈ policy.modelFilter) ∧
  (policy.capabilityFilter = [] ∨ request.requiredCapabilities = [] ∨
    ∃ capability ∈ request.requiredCapabilities,
      engine.lower capability ∈ policy.capabilityFilter.map engine.lower)
deriving Decidable

def applicablePolicies (request : RoutingRequest) : List RoutingPolicy :=
  sortByPriority <| (engine.listPolicies true).filter fun policy => engine.Admits policy request

/-- The policy for a request: the first that applies, or the default, or else a new one. -/
def resolvePolicy (draws : Draws) (request : RoutingRequest) : RoutingPolicy :=
  match engine.applicablePolicies request with
  | policy :: _ => policy
  | [] =>
    match engine.defaultPolicy with
    | some policy => policy
    | none =>
      { id := draws.policyId
        name := "Fallback Balanced"
        strategy := "balanced"
        priority := -1 }

def Passes (candidate : ScoredCandidate) : Prop :=
  (policy.providerFilter = [] ∨
    engine.lower candidate.provider.name ∈ policy.providerFilter.map engine.lower ∨
    engine.lower candidate.provider.id ∈ policy.providerFilter.map engine.lower) ∧
  (policy.modelFilter = [] ∨
    engine.lower candidate.model.modelId ∈ policy.modelFilter.map engine.lower ∨
    (candidate.model.displayName ≠ "" ∧
      engine.lower candidate.model.displayName ∈ policy.modelFilter.map engine.lower)) ∧
  (policy.capabilityFilter = [] ∨
    ∃ capability ∈ candidate.model.capabilities,
      engine.lower capability ∈ policy.capabilityFilter.map engine.lower)
deriving Decidable

def applyPolicyFilters (candidates : List ScoredCandidate)
    (policy : RoutingPolicy) : List ScoredCandidate :=
  candidates.filter fun candidate => engine.Passes policy candidate

def report (scored : List ScoredCandidate) : PolicyReport :=
  let found : PolicyReport :=
    { policyName := policy.name
      policyId := policy.id
      strategy := policy.strategy
      scoredCandidates := scored.map fun candidate =>
        (candidate.provider.name, candidate.model.modelId, candidate.reason, candidate.score)
      reason := "No viable candidates"
      policyApplied := true }
  match scored with
  | [] => found
  | selected :: _ =>
    { found with
      selectedProvider := selected.provider.name
      selectedProviderId := selected.provider.id
      selectedModel :=
        if selected.model.displayName = "" then selected.model.modelId
        else selected.model.displayName
      selectedModelId := selected.model.modelId
      selectedCost := selected.model.inputCostPer1k + selected.model.outputCostPer1k
      selectedLatencyMs := max selected.provider.latencyMs selected.model.latencyMs
      reason := selected.reason }

def evaluate (draws : Draws)
    (candidates : List (OmniRouteProvider × OmniRouteModel)) (request : RoutingRequest) :
    Except String PolicyReport × RoutingPolicyEngineImpl :=
  let policy := engine.resolvePolicy draws request
  if candidates = [] then
    (.ok
      { policyName := policy.name
        policyId := policy.id
        strategy := policy.strategy
        reason := "No candidates to evaluate" }, engine)
  else
    let scored := candidates.map fun pair => { provider := pair.1, model := pair.2 }
    let context : StrategyContext :=
      { log1p := engine.log1p, lower := engine.lower, random := draws.random, request, policy }
    let (result, state) := strategyNamed policy.strategy context engine.strategyState
      (engine.applyPolicyFilters scored policy)
    (result.map (report policy), { engine with strategyState := state })

end RoutingPolicyEngineImpl

def OmniRouteModel.FitsFloat (model : OmniRouteModel) : Prop :=
  model.contextWindow < floatOverflow

theorem computeContextScore_returns_iff (log1p : ℚ → ℚ) (model : OmniRouteModel) :
    (∃ score, computeContextScore log1p model = .ok score) ↔ model.FitsFloat := by
  have positive : 0 < floatOverflow := by decide +kernel
  rw [computeContextScore, log1pOfInt, OmniRouteModel.FitsFloat]
  split
  · next small => exact ⟨fun _ => small.trans_lt positive, fun _ => ⟨0, rfl⟩⟩
  · split
    · next large =>
        simp [Except.map, not_lt.mpr large]
    · next fits => simp [Except.map, not_le.mp fits]

theorem weightedTotal_returns_iff (log1p : ℚ → ℚ) (provider : OmniRouteProvider)
    (model : OmniRouteModel) (request : RoutingRequest) (weights : Weights) :
    (∃ score, weightedTotal log1p provider model request weights = .ok score) ↔
      model.FitsFloat := by
  rw [← computeContextScore_returns_iff log1p model, weightedTotal]
  cases computeContextScore log1p model with
  | error error => simp [bind, Except.bind]
  | ok context => simp [bind, Except.bind, pure, Except.pure]

/-- All context windows fit. -/
def AllFit (candidates : List ScoredCandidate) : Prop :=
  ∀ candidate ∈ candidates, candidate.model.FitsFloat

theorem scoreEach_returns_iff (context : StrategyContext) (weights : Weights) (reason : String)
    (candidates : List ScoredCandidate) :
    (∃ scored, scoreEach context weights reason candidates = .ok scored) ↔
      AllFit candidates := by
  induction candidates with
  | nil => simp [scoreEach, AllFit]
  | cons candidate rest ih =>
    have first := weightedTotal_returns_iff context.log1p candidate.provider candidate.model
      context.request weights
    have split : AllFit (candidate :: rest) ↔ candidate.model.FitsFloat ∧ AllFit rest :=
      forall_mem_cons
    rw [split, ← first, ← ih, scoreEach]
    cases weightedTotal context.log1p candidate.provider candidate.model context.request
        weights with
    | error error => simp [bind, Except.bind]
    | ok score =>
      cases scoreEach context weights reason rest with
      | error error => simp [bind, Except.bind]
      | ok scored => simp [bind, Except.bind, pure, Except.pure]

/-- The strategies that read the context window. -/
def weightedStrategies : List String :=
  ["balanced", "custom_weighted", "workspace_default", "agent_default", "user_default"]

/-- The strategy of this name reads the context window, itself or as `balanced`. -/
def ReadsContext (name : String) : Prop :=
  name ∈ weightedStrategies ∨ name ∉ strategyRegistry.map Prod.fst

/-- The strategy scores the candidates exactly when the condition holds of them. -/
def Answers (strategy : PolicyStrategy) (condition : List ScoredCandidate → Prop) : Prop :=
  ∀ context state candidates,
    (∃ scored, (strategy context state candidates).1 = .ok scored) ↔ condition candidates

/-- A registered strategy answers, where the context windows fit that it reads. -/
def Registered (entry : String × PolicyStrategy) : Prop :=
  Answers entry.2 fun candidates => entry.1 ∈ weightedStrategies → AllFit candidates

theorem answers_weightedBy (weights : RoutingPolicy → Weights) (reason : RoutingPolicy → String) :
    Answers (weightedBy weights reason) AllFit := by
  intro context state candidates
  rw [← scoreEach_returns_iff context (weights context.policy) (reason context.policy), weightedBy]
  cases scoreEach context (weights context.policy) (reason context.policy) candidates with
  | error error => simp [Except.map]
  | ok scored => simp [Except.map]

theorem registered_weightedBy {name : String} (weighted : name ∈ weightedStrategies)
    (weights : RoutingPolicy → Weights) (reason : RoutingPolicy → String) :
    Registered (name, weightedBy weights reason) := by
  intro context state candidates
  rw [answers_weightedBy weights reason context state candidates]
  exact ⟨fun fit _ => fit, fun fit => fit weighted⟩

theorem registered_of_always {name : String} {strategy : PolicyStrategy}
    (free : name ∉ weightedStrategies) (always : ∀ context state candidates,
      ∃ scored, (strategy context state candidates).1 = .ok scored) :
    Registered (name, strategy) := by
  intro context state candidates
  exact ⟨fun _ weighted => absurd weighted free, fun _ => always context state candidates⟩

theorem registered_gradedBy {name : String} (free : name ∉ weightedStrategies)
    (grade : StrategyContext → OmniRouteProvider → OmniRouteModel → ℚ × String) :
    Registered (name, gradedBy grade) :=
  registered_of_always free fun _ _ _ => ⟨_, rfl⟩

theorem registered_roundRobin : Registered ("round_robin", roundRobin) := by
  apply registered_of_always (by decide)
  intro context state candidates
  cases candidates <;> exact ⟨_, rfl⟩

theorem registered_of_mem {entry : String × PolicyStrategy} (member : entry ∈ strategyRegistry) :
    Registered entry := by
  simp only [strategyRegistry, mem_cons, not_mem_nil, or_false] at member
  rcases member with rfl | rfl | rfl | rfl | rfl | rfl | rfl | rfl | rfl | rfl | rfl | rfl | rfl |
    rfl | rfl | rfl | rfl | rfl | rfl | rfl | rfl
  · exact registered_weightedBy (by decide) _ _
  iterate 10 exact registered_gradedBy (by decide) _
  · exact registered_weightedBy (by decide) _ _
  · exact registered_roundRobin
  · exact registered_of_always (by decide) fun _ _ _ => ⟨_, rfl⟩
  · exact registered_of_always (by decide) fun _ _ _ => ⟨_, rfl⟩
  iterate 3 exact registered_weightedBy (by decide) _ _
  iterate 3 exact registered_gradedBy (by decide) _

theorem strategyNamed_answers (name : String) :
    Answers (strategyNamed name) fun candidates => ReadsContext name → AllFit candidates := by
  rw [strategyNamed, ReadsContext]
  intro context state candidates
  cases found : strategyRegistry.lookup name with
  | none =>
    have unknown : name ∉ strategyRegistry.map Prod.fst := by
      intro member
      obtain ⟨entry, registered, rfl⟩ := mem_map.mp member
      have differs := lookup_eq_none_iff.mp found entry registered
      simp at differs
    rw [Option.getD_none, balanced, answers_weightedBy]
    exact ⟨fun fit _ => fit, fun fit => fit (.inr unknown)⟩
  | some strategy =>
    obtain ⟨before, after, split, _⟩ := lookup_eq_some_iff.mp found
    have member : (name, strategy) ∈ strategyRegistry := by
      rw [split]
      exact mem_append_right before mem_cons_self
    have known : name ∈ strategyRegistry.map Prod.fst := mem_map_of_mem (f := Prod.fst) member
    rw [Option.getD_some, registered_of_mem member context state candidates]
    constructor
    · rintro fit (weighted | unknown)
      · exact fit weighted
      · exact absurd known unknown
    · exact fun fit weighted => fit (.inl weighted)

namespace RoutingPolicyEngineImpl

def CanScore (engine : RoutingPolicyEngineImpl) (draws : Draws)
    (candidates : List (OmniRouteProvider × OmniRouteModel)) (request : RoutingRequest) : Prop :=
  ReadsContext (engine.resolvePolicy draws request).strategy →
    ∀ pair ∈ candidates,
      engine.Passes (engine.resolvePolicy draws request) { provider := pair.1, model := pair.2 } →
        pair.2.FitsFloat

/-- An evaluation raises nothing but the overflow of a score. -/
theorem evaluate_returns_iff (engine : RoutingPolicyEngineImpl) (draws : Draws)
    (candidates : List (OmniRouteProvider × OmniRouteModel)) (request : RoutingRequest) :
    (∃ report, (engine.evaluate draws candidates request).1 = .ok report) ↔
      engine.CanScore draws candidates request := by
  rw [evaluate, CanScore]
  split
  · next empty =>
      rw [empty]
      exact ⟨fun _ _ pair member => absurd member not_mem_nil, fun _ => ⟨_, rfl⟩⟩
  · dsimp only
    generalize engine.resolvePolicy draws request = policy
    have answers := strategyNamed_answers policy.strategy
      { log1p := engine.log1p, lower := engine.lower, random := draws.random, request, policy }
      engine.strategyState
      (engine.applyPolicyFilters
        (candidates.map fun pair => { provider := pair.1, model := pair.2 }) policy)
    have fits : AllFit (engine.applyPolicyFilters
        (candidates.map fun pair => { provider := pair.1, model := pair.2 }) policy) ↔
        ∀ pair ∈ candidates, engine.Passes policy { provider := pair.1, model := pair.2 } →
          pair.2.FitsFloat := by
      rw [AllFit, applyPolicyFilters]
      simp only [mem_filter, mem_map, decide_eq_true_eq]
      constructor
      · intro fit pair member passes
        exact fit { provider := pair.1, model := pair.2 } ⟨⟨pair, member, rfl⟩, passes⟩
      · rintro fit _ ⟨⟨pair, member, rfl⟩, passes⟩
        exact fit pair member passes
    beta_reduce at answers
    rw [← fits, ← answers]
    generalize strategyNamed policy.strategy _ _ _ = outcome
    rcases outcome with ⟨result, state⟩
    cases result <;> simp [Except.map]

end RoutingPolicyEngineImpl

end AgenticOS.OmniRoute
