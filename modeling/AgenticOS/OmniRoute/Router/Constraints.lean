import AgenticOS.OmniRoute.Router.Core

/-!
# The constraints of a request

Every stage of the router drops candidates and none invents one, so what a filter
establishes about the pair of provider and model still holds of the pair that is selected in
the end, and of every pair of the fallback chain. The join with the result of the policy
engine goes by names; it only finds pairs that were candidates, whatever that engine returns.
-/

namespace AgenticOS.OmniRoute

open List

def Over (property : OmniRouteProvider → OmniRouteModel → Prop)
    (candidates : List Candidate) : Prop :=
  ∀ candidate ∈ candidates, property candidate.provider candidate.model

/-- What is selected and all fallbacks have the property. -/
structure RoutingDecision.Respects (decision : RoutingDecision)
    (property : OmniRouteProvider → OmniRouteModel → Prop) : Prop where
  selected : ∃ provider model, property provider model ∧
    decision.provider = provider.name ∧ decision.providerId = provider.id ∧
      decision.modelId = model.modelId
  fallback : ∀ entry ∈ decision.fallbackChain, ∃ provider model, property provider model ∧
    entry = (provider.name, provider.id, model.modelId)

namespace Over

variable {property : OmniRouteProvider → OmniRouteModel → Prop}
variable {candidates remaining : List Candidate}

section

variable (every : Over property candidates)
include every

theorem of_subset (subset : remaining ⊆ candidates) : Over property remaining := by
  intro candidate member
  exact every candidate (subset member)

theorem rejoin (result : PolicyResult) :
    Over property (RouterEngineImpl.rejoin candidates result) := by
  intro candidate member
  simp only [RouterEngineImpl.rejoin, mem_filterMap, Option.map_eq_some_iff] at member
  obtain ⟨scored, _, found, foundEq, candidateEq⟩ := member
  subst candidateEq
  exact every found (mem_of_find?_eq_some foundEq)

theorem scoreAll (router : RouterEngineImpl) (request : RoutingRequest) :
    Over property (router.scoreAll request candidates) := by
  intro candidate member
  simp only [RouterEngineImpl.scoreAll, mem_map, mem_insertionSort] at member
  obtain ⟨source, sourceMem, candidateEq⟩ := member
  subst candidateEq
  exact every source sourceMem

theorem rankScored : Over property (RouterEngineImpl.rankScored candidates) := by
  intro candidate member
  simp only [RouterEngineImpl.rankScored, mem_mapIdx] at member
  obtain ⟨index, inRange, candidateEq⟩ := member
  subst candidateEq
  have sourceMem := getElem_mem inRange
  rw [mem_insertionSort] at sourceMem
  have held := every _ sourceMem
  exact held

theorem decide {best : Candidate} (bestMem : best ∈ candidates) (request : RoutingRequest)
    (reason policyUsed : String) (cost latency : ℚ) :
    (RouterEngineImpl.decide request best candidates reason policyUsed cost latency).Respects
      property where
  selected := ⟨best.provider, best.model, every best bestMem, rfl, rfl, rfl⟩
  fallback := by
    intro entry entryMem
    simp only [RouterEngineImpl.decide, RouterEngineImpl.generateFallback, mem_map] at entryMem
    obtain ⟨candidate, candidateMem, entryEq⟩ := entryMem
    have ranked : candidate ∈ candidates := mem_of_mem_filter (mem_of_mem_take candidateMem)
    exact ⟨candidate.provider, candidate.model, every candidate ranked, entryEq.symm⟩

end

end Over

namespace RouterEngineImpl

variable {router : RouterEngineImpl} {times : RouteTimes} {engines : Engines}
variable {request : RoutingRequest} {candidates remaining : List Candidate}
variable {decision : RoutingDecision} {property : OmniRouteProvider → OmniRouteModel → Prop}

section

variable (every : Over property candidates)
include every

theorem selectByPolicy_respects {result : PolicyResult}
    (selected : selectByPolicy request candidates result = .ok decision) :
    decision.Respects property := by
  have ranked : Over property (rankScored (rejoin candidates result)) :=
    (every.rejoin result).rankScored
  rw [selectByPolicy] at selected
  split at selected
  · contradiction
  · cases rankedEq : rankScored (rejoin candidates result) with
    | nil => simp [rankedEq] at selected
    | cons best rest =>
      simp only [rankedEq, Except.ok.injEq] at selected
      rw [rankedEq] at ranked
      subst selected
      exact ranked.decide mem_cons_self ..

theorem selectByScore_respects (selected : router.selectByScore request candidates = .ok decision) :
    decision.Respects property := by
  have ranked : Over property (rankScored (router.scoreAll request candidates)) :=
    (every.scoreAll router request).rankScored
  rw [selectByScore] at selected
  cases rankedEq : rankScored (router.scoreAll request candidates) with
  | nil => simp [rankedEq] at selected
  | cons best rest =>
    simp only [rankedEq, Except.ok.injEq] at selected
    rw [rankedEq] at ranked
    subst selected
    exact ranked.decide mem_cons_self ..

theorem select_respects (selected : router.select request candidates = .ok decision) :
    decision.Respects property := by
  rw [select] at selected
  split at selected
  · exact selectByPolicy_respects every selected
  · exact selectByScore_respects every selected

end

/-- A stage that leaves candidates leaves some of those it was given. -/
def Narrows (stage : Engines → List Candidate → Consultation) : Prop :=
  ∀ engines candidates remaining,
    (stage engines candidates).1 = .ok remaining → remaining ⊆ candidates

theorem nonempty_eq_ok {reason : String} (ok : nonempty candidates reason = .ok remaining) :
    remaining = candidates := by
  rw [nonempty] at ok
  split at ok
  · contradiction
  · exact (Except.ok.inj ok).symm

theorem consultBudget_narrows (times : RouteTimes) (request : RoutingRequest) :
    Narrows (consultBudget times request) := by
  intro engines candidates remaining ok
  rw [consultBudget] at ok
  cases attached : engines.budgetEngine with
  | none =>
    simp only [attached, Except.ok.injEq] at ok
    exact ok ▸ .refl _
  | some budget =>
    simp only [attached] at ok
    split at ok
    · split at ok
      · cases ok
        exact .refl _
      · rw [nonempty_eq_ok ok]
        exact filter_subset_self _
    · contradiction

/-- The candidates that remain after the loop remained before it. -/
theorem limitCandidates_subset {times : Nat → Instant} {limiter : RateLimiterEngineImpl}
    {kept : List Candidate}
    (ok : (limitCandidates request times limiter candidates kept).1 = .ok remaining) :
    remaining ⊆ kept := by
  induction candidates generalizing times limiter kept with
  | nil =>
    cases ok
    exact .refl _
  | cons candidate rest ih =>
    rw [limitCandidates] at ok
    split at ok
    · contradiction
    · have subset := ih ok
      split at subset
      · exact subset
      · exact List.Subset.trans subset erase_subset

theorem consultRateLimiter_narrows (times : RouteTimes) (request : RoutingRequest) :
    Narrows (consultRateLimiter times request) := by
  intro engines candidates remaining ok
  rw [consultRateLimiter] at ok
  cases attached : engines.rateLimiter with
  | none =>
    simp only [attached, Except.ok.injEq] at ok
    exact ok ▸ .refl _
  | some limiter =>
    simp only [attached] at ok
    cases limited : (limitCandidates request times.rateLimiter limiter candidates candidates).1 with
    | error failure =>
      rw [limited] at ok
      contradiction
    | ok kept =>
      rw [limited] at ok
      rw [nonempty_eq_ok ok]
      exact limitCandidates_subset limited

theorem scheduleCandidates_subset (times : Nat → Instant) (scheduler : SchedulerEngineImpl)
    (candidates kept : List Candidate) :
    (scheduleCandidates times scheduler candidates kept).1 ⊆ kept := by
  induction candidates generalizing times scheduler kept with
  | nil => exact .refl _
  | cons candidate rest ih =>
    rw [scheduleCandidates]
    dsimp only
    split
    · exact ih ..
    · exact List.Subset.trans (ih ..) erase_subset

theorem consultScheduler_narrows (times : RouteTimes) : Narrows (consultScheduler times) := by
  intro engines candidates remaining ok
  rw [consultScheduler] at ok
  cases attached : engines.scheduler with
  | none =>
    simp only [attached, Except.ok.injEq] at ok
    exact ok ▸ .refl _
  | some scheduler =>
    simp only [attached] at ok
    rw [nonempty_eq_ok ok]
    exact scheduleCandidates_subset ..

theorem filterCircuitBreaker_subset (times : Nat → Timestamp)
    (breaker : CircuitBreakerEngineImpl) (candidates : List Candidate) :
    (filterCircuitBreaker times breaker candidates).1 ⊆ candidates := by
  induction candidates generalizing times breaker with
  | nil => exact .refl _
  | cons candidate rest ih =>
    rw [filterCircuitBreaker]
    dsimp only
    split
    · exact cons_subset_cons _ (ih ..)
    · exact subset_cons_of_subset _ (ih ..)

theorem consultCircuitBreaker_narrows (times : RouteTimes) :
    Narrows (consultCircuitBreaker times) := by
  intro engines candidates remaining ok
  rw [consultCircuitBreaker] at ok
  cases attached : engines.circuitBreaker with
  | none =>
    simp only [attached, Except.ok.injEq] at ok
    exact ok ▸ .refl _
  | some breaker =>
    simp only [attached] at ok
    rw [nonempty_eq_ok ok]
    exact filterCircuitBreaker_subset ..

theorem Narrows.andThen {stage : Engines → List Candidate → Consultation}
    {next : Engines → List Candidate → Consultation} (narrows : Narrows stage)
    (nextNarrows : Narrows next) :
    Narrows fun engines candidates => andThen next (stage engines candidates) := by
  intro engines candidates remaining ok
  cases left : stage engines candidates with
  | mk result engines' =>
    cases result with
    | error failure =>
      simp only [left, RouterEngineImpl.andThen] at ok
      contradiction
    | ok kept =>
      simp only [left, RouterEngineImpl.andThen] at ok
      have keptSubset : kept ⊆ candidates :=
        narrows engines candidates kept (congrArg Prod.fst left)
      exact List.Subset.trans (nextNarrows engines' kept remaining ok) keptSubset

theorem consult_narrows (times : RouteTimes) (request : RoutingRequest) :
    Narrows (consult times request) :=
  (((consultBudget_narrows times request).andThen
    (consultRateLimiter_narrows times request)).andThen
      (consultScheduler_narrows times)).andThen (consultCircuitBreaker_narrows times)

/-! ## The constraints -/

/-- Provider and model are registered, and none of them is switched off. -/
structure Available (router : RouterEngineImpl) (provider : OmniRouteProvider)
    (model : OmniRouteModel) : Prop where
  providerRegistered : provider ∈ router.providerRegistry.getD []
  modelRegistered : model ∈ router.modelRegistry.getD []
  providerEnabled : provider.enabled
  providerHealthy : provider.healthy
  modelEnabled : model.enabled

/-- What a request asks of provider and model. Of the required capabilities one is enough, a
minimum asks for something where it is positive, and a limit where it is not zero. -/
structure Meets (router : RouterEngineImpl) (request : RoutingRequest)
    (provider : OmniRouteProvider) (model : OmniRouteModel) : Prop where
  capability : request.requiredCapabilities ≠ [] →
    ∃ required ∈ request.requiredCapabilities, ∃ offered ∈ model.capabilities,
      router.lower required = router.lower offered
  streaming : request.streamingRequired → model.supportsStreaming
  vision : request.visionRequired → model.supportsVision
  reasoning : request.reasoningRequired → model.supportsReasoning
  tools : request.toolsRequired → model.supportsTools
  context : 0 < request.minimumContext → request.minimumContext ≤ model.contextWindow
  cost : request.budgetLimit ≠ 0 →
    model.inputCostPer1k + model.outputCostPer1k ≤ request.budgetLimit
  latency : request.maxLatencyMs ≠ 0 → max provider.latencyMs model.latencyMs ≤ request.maxLatencyMs

theorem mem_filter_if {α : Type*} {condition : Prop} [Decidable condition] {keep : α → Bool}
    {xs : List α} {x : α} :
    x ∈ (if condition then xs.filter keep else xs) ↔ x ∈ xs ∧ (condition → keep x) := by
  split
  next holds => simp [holds]
  next fails => simp [fails]

theorem registered_of_mem_queryRegistries {provider : OmniRouteProvider}
    (queried : provider ∈ (router.queryRegistries request).1) :
    provider ∈ router.providerRegistry.getD [] := by
  have mem_or_eq : ∀ (listed : List OmniRouteProvider) preferred,
      provider ∈ (if preferred ∈ listed then listed else listed ++ [preferred]) →
        provider ∈ listed ∨ provider = preferred := by
    intro listed preferred member
    split at member
    · exact .inl member
    · simpa using member
  rw [queryRegistries] at queried
  split at queried
  next preferred preferredEq =>
    rcases mem_or_eq _ _ queried with listed | rfl
    · exact (mem_filter_if.mp listed).1
    · split at preferredEq
      · contradiction
      · exact mem_of_find?_eq_some preferredEq
  · exact (mem_filter_if.mp queried).1

theorem filterUnhealthyDisabled_pairs (providers : List OmniRouteProvider)
    (models : List OmniRouteModel) :
    Over (fun provider model => provider ∈ providers ∧ provider.enabled ∧ provider.healthy ∧
      model ∈ models ∧ model.enabled) (filterUnhealthyDisabled providers models) := by
  intro candidate member
  simp only [filterUnhealthyDisabled, mem_filterMap, mem_filter, Option.map_eq_some_iff] at member
  obtain ⟨model, ⟨modelMem, modelEnabled⟩, provider, found, candidateEq⟩ := member
  have valid : provider ∈ providers.filter fun provider =>
      provider.enabled && provider.healthy := by
    rw [← mem_reverse]
    split at found
    next byId byIdEq =>
      cases found
      exact mem_of_find?_eq_some byIdEq
    · split at found
      · contradiction
      · exact mem_of_find?_eq_some found
  rw [mem_filter, Bool.and_eq_true] at valid
  obtain ⟨providerMem, providerEnabled, providerHealthy⟩ := valid
  subst candidateEq
  exact ⟨providerMem, providerEnabled, providerHealthy, modelMem, modelEnabled⟩

theorem findCandidates_available (found : router.findCandidates request = .ok candidates) :
    Over router.Available candidates := by
  rw [findCandidates] at found
  dsimp only at found
  split at found
  · contradiction
  · rw [nonempty_eq_ok found]
    intro candidate member
    obtain ⟨providerMem, providerEnabled, providerHealthy, modelMem, modelEnabled⟩ :=
      filterUnhealthyDisabled_pairs _ _ candidate member
    exact
      { providerRegistered := registered_of_mem_queryRegistries providerMem
        modelRegistered := mem_of_mem_filter modelMem
        providerEnabled, providerHealthy, modelEnabled }

variable {candidate : Candidate}

theorem mem_filterCapabilities : candidate ∈ router.filterCapabilities request candidates ↔
      candidate ∈ candidates ∧
        (request.requiredCapabilities ≠ [] → router.offersCapability request candidate) ∧
        (request.streamingRequired → candidate.model.supportsStreaming) ∧
        (request.visionRequired → candidate.model.supportsVision) ∧
        (request.reasoningRequired → candidate.model.supportsReasoning) ∧
        (request.toolsRequired → candidate.model.supportsTools) := by
  have capable : candidate ∈ (if request.requiredCapabilities = [] then candidates
        else candidates.filter (router.offersCapability request)) ↔
      candidate ∈ candidates ∧
        (request.requiredCapabilities ≠ [] → router.offersCapability request candidate) := by
    rw [← ite_not]
    exact mem_filter_if
  simp only [filterCapabilities, mem_filter_if, capable, and_assoc]

theorem mem_filterContext : candidate ∈ filterContext request candidates ↔ candidate ∈ candidates ∧
      (0 < request.minimumContext → request.minimumContext ≤ candidate.model.contextWindow) := by
  rw [filterContext, ← ite_not, mem_filter_if, not_le, decide_eq_true_iff]

theorem mem_filterBudget : candidate ∈ filterBudget request candidates ↔ candidate ∈ candidates ∧
      (0 < request.budgetLimit →
        candidate.model.inputCostPer1k + candidate.model.outputCostPer1k ≤
          request.budgetLimit) := by
  rw [filterBudget, ← ite_not, mem_filter_if, not_le, decide_eq_true_iff]

theorem mem_filterLatency : candidate ∈ filterLatency request candidates ↔ candidate ∈ candidates ∧
      (0 < request.maxLatencyMs →
        max candidate.provider.latencyMs candidate.model.latencyMs ≤ request.maxLatencyMs) := by
  rw [filterLatency, ← ite_not, mem_filter_if, not_le, decide_eq_true_iff]

theorem limits_nonneg (valid : validateRequest request = []) :
    0 ≤ request.budgetLimit ∧ 0 ≤ request.maxLatencyMs := by
  simp only [validateRequest, append_eq_nil_iff] at valid
  obtain ⟨⟨_, budget⟩, latency⟩ := valid
  constructor
  · by_contra negative
    simp [lt_of_not_ge negative] at budget
  · by_contra negative
    simp [lt_of_not_ge negative] at latency

theorem mem_filters_iff (valid : validateRequest request = []) :
    candidate ∈ filterLatency request (filterBudget request (filterContext request
        (router.filterCapabilities request candidates))) ↔
      candidate ∈ candidates ∧ router.Meets request candidate.provider candidate.model := by
  obtain ⟨budgetNonneg, latencyNonneg⟩ := limits_nonneg valid
  rw [mem_filterLatency, mem_filterBudget, mem_filterContext, mem_filterCapabilities,
    budgetNonneg.lt_iff_ne', latencyNonneg.lt_iff_ne']
  constructor
  · rintro ⟨⟨⟨⟨member, capability, streaming, vision, reasoning, tools⟩, context⟩, cost⟩, latency⟩
    refine ⟨member, ?_, streaming, vision, reasoning, tools, context, cost, latency⟩
    intro required
    simpa [offersCapability] using capability required
  · rintro ⟨member, meets⟩
    refine ⟨⟨⟨⟨member, ?_, meets.streaming, meets.vision, meets.reasoning, meets.tools⟩,
      meets.context⟩, meets.cost⟩, meets.latency⟩
    intro required
    simpa [offersCapability] using meets.capability required

theorem bind_eq_ok {α β : Type} {first : Except Failure α} {next : α → Except Failure β}
    {value : β} (ok : (first >>= next) = .ok value) :
    ∃ intermediate, first = .ok intermediate ∧ next intermediate = .ok value := by
  cases first with
  | error failure => contradiction
  | ok intermediate => exact ⟨intermediate, rfl, ok⟩

theorem applyConstraints_eq_ok {eligible : List Candidate} (valid : validateRequest request = [])
    (applied : router.applyConstraints request candidates = .ok eligible) :
    eligible ⊆ candidates ∧ Over (router.Meets request) eligible := by
  obtain ⟨_, _, filtered⟩ := bind_eq_ok applied
  obtain ⟨capable, capableEq, eligibleEq⟩ := bind_eq_ok filtered
  rw [nonempty_eq_ok eligibleEq, nonempty_eq_ok capableEq]
  constructor
  · intro candidate member
    exact ((mem_filters_iff valid).mp member).1
  · intro candidate member
    exact ((mem_filters_iff valid).mp member).2

/-- A call that is concluded but not as failed has selected. -/
theorem conclude_selected {result : Except Failure RoutingDecision}
    (concluded : conclude request result = .ok decision) (notFailed : decision.status ≠ .failed) :
    result = .ok decision := by
  unfold conclude at concluded
  split at concluded
  · exact congrArg Except.ok (Except.ok.inj concluded)
  · cases concluded
    contradiction
  · contradiction

/-- A call that does not fail is rejected for an invalid request, or has found candidates,
kept some of them through every stage, and selected among these. -/
theorem route_not_failed (ok : (router.route times engines request).1 = .ok decision)
    (notFailed : decision.status ≠ .failed) :
    (decision.status = .rejected ∧ validateRequest request ≠ []) ∨
      ∃ candidates remaining eligible, validateRequest request = [] ∧
          router.findCandidates request = .ok candidates ∧
            (consult times request engines candidates).1 = .ok remaining ∧
              router.applyConstraints request remaining = .ok eligible ∧
                router.select request eligible = .ok decision := by
  rw [route] at ok
  split at ok
  · dsimp only at ok
    have failed := conclude_selected ok notFailed
    contradiction
  · split at ok
    next invalid =>
      cases ok
      exact .inl ⟨rfl, invalid⟩
    next valid =>
      cases found : router.findCandidates request with
      | error failure =>
        simp only [found] at ok
        have failed := conclude_selected ok notFailed
        contradiction
      | ok candidates =>
        simp only [found] at ok
        have selected := conclude_selected ok notFailed
        obtain ⟨remaining, consulted, rest⟩ := bind_eq_ok selected
        obtain ⟨eligible, applied, selected⟩ := bind_eq_ok rest
        exact .inr
          ⟨candidates, remaining, eligible, not_not.mp valid, rfl, consulted, applied, selected⟩

/-- Whatever the registries hold and whichever engines are attached, a routed call selects a
registered provider and model that are switched on and meet the request, and so does every
entry of its fallback chain. -/
theorem route_respects_request (router : RouterEngineImpl) (times : RouteTimes)
    (engines : Engines) (request : RoutingRequest) (decision : RoutingDecision)
    (ok : (router.route times engines request).1 = .ok decision)
    (routed : decision.status = .routed) :
    decision.Respects fun provider model =>
      router.Available provider model ∧ router.Meets request provider model := by
  have notFailed : decision.status ≠ .failed := by simp [routed]
  rcases route_not_failed ok notFailed with
    ⟨rejected, _⟩ | ⟨candidates, remaining, eligible, valid, found, consulted, applied, selected⟩
  · rw [routed] at rejected
    contradiction
  have available : Over router.Available remaining :=
    (findCandidates_available found).of_subset
      (consult_narrows times request engines candidates remaining consulted)
  obtain ⟨eligibleSubset, meets⟩ := applyConstraints_eq_ok valid applied
  apply select_respects _ selected
  intro candidate member
  exact ⟨available candidate (eligibleSubset member), meets candidate member⟩

def sampleProvider : OmniRouteProvider where
  id := "p"
  name := "local"
  healthy := true
  latencyMs := 50

/-- A model that offers nothing but chat, with a context window that was not measured. -/
def chatModel : OmniRouteModel where
  modelId := "chat-1"
  providerId := "p"
  capabilities := ["Chat"]
  contextWindow := -1

/-- A router over these two. With free models and unknown context windows its scores take no
logarithm. -/
def sampleRouter : RouterEngineImpl where
  started := true
  providerRegistry := some [sampleProvider]
  modelRegistry := some [chatModel]
  log1p := id
  lower := String.toLower

def sampleTimes : RouteTimes where
  budget := { now := 0, today := 0 }
  rateLimiter := fun _ => { mono := 0, now := 0 }
  scheduler := fun _ => { mono := 0, now := 0 }
  circuitBreaker := fun _ => 0

/-- A request for a model that can chat and see. -/
def visionRequest : RoutingRequest where
  requestId := "r"
  requiredCapabilities := ["chat", "vision"]
  budgetLimit := 1
  maxLatencyMs := 100

def chatDecision : RoutingDecision where
  requestId := "r"
  provider := "local"
  providerId := "p"
  model := "chat-1"
  modelId := "chat-1"
  score :=
    { qualityScore := 1 / 2
      costScore := 1
      latencyScore := 1 / 2
      healthScore := 1 / 2
      reliabilityScore := 1
      weightedTotal := 283 / 500
      candidateCount := 1
      rank := 1 }
  reason := "Selected local/chat-1 (score=0.566)"
  fallbackChain := [("local", "p", "chat-1")]
  estimatedLatencyMs := 50
  confidence := 283 / 500
  alternativesRejected := 0

theorem route_visionRequest :
    (sampleRouter.route sampleTimes {} visionRequest).1 = .ok chatDecision := by
  decide +kernel

theorem visionRequest_respected :
    chatDecision.Respects fun provider model =>
      sampleRouter.Available provider model ∧ sampleRouter.Meets visionRequest provider model :=
  route_respects_request sampleRouter sampleTimes {} visionRequest chatDecision
    route_visionRequest rfl

/-- A model is selected that has one of the required capabilities but not the other, and a
context window below the minimum. -/
theorem visionRequest_routed_without_vision :
    (sampleRouter.route sampleTimes {} visionRequest).1 = .ok chatDecision ∧
      chatDecision.status = .routed ∧
      ¬ chatDecision.Respects (fun provider model => sampleRouter.Available provider model ∧
        ∀ required ∈ visionRequest.requiredCapabilities, ∃ offered ∈ model.capabilities,
          sampleRouter.lower required = sampleRouter.lower offered) ∧
      ¬ chatDecision.Respects (fun provider model => sampleRouter.Available provider model ∧
        visionRequest.minimumContext ≤ model.contextWindow) := by
  have onlyChat : ∀ {provider model}, sampleRouter.Available provider model →
      model = chatModel := by
    intro provider model available
    exact mem_singleton.mp available.modelRegistered
  refine ⟨route_visionRequest, rfl, ?_, ?_⟩
  · intro respects
    obtain ⟨provider, model, ⟨available, all⟩, _⟩ := respects.selected
    rw [onlyChat available] at all
    obtain ⟨offered, isOffered, same⟩ := all "vision" (.tail _ (.head _))
    rw [mem_singleton.mp isOffered] at same
    exact absurd same (by decide +kernel)
  · intro respects
    obtain ⟨provider, model, ⟨available, context⟩, _⟩ := respects.selected
    rw [onlyChat available] at context
    exact absurd context (by decide)

end RouterEngineImpl

end AgenticOS.OmniRoute
