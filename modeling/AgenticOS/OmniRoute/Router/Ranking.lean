import AgenticOS.Data.GroupBest
import AgenticOS.OmniRoute.Router.Totality

/-!
# The paths beside routing

`best_provider`, `rank_models` and `generate_fallback_chain` score the candidates anew instead of
asking `route`, and none of them applies all of its filters: the first one leaves out the limits
for context, budget and latency, the other two those for context and budget. They agree with the
routing where such a limit binds no candidate that gets a place in their result.
-/

namespace AgenticOS.OmniRoute

open List

/-- How many items `items[:limit]` has; a negative limit counts from the end. -/
def sliceCount (length : Nat) (limit : ℤ) : Nat :=
  if limit < 0 then length - limit.natAbs else limit.toNat

structure RankedModel where
  requestId : String
  provider : String
  providerId : String
  model : String
  modelId : String
  score : RoutingScore
  estimatedCost : ℚ
  estimatedLatencyMs : ℚ
  policyUsed : String := "weighted"
  status : String := "ranked"

namespace RouterEngineImpl

open GroupBest StableSort

variable (router : RouterEngineImpl) (request : RoutingRequest)

/-- What the health and the capability filter leave of the registries. -/
def capableCandidates : List Candidate :=
  router.filterCapabilities request
    (filterUnhealthyDisabled (router.queryRegistries request).1 (router.queryRegistries request).2)

def fastCandidates : List Candidate :=
  filterLatency request (router.capableCandidates request)

def routeCandidates : List Candidate :=
  filterLatency request (filterBudget request (filterContext request
    (router.capableCandidates request)))

def scored (candidate : Candidate) : Candidate :=
  let score := router.scoreCandidate request candidate.provider candidate.model
  { provider := candidate.provider
    model := candidate.model
    score
    weightedTotal := score.weightedTotal }

def Outscores (left right : Candidate) : Prop :=
  right.weightedTotal ≤ left.weightedTotal
deriving Decidable

instance : Std.Total Outscores where
  total _ _ := le_total _ _

instance : IsTrans Candidate Outscores where
  trans _ _ _ first second := le_trans second first

/-- The candidate behind `best_provider`: each provider is represented by its best model. -/
def bestCandidate : Except String (Option Candidate) :=
  (router.scoreInTurn request (router.capableCandidates request)).map
    (bestOfGroups (fun candidate => candidate.provider.id) Candidate.weightedTotal)

def bestDecision (best : Candidate) : RoutingDecision where
  requestId := request.requestId
  provider := best.provider.name
  providerId := best.provider.id
  model := if best.model.displayName = "" then best.model.modelId else best.model.displayName
  modelId := best.model.modelId
  score := best.score
  reason := "Best provider: " ++ best.provider.name ++ " (score=" ++
    Decimal.fixed 3 best.score.weightedTotal ++ ")"
  estimatedCost := best.model.inputCostPer1k + best.model.outputCostPer1k
  estimatedLatencyMs := max best.provider.latencyMs best.model.latencyMs
  confidence := best.score.weightedTotal

def bestProvider : Except String (Option RoutingDecision) :=
  let (providers, models) := router.queryRegistries request
  if providers = [] ∨ models = [] then .ok none
  else (router.bestCandidate request).map (Option.map (bestDecision request))

/-- The candidates behind `rank_models`, once the request is routed. -/
def rankedCandidates (limit : ℤ) : Except String (List Candidate) :=
  (router.scoreInTurn request (router.fastCandidates request)).map fun candidates =>
    (rankScored candidates).take (sliceCount candidates.length limit)

def rankedModel (candidate : Candidate) : RankedModel where
  requestId := request.requestId
  provider := candidate.provider.name
  providerId := candidate.provider.id
  model := if candidate.model.displayName = "" then candidate.model.modelId
    else candidate.model.displayName
  modelId := candidate.model.modelId
  score := candidate.score
  estimatedCost := candidate.model.inputCostPer1k + candidate.model.outputCostPer1k
  estimatedLatencyMs := max candidate.provider.latencyMs candidate.model.latencyMs

/-- `rank_models`, which begins with a call of `route`. -/
def rankModels (draws : Draws) (times : RouteTimes) (engines : Engines)
    (policyEngine : Option RoutingPolicyEngineImpl) (limit : ℤ) :
    Except String (List RankedModel) :=
  match (router.routeWithPolicies draws times engines policyEngine request).1 with
  | .error error => .error error
  | .ok decision =>
    if decision.status ≠ .routed then .ok []
    else (router.rankedCandidates request limit).map (List.map (rankedModel request))

/-- The candidates behind `generate_fallback_chain`. -/
def chainCandidates (chainLength : ℤ) : Except String (List Candidate) :=
  (router.scoreInTurn request (router.fastCandidates request)).map fun candidates =>
    ((candidates.insertionSort Outscores).filter fun candidate =>
      0 < candidate.weightedTotal).take chainLength.toNat

def generateFallbackChain (chainLength : ℤ) : Except String (List (String × String × String)) :=
  let (providers, models) := router.queryRegistries request
  if providers = [] ∨ models = [] then .ok []
  else (router.chainCandidates request chainLength).map (List.map fallbackEntry)

def Admitted (candidate : Candidate) : Prop :=
  ∃ source ∈ router.routeCandidates request,
    source.provider = candidate.provider ∧ source.model = candidate.model

/-- Everything that the three paths return is the entry of a candidate that the filters of the
routing leave. -/
structure PathsAgree (draws : Draws) (times : RouteTimes) (engines : Engines)
    (policyEngine : Option RoutingPolicyEngineImpl) (limit chainLength : ℤ) : Prop where
  best : ∀ found, router.bestProvider request = .ok found →
    ∃ best, router.bestCandidate request = .ok best ∧ found = best.map (bestDecision request) ∧
      ∀ candidate, best = some candidate → router.Admitted request candidate
  ranking : ∀ ranked,
    router.rankModels request draws times engines policyEngine limit = .ok ranked →
    ranked = [] ∨ ∃ candidates, router.rankedCandidates request limit = .ok candidates ∧
      ranked = candidates.map (rankedModel request) ∧
      ∀ candidate ∈ candidates, router.Admitted request candidate
  chain : ∀ entries, router.generateFallbackChain request chainLength = .ok entries →
    ∃ candidates, router.chainCandidates request chainLength = .ok candidates ∧
      entries = candidates.map fallbackEntry ∧
      ∀ candidate ∈ candidates, router.Admitted request candidate

structure WithinLimits (candidate : Candidate) : Prop where
  context : 0 < request.minimumContext → request.minimumContext ≤ candidate.model.contextWindow
  cost : 0 < request.budgetLimit →
    candidate.model.inputCostPer1k + candidate.model.outputCostPer1k ≤ request.budgetLimit
  latency : 0 < request.maxLatencyMs →
    max candidate.provider.latencyMs candidate.model.latencyMs ≤ request.maxLatencyMs

/-- Each candidate outside the limits has at least this many of the others ahead of it: in front
of it with a total at least as high, or behind it with a higher one. -/
def OutsidersBehind (count : Nat) (candidates : List Candidate) : Prop :=
  ∀ before candidate after, candidates = before ++ candidate :: after →
    ¬ WithinLimits request candidate → count ≤ ahead Outscores before candidate after

/-- There is no candidate, or one within the limits leads all those outside of them. -/
def InsiderLeads (candidates : List Candidate) : Prop :=
  candidates = [] ∨ ∃ before candidate after, candidates = before ++ candidate :: after ∧
    WithinLimits request candidate ∧
    (∀ other ∈ before, ¬ WithinLimits request other →
      ¬ Leads (fun item => item.provider.id) Candidate.weightedTotal candidates other candidate) ∧
    ∀ other ∈ after, ¬ WithinLimits request other →
      Leads (fun item => item.provider.id) Candidate.weightedTotal candidates candidate other

/-- No candidate outside the limits comes far enough. For the best provider, some candidate within
the limits is ahead of all others: by the total, by the place of its provider, or by its own. For
the ranking and the chain, as many candidates as there are places are ahead of each one outside. A
path whose scores overflow returns nothing, and a request that is not routed has no ranking. -/
structure LimitsHarmless (draws : Draws) (times : RouteTimes) (engines : Engines)
    (policyEngine : Option RoutingPolicyEngineImpl) (limit chainLength : ℤ) : Prop where
  best : (∀ candidate ∈ router.capableCandidates request, candidate.model.FitsFloat) →
    InsiderLeads request ((router.capableCandidates request).map (router.scored request))
  ranking : ∀ decision,
    (router.routeWithPolicies draws times engines policyEngine request).1 = .ok decision →
      decision.status = .routed →
        (∀ candidate ∈ router.fastCandidates request, candidate.model.FitsFloat) →
          OutsidersBehind request (sliceCount (router.fastCandidates request).length limit)
            ((router.fastCandidates request).map (router.scored request))
  chain : (∀ candidate ∈ router.fastCandidates request, candidate.model.FitsFloat) →
    OutsidersBehind request chainLength.toNat
      (((router.fastCandidates request).map (router.scored request)).filter fun candidate =>
        0 < candidate.weightedTotal)

variable {router request}

variable {candidate : Candidate}

theorem mem_routeCandidates : candidate ∈ router.routeCandidates request ↔
      candidate ∈ router.capableCandidates request ∧ WithinLimits request candidate := by
  unfold routeCandidates
  rw [mem_filterLatency, mem_filterBudget, mem_filterContext, and_assoc, and_assoc]
  exact and_congr_right fun _ =>
    ⟨fun both => ⟨both.1, both.2.1, both.2.2⟩, fun within =>
      ⟨within.context, within.cost, within.latency⟩⟩

theorem admitted_iff
    (member : candidate ∈ (router.capableCandidates request).map (router.scored request)) :
    router.Admitted request candidate ↔ WithinLimits request candidate := by
  obtain ⟨source, sourceMem, rfl⟩ := mem_map.mp member
  constructor
  · rintro ⟨other, otherMem, providerEq, modelEq⟩
    obtain ⟨-, context, cost, latency⟩ := mem_routeCandidates.mp otherMem
    rw [providerEq, modelEq] at latency
    rw [modelEq] at context cost
    exact ⟨context, cost, latency⟩
  · rintro ⟨context, cost, latency⟩
    exact ⟨source, mem_routeCandidates.mpr ⟨sourceMem, context, cost, latency⟩, rfl, rfl⟩

theorem mem_scored_of_fast
    (member : candidate ∈ (router.fastCandidates request).map (router.scored request)) :
    candidate ∈ (router.capableCandidates request).map (router.scored request) := by
  obtain ⟨source, sourceMem, rfl⟩ := mem_map.mp member
  exact mem_map_of_mem (mem_filterLatency.mp sourceMem).1

theorem forall_mem_take_iff {candidates : List Candidate} {count : Nat} :
    (∀ candidate ∈ (candidates.insertionSort Outscores).take count,
        WithinLimits request candidate) ↔ OutsidersBehind request count candidates := by
  simp only [mem_take_insertionSort_iff, OutsidersBehind]
  constructor
  · intro within before candidate after split outside
    by_contra few
    exact outside (within candidate ⟨before, after, split, not_le.mp few⟩)
  · rintro behind candidate ⟨before, after, split, few⟩
    by_contra outside
    exact absurd (behind before candidate after split outside) (not_le.mpr few)

variable (router request) in
/-- What a path makes of the scores, where they can be computed; else it raises. -/
theorem forall_map_scoreInTurn_iff {β : Type} (candidates : List Candidate)
    (next : List Candidate → β) (property : β → Prop) :
    (∀ value, (router.scoreInTurn request candidates).map next = .ok value → property value) ↔
      ((∀ candidate ∈ candidates, candidate.model.FitsFloat) →
        property (next (candidates.map (router.scored request)))) := by
  rw [← scoreInTurn_returns_iff]
  cases computed : router.scoreInTurn request candidates with
  | error error => simp [Except.map]
  | ok scores =>
    rw [scoreInTurn_eq_ok computed]
    simp only [Except.map, Except.ok.injEq, forall_eq', exists_eq', true_imp_iff]
    exact .rfl

theorem over_take_rankScored (property : OmniRouteProvider → OmniRouteModel → Prop)
    {candidates : List Candidate} {count : Nat} :
    Over property ((rankScored candidates).take count) ↔
      Over property ((candidates.insertionSort Outscores).take count) := by
  have pairs :
      (rankScored candidates).map (fun candidate => (candidate.provider, candidate.model)) =
      (candidates.insertionSort Outscores).map fun candidate =>
        (candidate.provider, candidate.model) := by
    refine ext_getElem (by simp [rankScored]) fun index _ _ => ?_
    simp only [rankScored, getElem_map, getElem_mapIdx]
    rfl
  have split : ∀ items : List Candidate, Over property items ↔
      ∀ pair ∈ items.map (fun candidate => (candidate.provider, candidate.model)),
        property pair.1 pair.2 := by
    intro items
    simp [Over]
  rw [split, split, map_take, map_take, pairs]

/-! ## What is returned -/

theorem scoreInTurn_of_empty
    (empty : (router.queryRegistries request).1 = [] ∨ (router.queryRegistries request).2 = []) :
    router.scoreInTurn request (router.capableCandidates request) = .ok [] ∧
      router.scoreInTurn request (router.fastCandidates request) = .ok [] := by
  have none : router.capableCandidates request = [] := by
    unfold capableCandidates filterCapabilities filterUnhealthyDisabled
    rcases empty with noProvider | noModel
    · simp [noProvider]
    · simp [noModel]
  have noFast : router.fastCandidates request = [] := by
    rw [fastCandidates, none, filterLatency, filter_nil, ite_self]
  rw [none, noFast]
  exact ⟨rfl, rfl⟩

theorem bestProvider_eq : router.bestProvider request =
    (router.bestCandidate request).map (Option.map (bestDecision request)) := by
  rw [bestProvider]
  dsimp only
  split
  next empty =>
    rw [bestCandidate, (scoreInTurn_of_empty empty).1]
    rfl
  · rfl

theorem generateFallbackChain_eq (chainLength : ℤ) :
    router.generateFallbackChain request chainLength =
      (router.chainCandidates request chainLength).map (List.map fallbackEntry) := by
  rw [generateFallbackChain]
  dsimp only
  split
  next empty =>
    simp [chainCandidates, (scoreInTurn_of_empty empty).2, Except.map]
  · rfl

/-- The entries made of a path's candidates are those of admitted ones exactly if the candidates
are admitted. -/
theorem forall_map_entries_iff {α β : Type} (path : Except String α) (entries : α → β)
    (admitted : α → Prop) :
    (∀ made, path.map entries = .ok made →
        ∃ found, path = .ok found ∧ made = entries found ∧ admitted found) ↔
      ∀ found, path = .ok found → admitted found := by
  cases path <;> simp [Except.map]

section

variable {draws : Draws} {times : RouteTimes} {engines : Engines}
variable {policyEngine : Option RoutingPolicyEngineImpl} {limit chainLength : ℤ}

theorem bestCandidate_admitted_iff : (∀ found, router.bestCandidate request = .ok found →
        ∀ candidate, found = some candidate → router.Admitted request candidate) ↔
      ((∀ candidate ∈ router.capableCandidates request, candidate.model.FitsFloat) →
        InsiderLeads request ((router.capableCandidates request).map (router.scored request))) := by
  have every := forall_map_scoreInTurn_iff router request
    (router.capableCandidates request)
    (bestOfGroups (fun candidate => candidate.provider.id) Candidate.weightedTotal)
    fun found => ∀ candidate, found = some candidate → router.Admitted request candidate
  refine every.trans (imp_congr_right fun _ => ?_)
  rw [InsiderLeads, ← forall_head?_insertionSort_iff, bestOfGroups_eq_head?]
  refine forall_congr' fun candidate => imp_congr_right fun head => admitted_iff ?_
  exact (mem_insertionSort _).mp (mem_of_mem_head? head)

theorem rankedCandidates_admitted_iff :
    (∀ candidates, router.rankedCandidates request limit = .ok candidates →
        ∀ candidate ∈ candidates, router.Admitted request candidate) ↔
      ((∀ candidate ∈ router.fastCandidates request, candidate.model.FitsFloat) →
        OutsidersBehind request (sliceCount (router.fastCandidates request).length limit)
          ((router.fastCandidates request).map (router.scored request))) := by
  have every := forall_map_scoreInTurn_iff router request
    (router.fastCandidates request)
    (fun candidates => (rankScored candidates).take (sliceCount candidates.length limit))
    fun candidates => ∀ candidate ∈ candidates, router.Admitted request candidate
  refine every.trans (imp_congr_right fun _ => ?_)
  rw [length_map, ← forall_mem_take_iff]
  refine (over_take_rankScored fun provider model => ∃ source ∈ router.routeCandidates request,
    source.provider = provider ∧ source.model = model).trans
      (forall₂_congr fun candidate taken => admitted_iff ?_)
  exact mem_scored_of_fast ((mem_insertionSort _).mp (mem_of_mem_take taken))

theorem chainCandidates_admitted_iff :
    (∀ candidates, router.chainCandidates request chainLength = .ok candidates →
        ∀ candidate ∈ candidates, router.Admitted request candidate) ↔
      ((∀ candidate ∈ router.fastCandidates request, candidate.model.FitsFloat) →
        OutsidersBehind request chainLength.toNat
          (((router.fastCandidates request).map (router.scored request)).filter fun candidate =>
            0 < candidate.weightedTotal)) := by
  have every := forall_map_scoreInTurn_iff router request
    (router.fastCandidates request)
    (fun candidates => ((candidates.insertionSort Outscores).filter fun candidate =>
      0 < candidate.weightedTotal).take chainLength.toNat)
    fun candidates => ∀ candidate ∈ candidates, router.Admitted request candidate
  refine every.trans (imp_congr_right fun _ => ?_)
  rw [filter_insertionSort, ← forall_mem_take_iff]
  refine forall₂_congr fun candidate taken => admitted_iff ?_
  have kept := (mem_insertionSort _).mp (mem_of_mem_take taken)
  exact mem_scored_of_fast (mem_of_mem_filter kept)

/-- The three paths return only what the filters of the routing leave, exactly where the limits
that they do not apply are harmless. -/
theorem pathsAgree_iff (draws : Draws) (times : RouteTimes) (engines : Engines)
    (policyEngine : Option RoutingPolicyEngineImpl) (limit chainLength : ℤ) :
    router.PathsAgree request draws times engines policyEngine limit chainLength ↔
      router.LimitsHarmless request draws times engines policyEngine limit chainLength := by
  have best := (forall_map_entries_iff (router.bestCandidate request)
    (Option.map (bestDecision request)) _).trans bestCandidate_admitted_iff
  have chain := (forall_map_entries_iff (router.chainCandidates request chainLength)
    (map fallbackEntry) _).trans chainCandidates_admitted_iff
  rw [← bestProvider_eq] at best
  rw [← generateFallbackChain_eq] at chain
  constructor
  · intro agree
    refine ⟨best.mp agree.best, fun decision routed isRouted => ?_, chain.mp agree.chain⟩
    apply rankedCandidates_admitted_iff.mp
    intro candidates ranked candidate member
    have returned : router.rankModels request draws times engines policyEngine limit =
        .ok (candidates.map (rankedModel request)) := by
      rw [rankModels, routed]
      dsimp only
      rw [if_neg (not_not.mpr isRouted), ranked]
      rfl
    rcases agree.ranking _ returned with none | ⟨others, again, -, admitted⟩
    · rw [map_eq_nil_iff.mp none] at member
      cases member
    · cases ranked.symm.trans again
      exact admitted candidate member
  · intro harmless
    refine ⟨best.mpr harmless.best, fun ranked returned => ?_, chain.mpr harmless.chain⟩
    rw [rankModels] at returned
    cases routed : (router.routeWithPolicies draws times engines policyEngine request).1 with
    | error error =>
      rw [routed] at returned
      cases returned
    | ok decision =>
      rw [routed] at returned
      dsimp only at returned
      by_cases isRouted : decision.status = .routed
      · rw [if_neg (not_not.mpr isRouted)] at returned
        have admitted := rankedCandidates_admitted_iff.mpr
          (harmless.ranking decision routed isRouted)
        exact .inr ((forall_map_entries_iff _ _ _).mpr admitted ranked returned)
      · rw [if_pos isRouted] at returned
        cases returned
        exact .inl rfl

end

def smallModel : OmniRouteModel where
  modelId := "small"
  providerId := "p"
  qualityScore := 1
  contextWindow := 100

def largeModel : OmniRouteModel where
  modelId := "large"
  providerId := "p"
  contextWindow := 1000

def largeRequest : RoutingRequest where
  requestId := "r"
  minimumContext := 500

/-- A router over both. -/
def windowRouter : RouterEngineImpl where
  started := true
  providerRegistry := some [sampleProvider]
  modelRegistry := some [smallModel, largeModel]
  log1p := id
  lower := id

def windowDraws : Draws where
  policyId := "d"
  random := fun _ => 0

/-- The routing selects the large model, and all three paths put the small one first. -/
theorem smallModel_first :
    ¬ windowRouter.PathsAgree largeRequest windowDraws sampleTimes {} none 20 5 ∧
      ((windowRouter.routeWithPolicies windowDraws sampleTimes {} none largeRequest).1.map
        fun decision => (decision.status, decision.modelId)) = .ok (.routed, "large") ∧
      ((windowRouter.bestProvider largeRequest).map fun found =>
        found.map RoutingDecision.modelId) = .ok (some "small") ∧
      ((windowRouter.rankModels largeRequest windowDraws sampleTimes {} none 20).map fun ranked =>
        ranked.map RankedModel.modelId) = .ok ["small", "large"] ∧
      windowRouter.generateFallbackChain largeRequest 5 =
        .ok [("local", "p", "small"), ("local", "p", "large")] := by
  refine ⟨fun agree => ?_, by decide +kernel, by decide +kernel, by decide +kernel,
    by decide +kernel⟩
  have bestIs : windowRouter.bestCandidate largeRequest = .ok
      (some (windowRouter.scored largeRequest
        { provider := sampleProvider, model := smallModel })) := by decide +kernel
  obtain ⟨best, again, -, admitted⟩ := agree.best _ (by rw [bestProvider_eq, bestIs]; rfl)
  cases bestIs.symm.trans again
  obtain ⟨source, member, -, modelEq⟩ := admitted _ rfl
  have large : ∀ candidate ∈ windowRouter.routeCandidates largeRequest,
      candidate.model = largeModel := by decide +kernel
  rw [large source member] at modelEq
  exact absurd modelEq (by decide +kernel)

end RouterEngineImpl

end AgenticOS.OmniRoute
