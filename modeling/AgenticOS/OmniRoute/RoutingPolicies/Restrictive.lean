import AgenticOS.Data.StableSort
import AgenticOS.OmniRoute.Router.Totality

/-!
# Strategies that are to exclude candidates

`offline_mode` is documented to pick only local providers, and `safe_mode` only healthy ones. Both
give every other candidate the score zero and leave it in the list. The evaluation then takes the
head of the sorted list whatever its score, and the router looks the head up again by names. So
they exclude nothing by themselves: it depends on the candidates whether one of the right kind
leads.
-/

namespace AgenticOS.OmniRoute

open StableSort List

/-- The strategies that are to exclude candidates. -/
inductive RestrictiveMode
  | offline
  | safe
  deriving DecidableEq

namespace RestrictiveMode

variable (mode : RestrictiveMode) (lower : String → String)

def strategy : RestrictiveMode → String
  | offline => "offline_mode"
  | safe => "safe_mode"

def Qualifies : RestrictiveMode → OmniRouteProvider → OmniRouteModel → Prop
  | offline, provider, _ => mentions lower provider (localNames ++ ["offline"]) = true
  | safe, provider, model => provider.healthy = true ∧ model.healthy = true

instance : (mode : RestrictiveMode) → (provider : OmniRouteProvider) → (model : OmniRouteModel) →
    Decidable (mode.Qualifies lower provider model)
  | offline, _, _ => inferInstanceAs (Decidable (_ = _))
  | safe, _, _ => inferInstanceAs (Decidable (_ ∧ _))

/-- The score that the strategy gives. -/
def score : RestrictiveMode → OmniRouteProvider → OmniRouteModel → ℚ
  | offline, provider, _ => if mentions lower provider (localNames ++ ["offline"]) then 1 else 0
  | safe, provider, model =>
    if computeHealthScore provider model < 1 then 0
    else clampedQuality model * 2 + computeReliabilityScore provider * 3

def grade (candidate : ScoredCandidate) : ScoredCandidate :=
  { candidate with
    score := mode.score lower candidate.provider candidate.model
    reason := mode.strategy }

theorem strategyNamed_strategy :
    strategyNamed mode.strategy =
      gradedBy fun context provider model =>
        (mode.score context.lower provider model, mode.strategy) := by
  cases mode <;> rfl

def Outranks (left right : ScoredCandidate) : Prop :=
  mode.score lower right.provider right.model ≤ mode.score lower left.provider left.model
deriving Decidable

instance : Std.Total (mode.Outranks lower) where
  total _ _ := le_total _ _

instance : IsTrans ScoredCandidate (mode.Outranks lower) where
  trans _ _ _ first second := le_trans second first

theorem sortByScore_grade (candidates : List ScoredCandidate) :
    sortByScore (candidates.map (mode.grade lower)) =
      (candidates.insertionSort (mode.Outranks lower)).map (mode.grade lower) :=
  (map_insertionSort (mode.Outranks lower) _ (mode.grade lower) candidates
    fun _ _ _ _ => .rfl).symm

end RestrictiveMode

namespace RoutingPolicyEngineImpl

variable (engine : RoutingPolicyEngineImpl) (draws : Draws)
variable (candidates : List (OmniRouteProvider × OmniRouteModel)) (request : RoutingRequest)

/-- The candidates that pass the filters of the policy for the request. -/
def passing : List ScoredCandidate :=
  engine.applyPolicyFilters (candidates.map fun pair => { provider := pair.1, model := pair.2 })
    (engine.resolvePolicy draws request)

/-- The candidates as the strategy of the policy has scored and sorted them. -/
def scored : Except String (List ScoredCandidate) :=
  let policy := engine.resolvePolicy draws request
  (strategyNamed policy.strategy
    { log1p := engine.log1p, lower := engine.lower, random := draws.random, request, policy }
    engine.strategyState (engine.passing draws candidates request)).1

variable {engine draws candidates request} {mode : RestrictiveMode}

theorem evaluate_of_scored {found : List ScoredCandidate} (some : candidates ≠ [])
    (scoredEq : engine.scored draws candidates request = .ok found) :
    (engine.evaluate draws candidates request).1 =
      .ok (report (engine.resolvePolicy draws request) found) := by
  unfold evaluate
  rw [if_neg some]
  change (engine.scored draws candidates request).map _ = _
  rw [scoredEq]
  rfl

theorem scored_restrictive
    (uses : (engine.resolvePolicy draws request).strategy = mode.strategy) :
    engine.scored draws candidates request =
      .ok (((engine.passing draws candidates request).insertionSort
        (mode.Outranks engine.lower)).map (mode.grade engine.lower)) := by
  unfold scored
  dsimp only
  rw [uses, mode.strategyNamed_strategy, ← mode.sortByScore_grade]
  rfl

end RoutingPolicyEngineImpl

namespace RouterEngineImpl

/-- The first candidate with a provider name and a model id: the one that the router finds for
them. -/
def namesake (candidates : List Candidate) (provider modelId : String) : Option Candidate :=
  candidates.find? fun candidate =>
    candidate.provider.name = provider ∧ candidate.model.modelId = modelId

theorem selectByPolicy_of_head {candidates : List Candidate} {request : RoutingRequest}
    {policy : RoutingPolicy} {first : ScoredCandidate} {rest : List ScoredCandidate}
    {twin : Candidate} (named : first.model.modelId ≠ "")
    (leads : ∀ other ∈ rest, other.score ≤ first.score)
    (found : namesake candidates first.provider.name first.model.modelId = some twin) :
    ∃ decision, selectByPolicy request candidates
        (RoutingPolicyEngineImpl.report policy (first :: rest)).toPolicyResult = .ok decision ∧
      decision.provider = first.provider.name ∧ decision.modelId = first.model.modelId := by
  unfold namesake at found
  have names := find?_some found
  rw [decide_eq_true_iff] at names
  unfold selectByPolicy RoutingPolicyEngineImpl.report rejoin rankScored
  rw [if_neg named, map_cons, filterMap_cons]
  simp only [found, Option.map_some]
  rw [insertionSort_cons_of_forall_rel, mapIdx_cons]
  · exact ⟨_, rfl, names⟩
  · intro other member
    obtain ⟨_, scoredMem, joined⟩ := mem_filterMap.mp member
    obtain ⟨candidate, restMem, rfl⟩ := mem_map.mp scoredMem
    obtain ⟨_, _, rfl⟩ := Option.map_eq_some_iff.mp joined
    exact leads candidate restMem

end RouterEngineImpl

namespace RoutingPolicyEngineImpl

variable (mode : RestrictiveMode) (engine : RoutingPolicyEngineImpl) (draws : Draws)
variable (candidates : List Candidate) (request : RoutingRequest)

/-- The pairs that the router passes to the policy engine. -/
def pairs (candidates : List Candidate) : List (OmniRouteProvider × OmniRouteModel) :=
  candidates.map fun candidate => (candidate.provider, candidate.model)

/-- What an evaluation reports as selected qualifies, and so does the candidate that the router
finds for the names in its decision. -/
structure FallsClosed : Prop where
  evaluated : ∀ found selected rest,
    (engine.evaluate draws (pairs candidates) request).1 = .ok found →
      engine.scored draws (pairs candidates) request = .ok (selected :: rest) →
        found = report (engine.resolvePolicy draws request) (selected :: rest) ∧
          mode.Qualifies engine.lower selected.provider selected.model
  routed : ∀ (router : RouterEngineImpl) decision twin,
    (router.selectWithPolicies draws request candidates (some engine)).1 = .ok decision →
      RouterEngineImpl.namesake candidates decision.provider decision.modelId = some twin →
        mode.Qualifies engine.lower twin.provider twin.model

/-- The candidate qualifies, and so does its namesake if the router looks for it. -/
def Sound (candidate : ScoredCandidate) : Prop :=
  mode.Qualifies engine.lower candidate.provider candidate.model ∧
    (candidate.model.modelId ≠ "" → ∀ twin,
      RouterEngineImpl.namesake candidates candidate.provider.name candidate.model.modelId =
          some twin →
        mode.Qualifies engine.lower twin.provider twin.model)

/-- No candidate passes the filters, or a sound one is ahead of all that are not: its score is
higher than theirs, or equal where they come after it. -/
def SoundLeads : Prop :=
  engine.passing draws (pairs candidates) request = [] ∨ ∃ before candidate after,
    engine.passing draws (pairs candidates) request = before ++ candidate :: after ∧
      engine.Sound mode candidates candidate ∧
      (∀ other ∈ before, ¬ engine.Sound mode candidates other →
        mode.score engine.lower other.provider other.model <
          mode.score engine.lower candidate.provider candidate.model) ∧
      ∀ other ∈ after, ¬ engine.Sound mode candidates other →
        mode.score engine.lower other.provider other.model ≤
          mode.score engine.lower candidate.provider candidate.model

variable {mode engine draws candidates request}

theorem exists_namesake {candidate : ScoredCandidate}
    (passes : candidate ∈ engine.passing draws (pairs candidates) request) : ∃ twin,
      RouterEngineImpl.namesake candidates candidate.provider.name candidate.model.modelId =
        some twin := by
  obtain ⟨pair, pairMem, rfl⟩ := mem_map.mp (mem_of_mem_filter passes)
  obtain ⟨source, sourceMem, rfl⟩ := mem_map.mp pairMem
  apply Option.isSome_iff_exists.mp
  rw [RouterEngineImpl.namesake, find?_isSome]
  exact ⟨source, sourceMem, by simp⟩

/-- The router's selection is that of the report. -/
theorem selectWithPolicies_of_evaluate {found : PolicyReport}
    (evaluated : (engine.evaluate draws (pairs candidates) request).1 = .ok found)
    (router : RouterEngineImpl) :
    (router.selectWithPolicies draws request candidates (some engine)).1 =
      RouterEngineImpl.selectByPolicy request candidates found.toPolicyResult := by
  unfold RouterEngineImpl.selectWithPolicies
  dsimp only
  rw [← pairs, evaluated]

theorem fallsClosed_of_nil (scored : engine.scored draws (pairs candidates) request = .ok []) :
    engine.FallsClosed mode draws candidates request where
  evaluated := by
    intro _ _ _ _ scoredEq
    cases scored.symm.trans scoredEq
  routed := by
    have unnamed : ∃ found, (engine.evaluate draws (pairs candidates) request).1 = .ok found ∧
        found.selectedModelId = "" := by
      by_cases empty : pairs candidates = []
      · rw [empty]
        exact ⟨_, rfl, rfl⟩
      · exact ⟨_, evaluate_of_scored empty scored, rfl⟩
    obtain ⟨found, evaluated, unnamed⟩ := unnamed
    intro router decision twin selected
    rw [selectWithPolicies_of_evaluate evaluated, RouterEngineImpl.selectByPolicy,
      if_pos unnamed] at selected
    cases selected

theorem fallsClosed_iff_of_cons {first : ScoredCandidate} {rest : List ScoredCandidate}
    {twin : Candidate}
    (scored : engine.scored draws (pairs candidates) request = .ok (first :: rest))
    (leads : ∀ other ∈ rest, other.score ≤ first.score)
    (twinEq : RouterEngineImpl.namesake candidates first.provider.name first.model.modelId =
      some twin) :
    engine.FallsClosed mode draws candidates request ↔ engine.Sound mode candidates first := by
  have some : pairs candidates ≠ [] := by
    intro empty
    rw [map_eq_nil_iff.mp empty] at twinEq
    cases twinEq
  have evaluated := evaluate_of_scored some scored
  constructor
  · refine fun closed => ⟨(closed.evaluated _ first rest evaluated scored).2,
      fun named other otherEq => ?_⟩
    obtain ⟨decision, selected, provider, model⟩ :=
      RouterEngineImpl.selectByPolicy_of_head named leads twinEq
    rw [← selectWithPolicies_of_evaluate evaluated { log1p := id, lower := id }] at selected
    exact closed.routed _ decision other selected (by rw [provider, model]; exact otherEq)
  · refine fun sound => ⟨fun found head tail reported scoredEq => ?_,
      fun router decision other selected otherEq => ?_⟩
    · cases scored.symm.trans scoredEq
      cases evaluated.symm.trans reported
      exact ⟨rfl, sound.1⟩
    · rw [selectWithPolicies_of_evaluate evaluated] at selected
      have named : first.model.modelId ≠ "" := by
        intro unnamed
        have noModel : (report (engine.resolvePolicy draws request)
          (first :: rest)).selectedModelId = "" := unnamed
        rw [RouterEngineImpl.selectByPolicy, if_pos noModel] at selected
        cases selected
      obtain ⟨again, againEq, provider, model⟩ :=
        RouterEngineImpl.selectByPolicy_of_head named leads twinEq
      cases selected.symm.trans againEq
      rw [provider, model] at otherEq
      exact sound.2 named other otherEq

/-- With a strategy that is to exclude candidates, nothing else is selected exactly where a sound
candidate leads. -/
theorem fallsClosed_iff (uses : (engine.resolvePolicy draws request).strategy = mode.strategy) :
    engine.FallsClosed mode draws candidates request ↔
      engine.SoundLeads mode draws candidates request := by
  have scored : engine.scored draws (pairs candidates) request = _ := scored_restrictive uses
  have leads := forall_head?_insertionSort_iff (mode.Outranks engine.lower)
    (engine.Sound mode candidates) (engine.passing draws (pairs candidates) request)
  simp only [RestrictiveMode.Outranks, not_le] at leads
  rw [SoundLeads, ← leads]
  have pairwise := pairwise_insertionSort (mode.Outranks engine.lower)
    (engine.passing draws (pairs candidates) request)
  cases sorted : (engine.passing draws (pairs candidates) request).insertionSort
      (mode.Outranks engine.lower) with
  | nil =>
    rw [sorted] at scored
    exact iff_of_true (fallsClosed_of_nil scored) fun first head => nomatch head
  | cons first rest =>
    have passes : first ∈ engine.passing draws (pairs candidates) request := by
      rw [← mem_insertionSort (mode.Outranks engine.lower), sorted]
      exact mem_cons_self
    obtain ⟨twin, twinEq⟩ := exists_namesake passes
    rw [sorted] at scored pairwise
    have lower : ∀ other ∈ rest.map (mode.grade engine.lower),
        other.score ≤ (mode.grade engine.lower first).score := by
      intro other member
      obtain ⟨candidate, inRest, rfl⟩ := mem_map.mp member
      exact (pairwise_cons.mp pairwise).1 candidate inRest
    rw [fallsClosed_iff_of_cons scored lower twinEq]
    exact ⟨fun sound _ head => Option.some.inj head ▸ sound, fun every => every first rfl⟩

/-! ## A candidate that no strategy should select -/

def cloudProvider : OmniRouteProvider where
  id := "p"
  name := "openai"
  kind := "openai"
  healthy := true

def cloudModel : OmniRouteModel where
  modelId := "gpt"
  providerId := "p"
  healthy := false

def restrictiveEngine (mode : RestrictiveMode) : RoutingPolicyEngineImpl where
  policies := Dict.ofList [("r-1", { id := "r-1", strategy := mode.strategy })]
  log1p := id
  lower := id

def cloudRouter : RouterEngineImpl where
  started := true
  providerRegistry := some [cloudProvider]
  modelRegistry := some [cloudModel]
  log1p := id
  lower := id

def restrictiveDraws : Draws where
  policyId := "r-2"
  random := fun _ => 0

def cloudCandidate : Candidate where
  provider := cloudProvider
  model := cloudModel

/-- Both strategies select the only candidate there is, and the router routes to it. -/
theorem cloud_selected :
    (∀ mode : RestrictiveMode, ¬ (restrictiveEngine mode).FallsClosed mode restrictiveDraws
      [cloudCandidate] { requestId := "q" }) ∧
    ∀ mode : RestrictiveMode,
      ((cloudRouter.routeWithPolicies restrictiveDraws RouterEngineImpl.sampleTimes {}
        (some (restrictiveEngine mode)) { requestId := "q" }).1.map fun decision =>
          (decision.status, decision.provider, decision.modelId)) =
        .ok (.routed, "openai", "gpt") := by
  constructor
  · intro mode closed
    have scored : (restrictiveEngine mode).scored restrictiveDraws (pairs [cloudCandidate])
        { requestId := "q" } =
          .ok [mode.grade id { provider := cloudProvider, model := cloudModel }] := by
      cases mode <;> decide +kernel
    have qualifies :=
      (closed.evaluated _ _ _ (evaluate_of_scored (cons_ne_nil _ _) scored) scored).2
    cases mode <;> exact absurd qualifies (by decide +kernel)
  · intro mode
    cases mode <;> decide +kernel

def localCandidate : Candidate where
  provider := { cloudProvider with name := "ollama" }
  model := cloudModel

/-- A local candidate behind that of the cloud is selected. -/
theorem local_selected : (restrictiveEngine .offline).FallsClosed .offline restrictiveDraws
    [cloudCandidate, localCandidate] { requestId := "q" } := by
  refine (fallsClosed_iff (by decide +kernel)).mpr (.inr
    ⟨[{ provider := cloudProvider, model := cloudModel }],
      { provider := localCandidate.provider, model := cloudModel }, [], by decide +kernel,
      ⟨by decide +kernel, fun _ twin found => ?_⟩, fun other member _ => ?_,
      fun _ member => absurd member not_mem_nil⟩)
  · have isLocal : RouterEngineImpl.namesake [cloudCandidate, localCandidate] "ollama" "gpt" =
        some localCandidate := by decide +kernel
    cases isLocal.symm.trans found
    decide +kernel
  · cases mem_singleton.mp member
    decide +kernel

end RoutingPolicyEngineImpl

end AgenticOS.OmniRoute
