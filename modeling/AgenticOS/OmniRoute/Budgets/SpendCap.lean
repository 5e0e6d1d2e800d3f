import AgenticOS.OmniRoute.Budgets.Settlement

/-!
# Admission and the recorded spend

What the checks of an evaluation say about the spend that commits record later. Two
facts of the admission loop matter. It compares a policy's limit with the recorded
spend only, not with the reservations the policy has open; and it looks at every
applicable policy but leaves the reservation to the last one.
-/

namespace AgenticOS.OmniRoute.BudgetEngineImpl

open AgenticOS.Transition List

structure SameRules (before after : BudgetEngineImpl) : Prop where
  policies : after.policies = before.policies
  policiesByScope : after.policiesByScope = before.policiesByScope
  overrides : after.overrides = before.overrides

section

variable (engine : BudgetEngineImpl)

theorem SameRules.refl : SameRules engine engine :=
  ⟨rfl, rfl, rfl⟩

theorem sameRules_cleanup (clock : Clock) :
    SameRules engine (engine.cleanupExpiredReservations clock) :=
  cleanup_preserves (fun _ _ _ same _ _ => ⟨same.policies, same.policiesByScope, same.overrides⟩)
    (.refl engine)

theorem sameRules_step (operation : Operation) : SameRules engine (engine.step operation) := by
  have moved : ∀ {middle after : BudgetEngineImpl}, SameRules engine middle →
      SameRules middle after → SameRules engine after := fun first second =>
    ⟨second.policies.trans first.policies,
      second.policiesByScope.trans first.policiesByScope,
      second.overrides.trans first.overrides⟩
  apply step_preserves (fun _ _ same => moved same ⟨rfl, rfl, rfl⟩) _ _ _ _ _
    (.refl engine)
  · exact fun _ _ _ same _ _ => moved same ⟨rfl, rfl, rfl⟩
  · exact fun _ _ _ _ _ same _ _ _ => moved same ⟨rfl, rfl, rfl⟩
  · intro clock evaluationTimeMs candidates request _ cleaned
    exact evaluate_preserves_of_hold evaluationTimeMs (fun _ _ same => moved same ⟨rfl, rfl, rfl⟩)
      (fun _ _ same _ _ => moved same ⟨rfl, rfl, rfl⟩) cleaned
  · exact fun _ _ _ _ _ _ _ => ⟨rfl, rfl, rfl⟩
  · exact fun _ _ _ _ _ _ => ⟨rfl, rfl, rfl⟩

theorem sameRules_run (operations : List Operation) :
    SameRules engine (run step engine operations) := by
  apply run_invariant (SameRules engine) _ (.refl engine)
  intro current operation same
  have next := sameRules_step current operation
  exact ⟨next.policies.trans same.policies, next.policiesByScope.trans same.policiesByScope,
    next.overrides.trans same.overrides⟩

end

theorem SameRules.resolveApplicablePolicies_eq {before after : BudgetEngineImpl}
    (same : SameRules before after) (request : RoutingRequest) :
    after.resolveApplicablePolicies request = before.resolveApplicablePolicies request := by
  unfold resolveApplicablePolicies collectPolicy
  rw [same.policies, same.policiesByScope]

/-- Policies stored under their own ids. -/
def Keyed (engine : BudgetEngineImpl) : Prop :=
  ∀ pid policy, engine.policies.get? pid = some policy → policy.id = pid

variable {engine : BudgetEngineImpl}

theorem collected_policy (keyed : engine.Keyed) (ids : List String)
    {collected : Dict String BudgetPolicy} (initially : ∀ entry ∈ collected.entries,
      engine.policies.get? entry.1 = some entry.2 ∧ entry.2.id = entry.1) :
    ∀ entry ∈ (ids.foldl engine.collectPolicy collected).entries,
      engine.policies.get? entry.1 = some entry.2 ∧ entry.2.id = entry.1 := by
  induction ids generalizing collected with
  | nil => exact initially
  | cons pid ids ih =>
    apply ih
    unfold collectPolicy
    cases lookup : engine.policies.get? pid with
    | none => exact initially
    | some policy =>
      dsimp only
      split
      · rintro ⟨key, stored⟩ entryMem
        have found := Dict.get?_eq_some_iff.mpr entryMem
        rw [Dict.get?_set] at found
        split at found
        · rename_i same
          cases found
          exact ⟨same ▸ lookup, same ▸ keyed _ _ lookup⟩
        · exact initially _ (Dict.get?_eq_some_iff.mp found)
      · exact initially

variable {request : RoutingRequest}

theorem mem_resolveApplicablePolicies (keyed : engine.Keyed) {policy : BudgetPolicy}
    (applicable : policy ∈ engine.resolveApplicablePolicies request) :
    engine.policies.get? policy.id = some policy := by
  obtain ⟨⟨key, stored⟩, entryMem, rfl⟩ := mem_map.mp applicable
  have entry := collected_policy keyed _ (by simp [Dict.empty]) _ entryMem
  rw [entry.2]
  exact entry.1

theorem nodup_resolveApplicablePolicies (keyed : engine.Keyed) (request : RoutingRequest) :
    ((engine.resolveApplicablePolicies request).map BudgetPolicy.id).Nodup := by
  unfold resolveApplicablePolicies Dict.values
  rw [map_map]
  have keys : ∀ (collected : Dict String BudgetPolicy),
      (∀ entry ∈ collected.entries, entry.2.id = entry.1) →
      collected.entries.map (BudgetPolicy.id ∘ Prod.snd) = collected.entries.map Prod.fst :=
    fun collected agree => map_congr_left agree
  rw [keys _ fun entry entryMem =>
    (collected_policy keyed _ (by simp [Dict.empty]) entry entryMem).2]
  exact Dict.nodupKeys _

def chargedPolicyId (policies : List BudgetPolicy) : String :=
  (policies.getLast?.map BudgetPolicy.id).getD ""

variable {clock : Clock} {loop : PolicyLoop}

theorem checkPolicy_ok {cost : ℚ} {next : PolicyLoop} {policy : BudgetPolicy}
    (passed : engine.checkPolicy clock cost loop policy = .ok next) :
    next.effectivePolicyId = policy.id ∧
      ∀ limit, limit = overridden (engine.findActiveOverride clock.now policy.id)
          "max_spend_total" policy.maxSpendTotal →
        0 < limit → engine.usageTracker.totalSpent policy.id + cost ≤ limit := by
  unfold checkPolicy at passed
  dsimp only at passed
  split at passed
  · cases passed
  · split at passed
    · cases passed
    · split at passed
      · cases passed
      · rename_i withinTotal
        split at passed
        · cases passed
        · split at passed
          · cases passed
          · cases passed
            refine ⟨rfl, ?_⟩
            rintro limit rfl positive
            rw [UsageTracker.getUsage_totalSpent] at withinTotal
            exact not_lt.mp fun exceeded => withinTotal ⟨positive, exceeded⟩

/-- A candidate that passes the loop passed every policy in it. -/
theorem foldlM_checkPolicy_ok {cost : ℚ} (policies : List BudgetPolicy) {last : PolicyLoop}
    (passed : policies.foldlM (engine.checkPolicy clock cost) loop = .ok last) :
    last.effectivePolicyId = (policies.getLast?.map BudgetPolicy.id).getD loop.effectivePolicyId ∧
      ∀ policy ∈ policies, ∃ before after,
        engine.checkPolicy clock cost before policy = .ok after := by
  induction policies generalizing loop with
  | nil =>
    cases passed
    simp
  | cons policy policies ih =>
    rw [foldlM_cons] at passed
    cases checked : engine.checkPolicy clock cost loop policy with
    | error rejection =>
      rw [checked] at passed
      cases passed
    | ok next =>
      rw [checked] at passed
      obtain ⟨charged, others⟩ := ih passed
      constructor
      · rw [charged, (checkPolicy_ok checked).1]
        cases policies with
        | nil => rfl
        | cons second rest => simp [getLast?_cons]
      · intro other otherMem
        rcases mem_cons.mp otherMem with rfl | later
        · exact ⟨loop, next, checked⟩
        · exact others other later

variable {policies : List BudgetPolicy}

theorem admission_ok {cost : ℚ}
    (admitted : engine.admission clock request policies cost = .ok loop) :
    loop.effectivePolicyId = chargedPolicyId policies ∧
      ∀ policy ∈ policies, ∀ limit,
        limit = overridden (engine.findActiveOverride clock.now policy.id)
          "max_spend_total" policy.maxSpendTotal →
        0 < limit → engine.usageTracker.totalSpent policy.id + cost ≤ limit := by
  unfold admission at admitted
  split at admitted
  · cases admitted
  · obtain ⟨charged, passed⟩ := foldlM_checkPolicy_ok policies admitted
    refine ⟨charged, fun policy policyMem => ?_⟩
    obtain ⟨before, after, checked⟩ := passed policy policyMem
    exact (checkPolicy_ok checked).2

/-! ## The total limit -/

structure Capped (engine : BudgetEngineImpl) (policyId : String) (limit : ℚ) : Prop where
  policy : ∃ policy, engine.policies.get? policyId = some policy ∧ policy.enabled = true ∧
    policy.maxSpendTotal = limit
  positive : 0 < limit
  noOverride : ∀ override ∈ engine.overrides.values, override.policyId ≠ policyId

def predictedCost (candidate : BudgetCandidate) (request : RoutingRequest) : ℚ :=
  (CostPredictor.estimate candidate.1 candidate.2 request).estimatedCost

/-- If the candidate is admitted on the policy's account, then it is not the case that its
cost fits under the limit beside the recorded spend but no longer beside the reservations
that the policy has open. -/
def AdmitsWithin (policyId : String) (limit : ℚ) (clock : Clock) (request : RoutingRequest)
    (policies : List BudgetPolicy) (engine : BudgetEngineImpl) (candidate : BudgetCandidate) :
    Prop :=
  let cost := predictedCost candidate request
  let spent := engine.usageTracker.totalSpent policyId
  ∀ loop, engine.admission clock request policies cost = .ok loop →
    loop.effectivePolicyId = policyId →
    ¬ (spent + cost ≤ limit ∧ limit < spent + engine.openCost policyId + cost)

def NoOvercommit (policyId : String) (limit : ℚ) (engine : BudgetEngineImpl) :
    Operation → Prop
  | .evaluate clock _ candidates request =>
    let cleaned := engine.cleanupExpiredReservations clock
    let policies := cleaned.resolveApplicablePolicies request
    cleaned.emergencyMode = false →
      Along (candidateStep clock request policies)
        (AdmitsWithin policyId limit clock request policies) cleaned candidates
  | _ => True

/-- The recorded spend and the open reservations of a capped policy together stay within
the limit. The empty policy id is never charged. -/
structure WithinCap (rules : BudgetEngineImpl) (policyId : String) (limit : ℚ)
    (engine : BudgetEngineImpl) : Prop where
  wellFormed : WellFormed engine
  sameRules : SameRules rules engine
  spent : engine.usageTracker.totalSpent policyId ≤ limit
  committed : policyId ≠ "" →
    engine.usageTracker.totalSpent policyId + engine.openCost policyId ≤ limit

section

variable {rules engine : BudgetEngineImpl} {policyId : String} {limit : ℚ}

theorem Configured.withinCap (configured : Configured engine) (positive : 0 < limit) :
    WithinCap engine policyId limit engine := by
  have nothingSpent : engine.usageTracker.totalSpent policyId = 0 := by simp [configured.noUsage]
  constructor
  · exact configured.wellFormed
  · exact .refl engine
  · rw [nothingSpent]
    exact positive.le
  · intro _
    rw [nothingSpent, configured.openCost, add_zero]
    exact positive.le

section

variable (within : WithinCap rules policyId limit engine)
include within

theorem WithinCap.restat (stats : BudgetStatistics) :
    WithinCap rules policyId limit { engine with stats } :=
  ⟨within.wellFormed.restat stats,
    ⟨within.sameRules.policies, within.sameRules.policiesByScope, within.sameRules.overrides⟩,
    within.spent, within.committed⟩

theorem WithinCap.hold (clock : Clock) {reservation : BudgetReservation}
    (isOpen : reservation.outcome = none)
    (nonneg : reservation.policyId ≠ "" → 0 ≤ reservation.estimatedCost)
    (fits : policyId ≠ "" → engine.usageTracker.totalSpent policyId +
      engine.openCost policyId + openShare policyId reservation ≤ limit) :
    WithinCap rules policyId limit (engine.hold clock reservation) := by
  constructor
  · exact within.wellFormed.hold clock isOpen nonneg
  · exact ⟨within.sameRules.policies, within.sameRules.policiesByScope, within.sameRules.overrides⟩
  · rw [totalSpent_hold]
    exact within.spent
  · intro policy
    rw [totalSpent_hold, openCost_hold within.wellFormed, ← add_assoc]
    exact fits policy

/-- A commit moves the cost of an open reservation to the spend; any other settlement
leaves the spend as it is. -/
theorem WithinCap.settle (clock : Clock) {rid : ReservationId} {reservation : BudgetReservation}
    {outcome : Outcome} (present : engine.reservations.get? rid = some reservation)
    (legal : reservation.outcome = none ∨ outcome ≠ .committed) :
    WithinCap rules policyId limit (engine.settle clock rid reservation outcome) := by
  have wellFormed := within.wellFormed.settle clock outcome present
  have sum : policyId ≠ "" →
      (engine.settle clock rid reservation outcome).usageTracker.totalSpent policyId +
        (engine.settle clock rid reservation outcome).openCost policyId ≤ limit := by
    intro policy
    have share := openShare_nonneg policy (within.wellFormed.nonneg rid reservation present)
    rw [totalSpent_settle, openCost_settle clock outcome present]
    split
    · rename_i charged
      obtain ⟨rfl, _, rfl⟩ := charged
      have isOpen : reservation.outcome = none := legal.resolve_right (by simp)
      have moved : openShare reservation.policyId reservation = reservation.estimatedCost := by
        simp [openShare, isOpen]
      linarith [within.committed policy]
    · linarith [within.committed policy]
  constructor
  · exact wellFormed
  · exact ⟨within.sameRules.policies, within.sameRules.policiesByScope, within.sameRules.overrides⟩
  · by_cases policy : policyId = ""
    · rw [totalSpent_settle]
      have uncharged : ¬ (outcome = .committed ∧ reservation.policyId ≠ "" ∧
          policyId = reservation.policyId) := by
        rintro ⟨_, named, same⟩
        exact named (same ▸ policy)
      rw [if_neg uncharged, add_zero]
      exact within.spent
    · linarith [sum policy, wellFormed.openCost_nonneg policy]
  · exact sum

end

section

variable (within : WithinCap rules policyId limit engine) (keyed : rules.Keyed)
  (capped : Capped rules policyId limit)
include within keyed capped

/-- A candidate admitted on the policy's account fits beside the recorded spend: the
policy charged is the last applicable one, and every applicable one was checked. -/
theorem WithinCap.admitted_fits {clock : Clock} {request : RoutingRequest} {cost : ℚ}
    {loop : PolicyLoop} (policy : policyId ≠ "")
    (admitted : engine.admission clock request (rules.resolveApplicablePolicies request) cost =
      .ok loop) (onAccount : loop.effectivePolicyId = policyId) :
    engine.usageTracker.totalSpent policyId + cost ≤ limit := by
  obtain ⟨last, checked⟩ := admission_ok admitted
  rw [onAccount, chargedPolicyId] at last
  cases found : (rules.resolveApplicablePolicies request).getLast? with
  | none =>
    rw [found] at last
    exact absurd last policy
  | some applicable =>
    rw [found] at last
    have sameId : applicable.id = policyId := last.symm
    have applicableMem := mem_of_getLast? found
    have stored := mem_resolveApplicablePolicies keyed applicableMem
    obtain ⟨subject, subjectStored, _, subjectLimit⟩ := capped.policy
    rw [sameId, subjectStored] at stored
    cases Option.some.inj stored
    have noOverride : engine.findActiveOverride clock.now applicable.id = none := by
      rw [sameId, findActiveOverride, within.sameRules.overrides, find?_eq_none]
      intro override overrideMem
      simp [capped.noOverride override overrideMem]
    have fits := checked applicable applicableMem limit
      (by simp [noOverride, overridden, subjectLimit]) capped.positive
    rwa [sameId] at fits

/-- The engine's own check bounds the recorded spend; the guard adds the open
reservations. -/
theorem WithinCap.candidateStep {clock : Clock} {request : RoutingRequest}
    {candidate : BudgetCandidate} (guard : AdmitsWithin policyId limit clock request
      (rules.resolveApplicablePolicies request) engine candidate) : WithinCap rules policyId limit
      (candidateStep clock request (rules.resolveApplicablePolicies request) engine candidate) := by
  unfold BudgetEngineImpl.candidateStep
  rcases evaluateCandidate_cases engine clock candidate request
      (rules.resolveApplicablePolicies request) with
    ⟨stats, _, _, _, _, result⟩ |
    ⟨loop, reservation, admitted, charged, cost, isOpen, _, _, _, result⟩
  · rw [result]
    exact within.restat stats
  · rw [result]
    apply (within.restat loop.stats).hold clock isOpen
    · intro _
      rw [cost]
      exact CostPredictor.estimatedCost_nonneg _ _ _
    · intro policy
      change engine.usageTracker.totalSpent policyId + engine.openCost policyId +
        openShare policyId reservation ≤ limit
      by_cases account : reservation.policyId = policyId
      · have share : openShare policyId reservation = predictedCost candidate request := by
          simp [openShare, isOpen, account, cost, predictedCost]
        have onAccount : loop.effectivePolicyId = policyId := charged ▸ account
        have fits := within.admitted_fits keyed capped policy admitted onAccount
        rw [share]
        by_contra overcommitted
        exact guard loop admitted onAccount ⟨fits, not_le.mp overcommitted⟩
      · have noShare : openShare policyId reservation = 0 := by simp [openShare, account]
        rw [noShare, add_zero]
        exact within.committed policy

theorem WithinCap.step {operation : Operation}
    (guard : NoOvercommit policyId limit engine operation) :
    WithinCap rules policyId limit (engine.step operation) := by
  apply step_preserves (fun _ stats within => within.restat stats) _ _ _ _ _ within
  · intro engine clock reservation within noPolicy isOpen
    apply within.hold clock isOpen (fun policy => absurd noPolicy policy)
    intro policy
    have noShare : openShare policyId reservation = 0 := by simp [openShare, noPolicy, policy.symm]
    rw [noShare, add_zero]
    exact within.committed policy
  · exact fun _ clock _ _ _ within present isOpen _ => within.settle clock present (.inl isOpen)
  · rintro clock evaluationTimeMs candidates request rfl cleaned
    have resolved := cleaned.sameRules.resolveApplicablePolicies_eq request
    simp only [NoOvercommit, resolved] at guard
    apply evaluate_preserves
      (AdmitsWithin policyId limit clock request (rules.resolveApplicablePolicies request))
      evaluationTimeMs (fun _ stats within => within.restat stats) _ _ cleaned
    · intro current candidate within admits
      rw [resolved]
      exact within.candidateStep keyed capped admits
    · rw [resolved]
      exact guard
  · exact fun clock _ _ _ present _ _ => within.settle clock present (.inr (by simp))
  · exact fun clock _ _ _ present _ => within.settle clock present (.inr (by simp))

end

end

/-- The cap of a policy is never exceeded in a run from a configured engine in which no
evaluation overcommits it. -/
theorem totalSpent_le_limit_of_noOvercommit {engine : BudgetEngineImpl} {policyId : String}
    {limit : ℚ} (configured : Configured engine) (capped : Capped engine policyId limit)
    {operations : List Operation}
    (along : Along step (NoOvercommit policyId limit) engine operations) :
    Always step (fun current => current.usageTracker.totalSpent policyId ≤ limit)
      engine operations := by
  have always := along.always
    (fun _ _ within guard => .step within configured.keyed capped guard)
    (configured.withinCap capped.positive)
  exact fun done earlier => (always done earlier).spent

theorem capped_samplePolicy : Capped (init.createPolicy samplePolicy) "team" 10 where
  policy := ⟨samplePolicy, by decide +kernel⟩
  positive := by norm_num
  noOverride := by simp [init, createPolicy, Dict.values, Dict.empty]

/-- Two reservations are open at once and both are committed. -/
theorem totalSpent_le_ten_of_two_reservations :
    Always step (fun current => current.usageTracker.totalSpent "team" ≤ 10)
      (init.createPolicy samplePolicy)
      [sampleEvaluate 3, sampleEvaluate 4, .commit sampleClock 0, .commit sampleClock 1] := by
  apply totalSpent_le_limit_of_noOvercommit (configured_init.createPolicy samplePolicy)
    capped_samplePolicy
  refine ⟨fun _ => ⟨?_, trivial⟩, fun _ => ⟨?_, trivial⟩, trivial, trivial, trivial⟩
  · rintro loop _ _ ⟨_, overcommitted⟩
    exact absurd overcommitted (by decide +kernel)
  · rintro loop _ _ ⟨_, overcommitted⟩
    exact absurd overcommitted (by decide +kernel)

/-- Two requests of cost six are both admitted under a limit of ten, and both commit. -/
theorem two_open_reservations_exceed_cap :
    ¬ ∀ engine policyId limit operations, Configured engine → Capped engine policyId limit →
      Always step (fun current => current.usageTracker.totalSpent policyId ≤ limit)
        engine operations := by
  intro always
  have within := (always (init.createPolicy samplePolicy) "team" 10
    [sampleEvaluate 6, sampleEvaluate 6, .commit sampleClock 0, .commit sampleClock 1]
    (configured_init.createPolicy samplePolicy) capped_samplePolicy).last
  exact absurd within (by decide +kernel)

/-! ## Which policies a commit charges -/

theorem totalSpent_evaluate (engine : BudgetEngineImpl) (clock : Clock) (evaluationTimeMs : ℚ)
    (candidates : List BudgetCandidate) (request : RoutingRequest) (policyId : String) :
    (engine.evaluate clock evaluationTimeMs candidates request).2.usageTracker.totalSpent
      policyId = engine.usageTracker.totalSpent policyId := by
  apply evaluate_preserves_of_hold (J := fun current =>
    current.usageTracker.totalSpent policyId = engine.usageTracker.totalSpent policyId)
    evaluationTimeMs (fun _ _ same => same)
  · intro current reservation same _ _
    rw [totalSpent_hold]
    exact same
  · apply cleanup_preserves (J := fun current =>
      current.usageTracker.totalSpent policyId = engine.usageTracker.totalSpent policyId) _ rfl
    intro current rid reservation same _ _
    rw [totalSpent_settle]
    simpa using same

variable {rid : ReservationId}

theorem get?_run_candidateStep (wellFormed : WellFormed engine)
    (candidates : List BudgetCandidate) {reservation : BudgetReservation}
    (present : engine.reservations.get? rid = some reservation) :
    (run (candidateStep clock request policies) engine candidates).reservations.get? rid =
      some reservation := by
  have preserved : ∀ current candidate,
      WellFormed current ∧ current.reservations.get? rid = some reservation →
      WellFormed (candidateStep clock request policies current candidate) ∧
        (candidateStep clock request policies current candidate).reservations.get? rid =
          some reservation := by
    intro current candidate holds
    apply candidateStep_preserves
      (J := fun current => WellFormed current ∧ current.reservations.get? rid = some reservation)
      (fun _ stats holds => ⟨holds.1.restat stats, holds.2⟩) _ holds
    intro middle added holds isOpen nonneg
    have distinct : rid ≠ middle.nextReservation := (holds.1.fresh rid reservation holds.2).ne
    exact ⟨holds.1.hold clock isOpen nonneg, (Dict.get?_set_ne _ distinct _).trans holds.2⟩
  exact (run_invariant _ preserved ⟨wellFormed, present⟩ candidates).2

theorem evaluateCandidates_reserves (wellFormed : WellFormed engine)
    {candidates : List BudgetCandidate} {index : Nat} {candidate : BudgetCandidate}
    {result : BudgetResult} (candidateAt : candidates[index]? = some candidate) (resultAt :
      (engine.evaluateCandidates clock request policies candidates).1[index]? = some result)
    (reserved : result.reservationId = some rid) : ∃ reservation,
      (engine.evaluateCandidates clock request policies candidates).2.reservations.get? rid =
        some reservation ∧
      reservation.outcome = none ∧ reservation.policyId = chargedPolicyId policies ∧
      reservation.estimatedCost = predictedCost candidate request := by
  induction candidates generalizing engine index with
  | nil => simp at candidateAt
  | cons first rest ih =>
    have wellFormedNext : WellFormed (candidateStep clock request policies engine first) :=
      candidateStep_preserves (fun _ stats holds => holds.restat stats)
        (fun _ _ holds isOpen nonneg => holds.hold clock isOpen nonneg) wellFormed
    cases index with
    | succ index => exact ih wellFormedNext candidateAt resultAt
    | zero =>
      simp only [getElem?_cons_zero, Option.some.injEq] at candidateAt
      subst candidateAt
      have resultFirst :
          (engine.evaluateCandidate clock first request policies).1 = result := by
        simpa [evaluateCandidates] using resultAt
      rw [evaluateCandidates_snd, run_cons]
      rcases evaluateCandidate_cases engine clock first request policies with
        ⟨_, _, _, _, none, _⟩ |
        ⟨loop, reservation, admitted, charged, cost, isOpen, _, _, id, after⟩
      · rw [resultFirst, reserved] at none
        cases none
      · rw [resultFirst, reserved] at id
        cases id
        refine ⟨reservation, get?_run_candidateStep wellFormedNext rest ?_, isOpen, ?_, cost⟩
        · rw [candidateStep, after]
          exact Dict.get?_set_self _ _ _
        · rw [charged]
          exact (admission_ok admitted).1

/-- Charging the last of several distinct policies charges all of them only if there is
nothing to charge, or just one policy. -/
theorem charges_all_iff (cost : ℚ) (nodup : (policies.map BudgetPolicy.id).Nodup) :
    (∀ policyId,
        (if chargedPolicyId policies ≠ "" ∧ policyId = chargedPolicyId policies then cost else 0) =
          if policyId ∈ policies.map BudgetPolicy.id then cost else 0) ↔
      cost = 0 ∨ policies = [] ∨ ∃ policy, policy.id ≠ "" ∧ policies = [policy] := by
  constructor
  · intro agree
    by_cases free : cost = 0
    · exact .inl free
    · refine .inr ?_
      have everyCharged : ∀ policy ∈ policies,
          chargedPolicyId policies ≠ "" ∧ policy.id = chargedPolicyId policies := by
        intro policy policyMem
        have share := agree policy.id
        rw [if_pos (mem_map_of_mem policyMem)] at share
        by_contra uncharged
        rw [if_neg uncharged] at share
        exact free share.symm
      cases policies with
      | nil => exact .inl rfl
      | cons first rest =>
        have firstCharged := everyCharged first mem_cons_self
        cases rest with
        | nil => exact .inr ⟨first, firstCharged.2 ▸ firstCharged.1, rfl⟩
        | cons second rest =>
          have secondCharged := everyCharged second (by simp)
          have same : first.id = second.id := firstCharged.2.trans secondCharged.2.symm
          simp [same] at nodup
  · rintro (free | rfl | ⟨policy, named, rfl⟩) policyId
    · simp [free]
    · simp [chargedPolicyId]
    · simp [chargedPolicyId, named]

theorem evaluate_reserves (wellFormed : WellFormed engine) {evaluationTimeMs : ℚ}
    {candidates : List BudgetCandidate} {index : Nat} {candidate : BudgetCandidate}
    {result : BudgetResult} (candidateAt : candidates[index]? = some candidate)
    (resultAt : (engine.evaluate clock evaluationTimeMs candidates request).1.results[index]? =
      some result) (reserved : result.reservationId = some rid) : ∃ reservation,
      (engine.evaluate clock evaluationTimeMs candidates request).2.reservations.get? rid =
        some reservation ∧
      reservation.outcome = none ∧
      reservation.policyId = chargedPolicyId (engine.resolveApplicablePolicies request) ∧
      reservation.estimatedCost = predictedCost candidate request := by
  have cleaned := OnlyExpired.cleanup wellFormed clock
  rw [← (sameRules_cleanup engine clock).resolveApplicablePolicies_eq request]
  unfold evaluate at resultAt ⊢
  dsimp only at resultAt ⊢
  split
  · rename_i emergency
    simp [emergency] at resultAt
  · rename_i calm
    simp only [calm] at resultAt
    exact evaluateCandidates_reserves cleaned.wellFormed candidateAt resultAt reserved

theorem commit_of_open (clock : Clock) {reservation : BudgetReservation}
    (present : engine.reservations.get? rid = some reservation)
    (isOpen : reservation.outcome = none) :
    (engine.commit clock rid).1 = true ∧
      ∀ policyId, (engine.commit clock rid).2.usageTracker.totalSpent policyId =
        engine.usageTracker.totalSpent policyId +
          if reservation.policyId ≠ "" ∧ policyId = reservation.policyId then
            reservation.estimatedCost
          else 0 := by
  rcases commit_cases engine clock rid with
    ⟨stored, stats, storedPresent, _, granted, _⟩ | ⟨refused, _⟩
  · cases Option.some.inj (present.symm.trans storedPresent)
    rw [granted]
    refine ⟨rfl, fun policyId => ?_⟩
    simpa using totalSpent_settle engine clock rid reservation .committed policyId
  · exact absurd isOpen (refused reservation present)

/-- In every reachable state: evaluating a request and committing the reservation of an
approved candidate adds the committed cost to the total of every applicable policy, and to
no other, exactly if the cost is zero, no policy applies, or a single one does. -/
theorem commit_charges_applicable_iff {engine : BudgetEngineImpl}
    (configured : Configured engine) (operations : List Operation) (clock commitClock : Clock)
    (evaluationTimeMs : ℚ) {candidates : List BudgetCandidate} {request : RoutingRequest}
    {index : Nat} {candidate : BudgetCandidate} {result : BudgetResult} {rid : ReservationId}
    (candidateAt : candidates[index]? = some candidate)
    (resultAt : ((run step engine operations).evaluate clock evaluationTimeMs candidates
      request).1.results[index]? = some result)
    (reserved : result.reservationId = some rid) :
    let before := run step engine operations
    let applicable := before.resolveApplicablePolicies request
    let committed :=
      (before.evaluate clock evaluationTimeMs candidates request).2.commit commitClock rid
    (committed.1 = true ∧
        ∀ policyId, committed.2.usageTracker.totalSpent policyId =
          before.usageTracker.totalSpent policyId +
            if policyId ∈ applicable.map BudgetPolicy.id then predictedCost candidate request
            else 0) ↔
      predictedCost candidate request = 0 ∨ applicable = [] ∨
        ∃ policy, policy.id ≠ "" ∧ applicable = [policy] := by
  intro before applicable committed
  have sameRules : SameRules engine before := sameRules_run engine operations
  have keyed : before.Keyed := by
    intro pid policy stored
    rw [sameRules.policies] at stored
    exact configured.keyed pid policy stored
  obtain ⟨reservation, present, isOpen, charged, cost⟩ :=
    evaluate_reserves (wellFormed_run configured operations) candidateAt resultAt reserved
  obtain ⟨granted, after⟩ := commit_of_open commitClock present isOpen
  simp only [totalSpent_evaluate, charged, cost] at after
  rw [← charges_all_iff _ (nodup_resolveApplicablePolicies keyed request)]
  constructor
  · rintro ⟨_, all⟩ policyId
    exact add_left_cancel ((after policyId).symm.trans (all policyId))
  · intro agree
    refine ⟨granted, fun policyId => ?_⟩
    rw [← agree policyId]
    exact after policyId

/-- The engine after evaluating one candidate of the given cost and committing the
reservation it receives. -/
def sampleCommitted (engine : BudgetEngineImpl) (cost : ℚ) : Bool × BudgetEngineImpl :=
  (engine.step (sampleEvaluate cost)).commit sampleClock 0

/-- A single global policy applies to the request and is charged in full. -/
theorem single_policy_charged :
    let engine := init.createPolicy samplePolicy
    (sampleCommitted engine 3).1 = true ∧
      ∀ policyId, (sampleCommitted engine 3).2.usageTracker.totalSpent policyId =
        engine.usageTracker.totalSpent policyId +
          if policyId ∈ (engine.resolveApplicablePolicies sampleRequest).map BudgetPolicy.id then
            predictedCost (sampleProvider, sampleModel 3) sampleRequest
          else 0 := by
  intro engine
  have approved : ((engine.evaluate sampleClock 1 [(sampleProvider, sampleModel 3)]
      sampleRequest).1.results[0]?).bind BudgetResult.reservationId = some 0 := by
    decide +kernel
  obtain ⟨result, resultAt, reserved⟩ := Option.bind_eq_some_iff.mp approved
  have candidateAt : [(sampleProvider, sampleModel 3)][0]? =
      some (sampleProvider, sampleModel 3) := rfl
  exact (commit_charges_applicable_iff (configured_init.createPolicy samplePolicy) []
    sampleClock sampleClock 1 candidateAt resultAt reserved).mpr
      (.inr (.inr ⟨samplePolicy, by decide, by decide +kernel⟩))

/-- A policy of the workspace beside the global one: the commit of an approved reservation
charges the workspace's policy only. -/
theorem second_policy_not_charged :
    ¬ ∀ (engine : BudgetEngineImpl) (candidate : BudgetCandidate) (request : RoutingRequest)
      (rid : ReservationId), Configured engine →
      ((engine.evaluate sampleClock 1 [candidate] request).1.results.map
        BudgetResult.reservationId) = [some rid] →
      ∀ policyId, ((engine.evaluate sampleClock 1 [candidate] request).2.commit sampleClock
          rid).2.usageTracker.totalSpent policyId =
        engine.usageTracker.totalSpent policyId +
          if policyId ∈ (engine.resolveApplicablePolicies request).map BudgetPolicy.id then
            predictedCost candidate request
          else 0 := by
  intro all
  have charged := all
    ((init.createPolicy samplePolicy).createPolicy
      { id := "shared", scope := .workspace, scopeId := "w" })
    (sampleProvider, sampleModel 3) sampleRequest 0
    ((configured_init.createPolicy samplePolicy).createPolicy _) (by decide +kernel) "team"
  exact absurd charged (by decide +kernel)

end AgenticOS.OmniRoute.BudgetEngineImpl
