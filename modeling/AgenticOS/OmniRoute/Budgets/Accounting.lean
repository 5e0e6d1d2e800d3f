import AgenticOS.OmniRoute.Budgets.Engine
import AgenticOS.Transition.Run

/-!
# Accounting for budget reservations

Every operation of the engine is made of three moves: changing the statistics,
holding a new reservation, and settling a reservation that exists. `settle` is the
common form of the last; the equations below exhibit `commit`, `rollback`,
`release` and the expiry loop as it. An invariant is then a statement about these
three moves, and `evaluate_preserves` and `cleanup_preserves` carry it over the two
operations that loop.
-/

namespace AgenticOS.OmniRoute

open AgenticOS.Transition List Dict UsageTracker CostPredictor

/-- How a reservation ended. -/
inductive Outcome
  | committed | rolledBack | released
  deriving DecidableEq

namespace BudgetReservation

/-- The outcome written in a reservation's flags. -/
def outcome (reservation : BudgetReservation) : Option Outcome :=
  if reservation.committed then some .committed
  else if reservation.rolledBack then some .rolledBack
  else if reservation.released then some .released
  else none

/-- The record a settlement leaves behind. -/
def settled (reservation : BudgetReservation) : Outcome → BudgetReservation
  | .committed => { reservation with committed := true, rolledBack := false, released := false }
  | .rolledBack =>
    { reservation with
      expiresAt := none, committed := false, rolledBack := true, released := false }
  | .released =>
    { reservation with
      expiresAt := none, committed := false, rolledBack := false, released := true }

/-- At most one flag is set. -/
def Exclusive (reservation : BudgetReservation) : Prop :=
  (reservation.committed = true → reservation.rolledBack = false ∧ reservation.released = false) ∧
    (reservation.rolledBack = true → reservation.released = false)

variable (reservation : BudgetReservation) (outcome : Outcome)

@[simp]
theorem outcome_settled : (reservation.settled outcome).outcome = some outcome := by
  cases outcome with
  | _ => rfl

@[simp]
theorem policyId_settled : (reservation.settled outcome).policyId = reservation.policyId := by
  cases outcome with
  | _ => rfl

@[simp]
theorem estimatedCost_settled :
    (reservation.settled outcome).estimatedCost = reservation.estimatedCost := by
  cases outcome with
  | _ => rfl

theorem exclusive_settled : (reservation.settled outcome).Exclusive := by
  cases outcome with
  | _ => simp [Exclusive, settled]

theorem outcome_eq_none_iff_isOpen : reservation.outcome = none ↔ reservation.isOpen = true := by
  rw [outcome, isOpen]
  cases reservation.committed <;> cases reservation.rolledBack <;>
    cases reservation.released <;> simp

theorem Exclusive.released_iff {reservation : BudgetReservation}
    (exclusive : reservation.Exclusive) :
    reservation.released = true ↔ reservation.outcome = some .released := by
  rcases exclusive with ⟨committedAlone, rolledBackAlone⟩
  rw [outcome]
  by_cases committed : reservation.committed
  · simp [committed, (committedAlone committed).2]
  · by_cases rolledBack : reservation.rolledBack
    · simp [committed, rolledBack, rolledBackAlone rolledBack]
    · simp [committed, rolledBack]

end BudgetReservation

namespace BudgetEngineImpl

/-- The calls that touch reservations, each with the clock reading it makes. -/
inductive Operation
  | evaluate (clock : Clock) (evaluationTimeMs : ℚ) (candidates : List BudgetCandidate)
      (request : RoutingRequest)
  | reserve (clock : Clock) (provider model : String) (estimatedCost maxCost : ℚ)
      (scope : BudgetScope) (scopeId : String)
  | commit (clock : Clock) (rid : ReservationId)
  | rollback (clock : Clock) (rid : ReservationId)
  | release (clock : Clock) (rid : ReservationId)
  | cleanup (clock : Clock)

/-- Perform one call. -/
def step (engine : BudgetEngineImpl) : Operation → BudgetEngineImpl
  | .evaluate clock evaluationTimeMs candidates request =>
    (engine.evaluate clock evaluationTimeMs candidates request).2
  | .reserve clock provider model estimatedCost maxCost scope scopeId =>
    (engine.reserve clock provider model estimatedCost maxCost scope scopeId).2
  | .commit clock rid => (engine.commit clock rid).2
  | .rollback clock rid => (engine.rollback clock rid).2
  | .release clock rid => (engine.release clock rid).2
  | .cleanup clock => engine.cleanupExpiredReservations clock

/-- An engine whose policies are stored under their own ids, before its first
reservation. -/
structure Configured (engine : BudgetEngineImpl) : Prop where
  keyed : ∀ pid policy, engine.policies.get? pid = some policy → policy.id = pid
  noReservations : engine.reservations = Dict.empty
  noUsage : engine.usageTracker = UsageTracker.init

theorem configured_init : Configured init where
  keyed _ _ present := by simp [init] at present
  noReservations := rfl
  noUsage := rfl

variable {engine : BudgetEngineImpl}

theorem Configured.createPolicy (configured : Configured engine) (policy : BudgetPolicy) :
    Configured (engine.createPolicy policy) where
  keyed pid stored present := by
    simp only [BudgetEngineImpl.createPolicy, get?_set] at present
    split at present
    · rename_i same
      cases present
      exact same.symm
    · exact configured.keyed pid stored present
  noReservations := configured.noReservations
  noUsage := configured.noUsage

def settle (engine : BudgetEngineImpl) (clock : Clock) (rid : ReservationId)
    (reservation : BudgetReservation) (outcome : Outcome) : BudgetEngineImpl :=
  { engine with
    reservations := engine.reservations.set rid (reservation.settled outcome)
    usageTracker :=
      match outcome with
      | .committed =>
        if reservation.policyId = "" then engine.usageTracker
        else
          (engine.untrack clock reservation).recordSpend clock reservation.policyId
            reservation.estimatedCost reservation.provider reservation.model
      | .rolledBack => engine.untrack clock reservation
      | .released => engine.untrack clock reservation }

section

variable (engine : BudgetEngineImpl) (clock : Clock) (rid : ReservationId)

theorem commit_cases : (∃ reservation stats, engine.reservations.get? rid = some reservation ∧
        reservation.outcome = none ∧
        engine.commit clock rid =
          (true, { engine.settle clock rid reservation .committed with stats }) ∧
        stats.commits = engine.stats.commits + 1) ∨
      ((∀ reservation, engine.reservations.get? rid = some reservation →
          reservation.outcome ≠ none) ∧
        engine.commit clock rid = (false, engine)) := by
  rw [commit]
  cases lookup : engine.reservations.get? rid with
  | none => exact .inr ⟨by simp, rfl⟩
  | some reservation =>
    dsimp only
    split
    · rename_i settledAlready
      refine .inr ⟨?_, rfl⟩
      rintro other ⟨rfl⟩ isOpen
      rw [BudgetReservation.outcome_eq_none_iff_isOpen] at isOpen
      simp [BudgetReservation.isOpen] at isOpen
      simp [isOpen] at settledAlready
    · rename_i notSettled
      refine .inl ⟨reservation, _, rfl, ?_, rfl, rfl⟩
      rw [BudgetReservation.outcome_eq_none_iff_isOpen]
      simpa [BudgetReservation.isOpen, and_assoc] using notSettled

/-- A rollback tests two of the three flags: it settles an open reservation, and one
that was released before. -/
theorem rollback_cases : (∃ reservation stats, engine.reservations.get? rid = some reservation ∧
        (reservation.outcome = none ∨ reservation.outcome = some .released) ∧
        engine.rollback clock rid =
          (true, { engine.settle clock rid reservation .rolledBack with stats }) ∧
        stats.commits = engine.stats.commits) ∨
      ((∀ reservation, engine.reservations.get? rid = some reservation →
          reservation.outcome = some .committed ∨ reservation.outcome = some .rolledBack) ∧
        engine.rollback clock rid = (false, engine)) := by
  rw [rollback]
  cases lookup : engine.reservations.get? rid with
  | none => exact .inr ⟨by simp, rfl⟩
  | some reservation =>
    dsimp only
    cases committed : reservation.committed with
    | true =>
      refine .inr ⟨?_, rfl⟩
      rintro other ⟨rfl⟩
      exact .inl (by simp [BudgetReservation.outcome, committed])
    | false =>
      cases rolledBack : reservation.rolledBack with
      | true =>
        refine .inr ⟨?_, rfl⟩
        rintro other ⟨rfl⟩
        exact .inr (by simp [BudgetReservation.outcome, committed, rolledBack])
      | false =>
        refine .inl ⟨reservation, _, rfl, ?_, rfl, rfl⟩
        cases released : reservation.released with
        | true =>
          exact .inr (by
            simp [BudgetReservation.outcome, committed, rolledBack, released])
        | false =>
          exact .inl (by
            simp [BudgetReservation.outcome, committed, rolledBack, released])

/-- A release tests a single flag: it settles every reservation that was not released
before. -/
theorem release_cases : (∃ reservation, engine.reservations.get? rid = some reservation ∧
        reservation.released = false ∧
        engine.release clock rid = (true, engine.settle clock rid reservation .released)) ∨
      ((∀ reservation, engine.reservations.get? rid = some reservation →
          reservation.released = true) ∧
        engine.release clock rid = (false, engine)) := by
  rw [release]
  cases lookup : engine.reservations.get? rid with
  | none => exact .inr ⟨by simp, rfl⟩
  | some reservation =>
    dsimp only
    cases released : reservation.released with
    | true =>
      refine .inr ⟨?_, rfl⟩
      rintro other ⟨rfl⟩
      exact released
    | false => exact .inl ⟨reservation, rfl, released, rfl⟩

end

variable {rid : ReservationId} {reservation : BudgetReservation}

theorem expire_of_present (clock : Clock)
    (present : engine.reservations.get? rid = some reservation) :
    expire clock engine rid = engine.settle clock rid reservation .released := by
  simp only [expire, present]
  rfl

/-- The outcome of one candidate: a rejection changes the statistics only, an approval
also holds a fresh open reservation for the predicted cost. -/
theorem evaluateCandidate_cases (engine : BudgetEngineImpl) (clock : Clock)
    (candidate : BudgetCandidate) (request : RoutingRequest) (policies : List BudgetPolicy) :
    (∃ stats reason, engine.admission clock request policies
            (estimate candidate.1 candidate.2 request).estimatedCost =
          .error (stats, reason) ∧
        (engine.evaluateCandidate clock candidate request policies).1.approved = false ∧
        (engine.evaluateCandidate clock candidate request policies).1.reservationId = none ∧
        (engine.evaluateCandidate clock candidate request policies).2 = { engine with stats }) ∨
      (∃ loop reservation, engine.admission clock request policies
            (estimate candidate.1 candidate.2 request).estimatedCost =
          .ok loop ∧
        reservation.policyId = loop.effectivePolicyId ∧
        reservation.estimatedCost =
          (estimate candidate.1 candidate.2 request).estimatedCost ∧
        reservation.outcome = none ∧
        (reservation.provider = candidate.1.name ∧ reservation.model = candidate.2.modelId) ∧
        (engine.evaluateCandidate clock candidate request policies).1.approved = true ∧
        (engine.evaluateCandidate clock candidate request policies).1.reservationId =
          some engine.nextReservation ∧
        (engine.evaluateCandidate clock candidate request policies).2 =
          { engine with stats := loop.stats }.hold clock reservation) := by
  rw [evaluateCandidate]
  split
  · rename_i stats reason rejected
    exact .inl ⟨stats, reason, rejected, rfl, rfl, rfl⟩
  · rename_i loop admitted
    exact .inr ⟨loop, _, admitted, rfl, rfl, rfl, ⟨rfl, rfl⟩, rfl, rfl, rfl⟩

def candidateStep (clock : Clock) (request : RoutingRequest) (policies : List BudgetPolicy)
    (engine : BudgetEngineImpl) (candidate : BudgetCandidate) : BudgetEngineImpl :=
  (engine.evaluateCandidate clock candidate request policies).2

theorem evaluateCandidates_snd (engine : BudgetEngineImpl) (clock : Clock)
    (request : RoutingRequest) (policies : List BudgetPolicy) (candidates : List BudgetCandidate) :
    (engine.evaluateCandidates clock request policies candidates).2 =
      run (candidateStep clock request policies) engine candidates := by
  induction candidates generalizing engine with
  | nil => rfl
  | cons candidate rest ih => exact ih _

theorem evaluate_snd (engine : BudgetEngineImpl) (clock : Clock) (evaluationTimeMs : ℚ)
    (candidates : List BudgetCandidate) (request : RoutingRequest) :
    ∃ stats, (engine.evaluate clock evaluationTimeMs candidates request).2 =
      { (if (engine.cleanupExpiredReservations clock).emergencyMode then
            engine.cleanupExpiredReservations clock
          else
            run (candidateStep clock request
                ((engine.cleanupExpiredReservations clock).resolveApplicablePolicies request))
              (engine.cleanupExpiredReservations clock) candidates) with stats } := by
  rw [evaluate]
  split
  · exact ⟨_, rfl⟩
  · rw [← evaluateCandidates_snd]
    exact ⟨_, rfl⟩

/-! ## Rules for invariants -/

section

variable {J : BudgetEngineImpl → Prop} {engine : BudgetEngineImpl} {clock : Clock}

/-- The clean-up settles open reservations only: the expired ids are distinct and each
stays open until its turn. -/
theorem cleanup_preserves (settle : ∀ engine rid reservation, J engine →
      engine.reservations.get? rid = some reservation → reservation.outcome = none →
      J (engine.settle clock rid reservation .released))
    (initially : J engine) : J (engine.cleanupExpiredReservations clock) := by
  have openUntilReached : ∀ (ids : List ReservationId) (current : BudgetEngineImpl),
      ids.Nodup →
      (∀ rid ∈ ids, ∃ reservation, current.reservations.get? rid = some reservation ∧
        reservation.outcome = none) →
      J current → J (ids.foldl (expire clock) current) := by
    intro ids
    induction ids with
    | nil => exact fun _ _ _ holds => holds
    | cons rid ids ih =>
      intro current nodup stillOpen holds
      rcases nodup_cons.mp nodup with ⟨notLater, nodupRest⟩
      obtain ⟨reservation, present, isOpen⟩ := stillOpen rid mem_cons_self
      rw [foldl_cons, expire_of_present clock present]
      refine ih _ nodupRest ?_ (settle _ _ _ holds present isOpen)
      intro other otherMem
      have distinct : other ≠ rid := fun same => notLater (same ▸ otherMem)
      obtain ⟨otherReservation, otherPresent, otherOpen⟩ :=
        stillOpen other (mem_cons_of_mem rid otherMem)
      exact ⟨otherReservation, (get?_set_ne _ distinct _).trans otherPresent, otherOpen⟩
  apply openUntilReached _ _ _ _ initially
  · exact engine.reservations.nodupKeys.sublist (filter_sublist.map _)
  · intro rid ridMem
    obtain ⟨⟨key, reservation⟩, entryMem, rfl⟩ := mem_map.mp ridMem
    rw [mem_filter, Bool.and_eq_true] at entryMem
    exact ⟨reservation, get?_eq_some_iff.mpr entryMem.1,
      (reservation.outcome_eq_none_iff_isOpen).mpr entryMem.2.1⟩

variable {request : RoutingRequest}

theorem evaluate_preserves {candidates : List BudgetCandidate}
    (guard : BudgetEngineImpl → BudgetCandidate → Prop) (evaluationTimeMs : ℚ)
    (restat : ∀ engine stats, J engine → J { engine with stats })
    (candidate : ∀ current candidate, J current → guard current candidate →
      J (candidateStep clock request
        ((engine.cleanupExpiredReservations clock).resolveApplicablePolicies request)
        current candidate))
    (along : (engine.cleanupExpiredReservations clock).emergencyMode = false →
      Along (candidateStep clock request
          ((engine.cleanupExpiredReservations clock).resolveApplicablePolicies request))
        guard (engine.cleanupExpiredReservations clock) candidates)
    (cleaned : J (engine.cleanupExpiredReservations clock)) :
    J (engine.evaluate clock evaluationTimeMs candidates request).2 := by
  obtain ⟨stats, result⟩ := evaluate_snd engine clock evaluationTimeMs candidates request
  rw [result]
  apply restat
  cases emergency : (engine.cleanupExpiredReservations clock).emergencyMode with
  | true => exact cleaned
  | false => exact (along emergency).invariant candidate cleaned

theorem candidateStep_preserves {policies : List BudgetPolicy} {candidate : BudgetCandidate}
    (restat : ∀ engine stats, J engine → J { engine with stats })
    (hold : ∀ engine reservation, J engine → reservation.outcome = none →
      (reservation.policyId ≠ "" → 0 ≤ reservation.estimatedCost) →
      J (engine.hold clock reservation)) (initially : J engine) :
    J (candidateStep clock request policies engine candidate) := by
  rw [candidateStep]
  rcases evaluateCandidate_cases engine clock candidate request policies with
    ⟨stats, _, _, _, _, result⟩ | ⟨loop, reservation, _, _, cost, isOpen, _, _, _, result⟩
  · rw [result]
    exact restat engine stats initially
  · rw [result]
    refine hold _ reservation (restat engine loop.stats initially) isOpen fun _ => ?_
    rw [cost]
    exact estimatedCost_nonneg _ _ _

theorem evaluate_preserves_of_hold {candidates : List BudgetCandidate} (evaluationTimeMs : ℚ)
    (restat : ∀ engine stats, J engine → J { engine with stats })
    (hold : ∀ engine reservation, J engine → reservation.outcome = none →
      (reservation.policyId ≠ "" → 0 ≤ reservation.estimatedCost) →
      J (engine.hold clock reservation)) (cleaned : J (engine.cleanupExpiredReservations clock)) :
    J (engine.evaluate clock evaluationTimeMs candidates request).2 :=
  evaluate_preserves (fun _ _ => True) evaluationTimeMs restat
    (fun _ _ holds _ => candidateStep_preserves restat hold holds)
    (fun _ => .of_forall (fun _ _ => trivial) _ _) cleaned

/-- One rule for all operations. Evaluations are left to `evaluate_preserves`; a
settlement that meets a settled reservation is a release or a rollback. -/
theorem step_preserves {operation : Operation}
    (restat : ∀ engine stats, J engine → J { engine with stats })
    (reserve : ∀ engine clock reservation, J engine → reservation.policyId = "" →
      reservation.outcome = none → J (engine.hold clock reservation))
    (settle : ∀ current clock rid reservation outcome, J current →
      current.reservations.get? rid = some reservation → reservation.outcome = none →
      (outcome = .committed → current = engine ∧ operation = .commit clock rid) →
      J (current.settle clock rid reservation outcome))
    (evaluated : ∀ clock evaluationTimeMs candidates request,
      operation = .evaluate clock evaluationTimeMs candidates request →
      J (engine.cleanupExpiredReservations clock) →
      J (engine.evaluate clock evaluationTimeMs candidates request).2)
    (released : ∀ clock rid reservation, operation = .release clock rid →
      engine.reservations.get? rid = some reservation → reservation.outcome ≠ none →
      reservation.released = false → J (engine.settle clock rid reservation .released))
    (rolledBack : ∀ clock rid reservation, operation = .rollback clock rid →
      engine.reservations.get? rid = some reservation →
      reservation.outcome = some .released →
      J (engine.settle clock rid reservation .rolledBack))
    (initially : J engine) : J (engine.step operation) := by
  have cleaned : ∀ clock, J (engine.cleanupExpiredReservations clock) := fun clock =>
    cleanup_preserves (fun current rid reservation holds present isOpen =>
      settle current clock rid reservation .released holds present isOpen nofun) initially
  cases operation with
  | evaluate clock evaluationTimeMs candidates request =>
    exact evaluated clock evaluationTimeMs candidates request rfl (cleaned clock)
  | reserve clock provider model estimatedCost maxCost scope scopeId =>
    exact reserve _ clock _ (cleaned clock) rfl rfl
  | cleanup clock => exact cleaned clock
  | commit clock rid =>
    simp only [step]
    rcases commit_cases engine clock rid with
      ⟨reservation, stats, present, isOpen, result, _⟩ | ⟨_, result⟩
    · rw [result]
      exact restat _ stats (settle engine clock rid reservation .committed initially present isOpen
        fun _ => ⟨rfl, rfl⟩)
    · rw [result]
      exact initially
  | rollback clock rid =>
    simp only [step]
    rcases rollback_cases engine clock rid with
      ⟨reservation, stats, present, isOpen | wasReleased, result, _⟩ | ⟨_, result⟩
    · rw [result]
      exact restat _ stats
        (settle engine clock rid reservation .rolledBack initially present isOpen nofun)
    · rw [result]
      exact restat _ stats (rolledBack clock rid reservation rfl present wasReleased)
    · rw [result]
      exact initially
  | release clock rid =>
    simp only [step]
    rcases release_cases engine clock rid with
      ⟨reservation, present, notReleased, result⟩ | ⟨_, result⟩
    · rw [result]
      by_cases isOpen : reservation.outcome = none
      · exact settle engine clock rid reservation .released initially present isOpen nofun
      · exact released clock rid reservation rfl present isOpen notReleased
    · rw [result]
      exact initially

end

/-- What the engine's records always satisfy. -/
structure WellFormed (engine : BudgetEngineImpl) : Prop where
  fresh : ∀ rid reservation, engine.reservations.get? rid = some reservation →
    rid < engine.nextReservation
  exclusive : ∀ rid reservation, engine.reservations.get? rid = some reservation →
    reservation.Exclusive
  nonneg : ∀ rid reservation, engine.reservations.get? rid = some reservation →
    reservation.policyId ≠ "" → 0 ≤ reservation.estimatedCost

theorem Configured.wellFormed (configured : Configured engine) : WellFormed engine := by
  constructor <;> simp [configured.noReservations]

section

variable (wellFormed : WellFormed engine)
include wellFormed

theorem WellFormed.restat (stats : BudgetStatistics) : WellFormed { engine with stats } :=
  ⟨wellFormed.fresh, wellFormed.exclusive, wellFormed.nonneg⟩

theorem WellFormed.lookup_next : engine.reservations.get? engine.nextReservation = none := by
  cases lookup : engine.reservations.get? engine.nextReservation with
  | none => rfl
  | some reservation => exact absurd (wellFormed.fresh _ _ lookup) (Nat.lt_irrefl _)

theorem WellFormed.settle (clock : Clock) (outcome : Outcome)
    (present : engine.reservations.get? rid = some reservation) :
    WellFormed (engine.settle clock rid reservation outcome) := by
  constructor
  · intro other stored lookup
    simp only [BudgetEngineImpl.settle, get?_set] at lookup ⊢
    split at lookup
    · rename_i same
      exact same ▸ wellFormed.fresh rid reservation present
    · exact wellFormed.fresh other stored lookup
  · intro other stored lookup
    simp only [BudgetEngineImpl.settle, get?_set] at lookup
    split at lookup
    · cases lookup
      exact reservation.exclusive_settled outcome
    · exact wellFormed.exclusive other stored lookup
  · intro other stored lookup
    simp only [BudgetEngineImpl.settle, get?_set] at lookup
    split at lookup
    · cases lookup
      simpa using wellFormed.nonneg rid reservation present
    · exact wellFormed.nonneg other stored lookup

theorem WellFormed.hold (clock : Clock) (isOpen : reservation.outcome = none)
    (nonneg : reservation.policyId ≠ "" → 0 ≤ reservation.estimatedCost) :
    WellFormed (engine.hold clock reservation) := by
  constructor
  · intro other stored lookup
    simp only [BudgetEngineImpl.hold, get?_set] at lookup ⊢
    split at lookup
    · rename_i same
      exact same ▸ Nat.lt_succ_self _
    · exact Nat.lt_succ_of_lt (wellFormed.fresh other stored lookup)
  · intro other stored lookup
    simp only [BudgetEngineImpl.hold, get?_set] at lookup
    split at lookup
    · cases lookup
      have flags := (reservation.outcome_eq_none_iff_isOpen).mp isOpen
      simp only [BudgetReservation.isOpen, Bool.and_eq_true, Bool.not_eq_true'] at flags
      simp [BudgetReservation.Exclusive, flags]
    · exact wellFormed.exclusive other stored lookup
  · intro other stored lookup
    simp only [BudgetEngineImpl.hold, get?_set] at lookup
    split at lookup
    · cases lookup
      exact nonneg
    · exact wellFormed.nonneg other stored lookup

theorem WellFormed.step (operation : Operation) : WellFormed (engine.step operation) := by
  apply step_preserves (fun _ stats holds => holds.restat stats) _ _ _ _ _ wellFormed
  · intro engine clock reservation holds noPolicy isOpen
    exact holds.hold clock isOpen fun policy => absurd noPolicy policy
  · intro engine clock rid reservation outcome holds present _ _
    exact holds.settle clock outcome present
  · intro clock evaluationTimeMs candidates request _ cleaned
    exact evaluate_preserves_of_hold evaluationTimeMs (fun _ stats holds => holds.restat stats)
      (fun _ _ holds isOpen nonneg => holds.hold clock isOpen nonneg) cleaned
  · intro clock rid reservation _ present _ _
    exact wellFormed.settle clock .released present
  · intro clock rid reservation _ present _
    exact wellFormed.settle clock .rolledBack present

end

/-! ## Amounts held and amounts open -/

def held (engine : BudgetEngineImpl) (policyId : String) : ℚ :=
  engine.usageTracker.activeReservations policyId

def openShare (policyId : String) (reservation : BudgetReservation) : ℚ :=
  if reservation.outcome = none ∧ reservation.policyId = policyId then
    reservation.estimatedCost
  else 0

def openCost (engine : BudgetEngineImpl) (policyId : String) : ℚ :=
  engine.reservations.sumBy fun _ reservation => openShare policyId reservation

theorem Configured.openCost (configured : Configured engine) (policyId : String) :
    engine.openCost policyId = 0 := by
  simp [BudgetEngineImpl.openCost, configured.noReservations]

theorem Configured.held (configured : Configured engine) (policyId : String) :
    engine.held policyId = 0 := by
  simp [BudgetEngineImpl.held, configured.noUsage]

variable {policyId : String}

theorem openShare_nonneg (policy : policyId ≠ "")
    (nonneg : reservation.policyId ≠ "" → 0 ≤ reservation.estimatedCost) :
    0 ≤ openShare policyId reservation := by
  rw [openShare]
  split
  · rename_i charged
    exact nonneg (charged.2 ▸ policy)
  · exact le_refl 0

theorem WellFormed.openCost_nonneg (wellFormed : WellFormed engine) (policy : policyId ≠ "") :
    0 ≤ engine.openCost policyId :=
  sumBy_nonneg fun rid reservation entryMem =>
    openShare_nonneg policy (wellFormed.nonneg rid reservation (get?_eq_some_iff.mpr entryMem))

theorem WellFormed.estimatedCost_le_openCost (wellFormed : WellFormed engine)
    (present : engine.reservations.get? rid = some reservation)
    (isOpen : reservation.outcome = none) (policy : reservation.policyId ≠ "") :
    reservation.estimatedCost ≤ engine.openCost reservation.policyId := by
  have share : openShare reservation.policyId reservation = reservation.estimatedCost := by
    simp [openShare, isOpen]
  rw [← share]
  apply single_le_sum
  · intro term termMem
    obtain ⟨⟨key, stored⟩, entryMem, rfl⟩ := mem_map.mp termMem
    exact openShare_nonneg policy
      (wellFormed.nonneg key stored (get?_eq_some_iff.mpr entryMem))
  · exact mem_map.mpr ⟨_, get?_eq_some_iff.mp present, rfl⟩

theorem openCost_hold (wellFormed : WellFormed engine) (clock : Clock)
    (reservation : BudgetReservation) (policyId : String) :
    (engine.hold clock reservation).openCost policyId =
      engine.openCost policyId + openShare policyId reservation :=
  sumBy_set_of_none wellFormed.lookup_next _ _

theorem openCost_settle (clock : Clock) (outcome : Outcome)
    (present : engine.reservations.get? rid = some reservation) (policyId : String) :
    (engine.settle clock rid reservation outcome).openCost policyId =
      engine.openCost policyId - openShare policyId reservation := by
  have settledShare : openShare policyId (reservation.settled outcome) = 0 := by simp [openShare]
  calc
    _ = engine.openCost policyId - openShare policyId reservation +
          openShare policyId (reservation.settled outcome) :=
        sumBy_set_of_some present _ _
    _ = _ := by rw [settledShare, add_zero]

section

variable (engine : BudgetEngineImpl) (clock : Clock)

theorem held_hold (reservation : BudgetReservation) (policy : policyId ≠ "") :
    (engine.hold clock reservation).held policyId =
      engine.held policyId +
        if policyId = reservation.policyId then reservation.estimatedCost else 0 := by
  unfold held hold
  split
  · rename_i noPolicy
    simp [noPolicy, policy]
  · exact activeReservations_addReservation _ _ _ _ _

theorem held_settle (rid : ReservationId) (reservation : BudgetReservation) (outcome : Outcome)
    (policy : policyId ≠ "") :
    (engine.settle clock rid reservation outcome).held policyId =
      engine.held policyId -
        if policyId = reservation.policyId ∧ 0 < engine.held reservation.policyId then
          reservation.estimatedCost
        else 0 := by
  have untracked : (engine.untrack clock reservation).activeReservations policyId =
      engine.held policyId -
        if policyId = reservation.policyId ∧ 0 < engine.held reservation.policyId then
          reservation.estimatedCost
        else 0 := by
    rw [untrack]
    split
    · rename_i noPolicy
      simp [noPolicy, policy, held]
    · exact activeReservations_removeReservation _ _ _ _ _
  cases outcome with
  | committed =>
    rw [← untracked, held, settle]
    split
    · rename_i noPolicy
      simp [untrack, noPolicy]
    · exact activeReservations_recordSpend _ _ _ _ _ _ _
  | rolledBack | released => exact untracked

/-- A settlement adds to a policy's total exactly if it is a commit on its account. -/
theorem totalSpent_settle (rid : ReservationId) (reservation : BudgetReservation)
    (outcome : Outcome) (policyId : String) :
    (engine.settle clock rid reservation outcome).usageTracker.totalSpent policyId =
      engine.usageTracker.totalSpent policyId +
        if outcome = .committed ∧ reservation.policyId ≠ "" ∧ policyId = reservation.policyId then
          reservation.estimatedCost
        else 0 := by
  have untracked : (engine.untrack clock reservation).totalSpent policyId =
      engine.usageTracker.totalSpent policyId := by
    rw [untrack]
    split
    · rfl
    · exact totalSpent_removeReservation _ _ _ _ _
  cases outcome with
  | committed =>
    rw [settle]
    split
    · rename_i noPolicy
      simp [noPolicy]
    · rename_i policy
      rw [totalSpent_recordSpend, untracked]
      simp [policy]
  | rolledBack | released => simpa [settle] using untracked

@[simp]
theorem totalSpent_hold (reservation : BudgetReservation) (policyId : String) :
    (engine.hold clock reservation).usageTracker.totalSpent policyId =
      engine.usageTracker.totalSpent policyId := by
  rw [hold]
  split
  · rfl
  · exact totalSpent_addReservation _ _ _ _ _

end

/-! ## A small engine

One provider, models of a chosen predicted cost, and requests without features: the
inputs of the concrete runs in the following modules. -/

def sampleProvider : OmniRouteProvider :=
  { id := "p1", name := "acme", healthy := true }

/-- A model for which the predictor estimates the given cost. -/
def sampleModel (cost : ℚ) : OmniRouteModel :=
  { modelId := "m1", provider := "acme", providerId := "p1", outputCostPer1k := 5 * cost }

def sampleRequest : RoutingRequest :=
  { requestId := "r1", workspace := "w" }

def sampleClock : Clock :=
  ⟨0, 0⟩

def samplePolicy : BudgetPolicy :=
  { id := "team", maxSpendTotal := 10 }

def sampleEvaluate (cost : ℚ) : Operation :=
  .evaluate sampleClock 1 [(sampleProvider, sampleModel cost)] sampleRequest

end BudgetEngineImpl

end AgenticOS.OmniRoute
