import AgenticOS.OmniRoute.Budgets.SpendCap
import AgenticOS.OmniRoute.Router.Constraints

/-!
# What a routing call consumes

The router asks its engines about every candidate that is left when their turn comes. An
engine takes something for the candidates it lets pass, before it is known which of them is
selected and whether any is: the budget engine holds a reservation, the rate limiter a token
or a place in a window, the scheduler a place in a queue, the circuit breaker a probe. An engine
that the call does not reach is left as it is, and one that it reaches changes only for the
candidates. Reservations, tokens and places stay taken, however the call goes on.
-/

namespace AgenticOS.OmniRoute

open List RouterEngineImpl

namespace BudgetEngineImpl

def ReservedFor (reservation : BudgetReservation) (candidate : BudgetCandidate) : Prop :=
  reservation.provider = candidate.1.name ∧ reservation.model = candidate.2.modelId

section

variable (engine : BudgetEngineImpl) (clock : Clock)
include engine clock

/-- Beside the reservations it finds, the loop leaves only new ones for candidates that it
approves. -/
theorem evaluateCandidates_reserves_for (request : RoutingRequest) (policies : List BudgetPolicy)
    (candidates : List BudgetCandidate) (rid : ReservationId) :
    let after := engine.evaluateCandidates clock request policies candidates
    after.2.reservations.get? rid = engine.reservations.get? rid ∨
      engine.nextReservation ≤ rid ∧ ∃ reservation,
        after.2.reservations.get? rid = some reservation ∧
          ∃ entry ∈ candidates.zip after.1, entry.2.approved ∧
            ReservedFor reservation entry.1 := by
  induction candidates generalizing engine with
  | nil => exact .inl rfl
  | cons candidate rest ih =>
    dsimp only [evaluateCandidates]
    have later := ih (engine.evaluateCandidate clock candidate request policies).2
    rcases evaluateCandidate_cases engine clock candidate request policies with
      ⟨stats, _, _, _, _, result⟩ | ⟨loop, reservation, _, _, _, _, names, approved, _, result⟩
    · rw [result] at later ⊢
      rcases later with same | ⟨fresh, added, present, entry, entryMem, granted⟩
      · exact .inl same
      · exact .inr ⟨fresh, added, present, entry, mem_cons_of_mem _ entryMem, granted⟩
    · rw [result] at later ⊢
      rcases later with same | ⟨fresh, added, present, entry, entryMem, granted⟩
      · by_cases held : rid = engine.nextReservation
        · subst held
          refine .inr ⟨le_refl _, reservation, ?_, _, mem_cons_self, approved, names⟩
          exact same.trans (Dict.get?_set_self _ _ _)
        · exact .inl (same.trans (Dict.get?_set_ne _ held _))
      · refine .inr ⟨?_, added, present, entry, mem_cons_of_mem _ entryMem, granted⟩
        exact le_trans (Nat.le_succ _) fresh

/-- Each approved candidate has an open reservation when the loop ends. -/
theorem evaluateCandidates_holds (request : RoutingRequest) (policies : List BudgetPolicy)
    (candidates : List BudgetCandidate) :
    let after := engine.evaluateCandidates clock request policies candidates
    ∀ entry ∈ candidates.zip after.1, entry.2.approved → ∃ rid reservation,
      entry.2.reservationId = some rid ∧ after.2.reservations.get? rid = some reservation ∧
        reservation.outcome = none ∧ ReservedFor reservation entry.1 := by
  induction candidates generalizing engine with
  | nil => simp
  | cons candidate rest ih =>
    dsimp only [evaluateCandidates]
    intro entry member approved
    rcases mem_cons.mp member with rfl | later
    · rcases evaluateCandidate_cases engine clock candidate request policies with
        ⟨_, _, _, rejected, _⟩ | ⟨loop, reservation, _, _, _, isOpen, names, _, id, result⟩
      · rw [rejected] at approved
        cases approved
      · refine ⟨_, reservation, id, ?_, isOpen, names⟩
        rw [result]
        rcases evaluateCandidates_reserves_for
            ({ engine with stats := loop.stats }.hold clock reservation) clock request policies rest
            engine.nextReservation with same | ⟨fresh, _⟩
        · exact same.trans (Dict.get?_set_self _ _ _)
        · exact absurd fresh (Nat.not_succ_le_self _)
    · exact ih _ entry later approved

theorem nextReservation_cleanup :
    (engine.cleanupExpiredReservations clock).nextReservation = engine.nextReservation :=
  cleanup_preserves (J := fun current => current.nextReservation = engine.nextReservation)
    (fun _ _ _ same _ _ => same) rfl

/-- What an evaluation with these answers takes: it holds an open reservation for each candidate
that it approves, and adds no other. -/
structure Takes (clock : Clock) (answers : List (BudgetCandidate × BudgetResult))
    (before after : BudgetEngineImpl) : Prop where
  reservations : ∀ rid,
    after.reservations.get? rid =
        (before.cleanupExpiredReservations clock).reservations.get? rid ∨
      before.nextReservation ≤ rid ∧ ∃ reservation,
        after.reservations.get? rid = some reservation ∧
          ∃ entry ∈ answers, entry.2.approved ∧ ReservedFor reservation entry.1
  held : ∀ entry ∈ answers, entry.2.approved → ∃ rid reservation,
    entry.2.reservationId = some rid ∧ after.reservations.get? rid = some reservation ∧
      reservation.outcome = none ∧ ReservedFor reservation entry.1
  spent : ∀ policyId,
    after.usageTracker.totalSpent policyId = before.usageTracker.totalSpent policyId

theorem evaluate_takes (evaluationTimeMs : ℚ) (candidates : List BudgetCandidate)
    (request : RoutingRequest) :
    let evaluated := engine.evaluate clock evaluationTimeMs candidates request
    Takes clock (candidates.zip evaluated.1.results) engine evaluated.2 := by
  refine ⟨?_, ?_, engine.totalSpent_evaluate _ _ _ _⟩
  · intro rid
    rw [← nextReservation_cleanup engine clock, evaluate]
    split
    · exact .inl rfl
    · exact evaluateCandidates_reserves_for _ clock request _ candidates rid
  · rw [evaluate]
    split
    · simp
    · exact evaluateCandidates_holds _ clock request _ candidates

end

end BudgetEngineImpl

namespace RateLimiterEngineImpl

/-- What the loop over the candidates takes: from policies that match one of them, and
places in the queue for them. -/
structure Takes (request : RoutingRequest) (asked : List Candidate)
    (before after : RateLimiterEngineImpl) : Prop where
  policies : ∀ key,
    (∀ candidate ∈ asked, ∀ state, before.policies.get? key = some state →
      ¬ Matches state.policy (permitRequest request candidate)) →
    after.policies.get? key = before.policies.get? key
  queued : ∃ added,
    after.queueManager.entries.Perm (added ++ before.queueManager.entries) ∧
      ∀ entry ∈ added, ∃ candidate ∈ asked,
        entry.provider = candidate.provider.name ∧ entry.model = candidate.model.modelId

variable {request : RoutingRequest} {asked : List Candidate}

theorem Takes.refl (engine : RateLimiterEngineImpl) : Takes request asked engine engine where
  policies := fun _ _ => rfl
  queued := ⟨[], .refl _, by simp⟩

theorem Takes.cons {candidate : Candidate} {first second third : RateLimiterEngineImpl}
    (one : Takes request [candidate] first second) (rest : Takes request asked second third) :
    Takes request (candidate :: asked) first third where
  policies := by
    intro key unmatched
    have same : second.policies.get? key = first.policies.get? key := by
      apply one.policies
      intro other otherMem
      rw [mem_singleton.mp otherMem]
      exact unmatched candidate mem_cons_self
    rw [← same]
    apply rest.policies
    intro other otherMem
    rw [same]
    exact unmatched other (mem_cons_of_mem candidate otherMem)
  queued := by
    obtain ⟨oneAdded, onePerm, oneFor⟩ := one.queued
    obtain ⟨restAdded, restPerm, restFor⟩ := rest.queued
    refine ⟨restAdded ++ oneAdded, ?_, ?_⟩
    · rw [append_assoc]
      exact restPerm.trans (onePerm.append_left restAdded)
    · intro entry entryMem
      rcases mem_append.mp entryMem with inRest | inOne
      · obtain ⟨other, otherMem, named⟩ := restFor entry inRest
        exact ⟨other, mem_cons_of_mem candidate otherMem, named⟩
      · obtain ⟨other, otherMem, named⟩ := oneFor entry inOne
        rw [mem_singleton.mp otherMem] at named
        exact ⟨candidate, mem_cons_self, named⟩

theorem evaluate_takes (engine : RateLimiterEngineImpl) (instant : Instant)
    (request : RoutingRequest) (candidate : Candidate) : Takes request [candidate] engine
      (engine.evaluate instant (permitRequest request candidate)).2 := by
  have frame := evaluate_frame engine instant (permitRequest request candidate)
  constructor
  · intro key unmatched
    exact frame.1 key (unmatched candidate mem_cons_self)
  · obtain ⟨added, perm, named⟩ := frame.2
    exact ⟨added, perm, fun entry entryMem =>
      ⟨candidate, mem_cons_self, named entry entryMem⟩⟩

theorem limitCandidates_takes (request : RoutingRequest) (times : Nat → Instant)
    (limiter : RateLimiterEngineImpl) (candidates remaining : List Candidate) :
    Takes request candidates limiter
      (RouterEngineImpl.limitCandidates request times limiter candidates remaining).2 := by
  induction candidates generalizing times limiter remaining with
  | nil => exact .refl limiter
  | cons candidate rest ih =>
    have one := evaluate_takes limiter (times 0) request candidate
    rw [RouterEngineImpl.limitCandidates]
    split
    next raised =>
      rw [raised] at one
      exact one.cons (.refl _)
    next answered =>
      rw [answered] at one
      exact one.cons (ih ..)

end RateLimiterEngineImpl

namespace SchedulerEngineImpl

/-- What the loop over the candidates takes: places in the queues, and load, for the
candidates that the scheduler queues. -/
structure Takes (queued : List Candidate) (before after : SchedulerEngineImpl) : Prop where
  kept : ∀ entry, before.Holds entry → after.Holds entry
  added : ∀ entry, after.Holds entry → before.Holds entry ∨ ∃ candidate ∈ queued,
    entry.item.provider = candidate.provider.name ∧ entry.item.model = candidate.model.modelId
  loads : ∀ provider, (∀ candidate ∈ queued, provider ≠ candidate.provider.name) →
    after.balancer.providerLoads.get? provider = before.balancer.providerLoads.get? provider

variable {queued : List Candidate}

theorem Takes.refl (engine : SchedulerEngineImpl) : Takes queued engine engine where
  kept := fun _ holds => holds
  added := fun _ holds => .inl holds
  loads := fun _ _ => rfl

theorem Takes.trans {first second third : SchedulerEngineImpl}
    (earlier : Takes queued first second) (later : Takes queued second third) :
    Takes queued first third where
  kept := fun entry holds => later.kept entry (earlier.kept entry holds)
  added := by
    intro entry holds
    rcases later.added entry holds with held | named
    · exact earlier.added entry held
    · exact .inr named
  loads := fun provider others =>
    (later.loads provider others).trans (earlier.loads provider others)

theorem schedule_takes (engine : SchedulerEngineImpl) (instant : Instant) (candidate : Candidate)
    (accepted : (engine.schedule instant (scheduleRequest candidate)).1.queued →
      candidate ∈ queued) : Takes queued engine
      (engine.schedule instant (scheduleRequest candidate)).2 where
  kept := fun entry =>
    (holds_schedule engine instant (scheduleRequest candidate) entry).1
  added := by
    intro entry holds
    have origin := (holds_schedule engine instant (scheduleRequest candidate) entry).2 holds
    rcases origin with before | ⟨isQueued, rfl⟩
    · exact .inl before
    · exact .inr ⟨candidate, accepted isQueued, rfl, rfl⟩
  loads := by
    intro provider others
    apply providerLoads_schedule
    intro isQueued
    exact others candidate (accepted isQueued)

section

variable (times : Nat → Instant) (scheduler : SchedulerEngineImpl)
  (candidates remaining : List Candidate)

theorem count_le_scheduleCandidates (candidate : Candidate) : remaining.count candidate ≤
      (RouterEngineImpl.scheduleCandidates times scheduler candidates remaining).1.count
        candidate + candidates.count candidate := by
  induction candidates generalizing times scheduler remaining with
  | nil => exact Nat.le_refl _
  | cons asked rest ih =>
    rw [RouterEngineImpl.scheduleCandidates]
    dsimp only
    rw [count_cons]
    split
    · have kept := ih (fun index => times (index + 1))
        (scheduler.schedule (times 0) (scheduleRequest asked)).2 remaining
      omega
    · have erased := ih (fun index => times (index + 1))
        (scheduler.schedule (times 0) (scheduleRequest asked)).2
        (remaining.erase asked)
      rw [count_erase] at erased
      omega

/-- A candidate that is queued is still there when the loop ends. -/
theorem scheduleCandidates_takes
    (listed : ∀ candidate, candidates.count candidate ≤ remaining.count candidate) :
    Takes (RouterEngineImpl.scheduleCandidates times scheduler candidates remaining).1 scheduler
      (RouterEngineImpl.scheduleCandidates times scheduler candidates remaining).2 := by
  induction candidates generalizing times scheduler remaining with
  | nil => exact .refl scheduler
  | cons asked rest ih =>
    have stays := count_le_scheduleCandidates (fun index => times (index + 1))
      (scheduler.schedule (times 0) (scheduleRequest asked)).2 rest remaining
      asked
    have askedListed := listed asked
    rw [count_cons_self] at askedListed
    rw [RouterEngineImpl.scheduleCandidates]
    dsimp only
    split
    next isQueued =>
      have later := ih (fun index => times (index + 1))
        (scheduler.schedule (times 0) (scheduleRequest asked)).2 remaining
        fun candidate => le_trans (count_le_count_cons) (listed candidate)
      apply Takes.trans _ later
      apply schedule_takes
      intro _
      rw [← count_pos_iff]
      omega
    next refused =>
      have later := ih (fun index => times (index + 1))
        (scheduler.schedule (times 0) (scheduleRequest asked)).2
        (remaining.erase asked) (by
          intro candidate
          have before := listed candidate
          rw [count_cons] at before
          rw [count_erase]
          omega)
      apply Takes.trans _ later
      apply schedule_takes
      intro isQueued
      exact absurd isQueued refused

end

end SchedulerEngineImpl

/-! ## The circuit breaker -/

namespace CircuitBreakerEngineImpl

/-- What the loop over the candidates takes: probes of the providers of candidates that are
allowed. -/
def Takes (allowed : List Candidate) (before after : CircuitBreakerEngineImpl) : Prop :=
  ∀ provider, (∀ candidate ∈ allowed, provider ≠ candidate.provider.name) →
    after.providers.get? provider = before.providers.get? provider

theorem filterCircuitBreaker_takes (times : Nat → Timestamp)
    (breaker : CircuitBreakerEngineImpl) (candidates : List Candidate) :
    Takes (RouterEngineImpl.filterCircuitBreaker times breaker candidates).1 breaker
      (RouterEngineImpl.filterCircuitBreaker times breaker candidates).2 := by
  induction candidates generalizing times breaker with
  | nil => exact fun _ _ => rfl
  | cons candidate rest ih =>
    intro provider others
    unfold RouterEngineImpl.filterCircuitBreaker at others ⊢
    dsimp only at others ⊢
    split at others
    next allowed =>
      rw [ih _ _ provider fun other otherMem => others other (mem_cons_of_mem _ otherMem)]
      exact get?_allowRequest _ _ (others candidate mem_cons_self)
    next refused =>
      rw [ih _ _ provider others, allowRequest_of_refused (Bool.eq_false_iff.mpr refused)]

end CircuitBreakerEngineImpl

namespace RouterEngineImpl

/-- The call that the budget engine gets. -/
def evaluateBudget (times : RouteTimes) (request : RoutingRequest) (budget : BudgetEngineImpl)
    (candidates : List Candidate) : BudgetDecision × BudgetEngineImpl :=
  budget.evaluate times.budget times.budgetEvaluationMs
    (candidates.map fun candidate => (candidate.provider, candidate.model)) request

/-- What a stage does to its engine. The engine stays as it is where the stage is not reached;
otherwise it takes something for the candidates that it is asked about. -/
def StageTakes {Engine : Type} (reached : Except Failure (List Candidate))
    (takes : List Candidate → Engine → Engine → Prop) (before after : Option Engine) : Prop :=
  match reached, before with
  | .ok asked, some engine => ∃ next, after = some next ∧ takes asked engine next
  | _, _ => after = before

def afterBudget (times : RouteTimes) (request : RoutingRequest)
    (found : Except Failure (List Candidate)) (engines : Engines) : Consultation :=
  andThen (consultBudget times request) (found, engines)

def afterRateLimiter (times : RouteTimes) (request : RoutingRequest)
    (found : Except Failure (List Candidate)) (engines : Engines) : Consultation :=
  andThen (consultRateLimiter times request) (afterBudget times request found engines)

def afterScheduler (times : RouteTimes) (request : RoutingRequest)
    (found : Except Failure (List Candidate)) (engines : Engines) : Consultation :=
  andThen (consultScheduler times) (afterRateLimiter times request found engines)

/-- What a call does to the four engines, by the candidates that each of them is asked about. What
the budget engine, the rate limiter and the scheduler have taken by their own calls for these
candidates is there when the call ends. -/
structure ConsumedFor (times : RouteTimes) (request : RoutingRequest)
    (found : Except Failure (List Candidate)) (before after : Engines) : Prop where
  budgetEngine : StageTakes found
    (fun asked engine next => next = (evaluateBudget times request engine asked).2 ∧
      BudgetEngineImpl.Takes times.budget
        ((asked.map fun candidate => (candidate.provider, candidate.model)).zip
          (evaluateBudget times request engine asked).1.results) engine next)
    before.budgetEngine after.budgetEngine
  rateLimiter : StageTakes (afterBudget times request found before).1
    (fun asked engine next =>
      next = (limitCandidates request times.rateLimiter engine asked asked).2 ∧
        RateLimiterEngineImpl.Takes request asked engine next)
    before.rateLimiter after.rateLimiter
  scheduler : StageTakes (afterRateLimiter times request found before).1
    (fun asked engine next =>
      next = (scheduleCandidates times.scheduler engine asked asked).2 ∧
        SchedulerEngineImpl.Takes (scheduleCandidates times.scheduler engine asked asked).1 engine
          next)
    before.scheduler after.scheduler
  circuitBreaker : StageTakes (afterScheduler times request found before).1
    (fun asked engine => CircuitBreakerEngineImpl.Takes
      (filterCircuitBreaker times.circuitBreaker engine asked).1 engine)
    before.circuitBreaker after.circuitBreaker

section

variable {stage : Engines → List Candidate → Consultation} (consultation : Consultation)

theorem andThen_takes {Engine : Type} {engine : Engines → Option Engine}
    {takes : List Candidate → Engine → Engine → Prop}
    (stageTakes : ∀ engines asked, StageTakes (.ok asked) takes (engine engines)
      (engine (stage engines asked).2)) : StageTakes consultation.1 takes (engine consultation.2)
      (engine (andThen stage consultation).2) := by
  rcases consultation with ⟨result, engines⟩
  cases result with
  | error failure => rfl
  | ok asked => exact stageTakes engines asked

theorem andThen_keeps {Part : Type} (part : Engines → Part)
    (keeps : ∀ engines asked, part (stage engines asked).2 = part engines) :
    part (andThen stage consultation).2 = part consultation.2 := by
  rcases consultation with ⟨result, engines⟩
  cases result with
  | error failure => rfl
  | ok asked => exact keeps engines asked

end

variable (times : RouteTimes) (request : RoutingRequest) (engines : Engines)
variable (candidates : List Candidate)

theorem consultBudget_takes : StageTakes (.ok candidates)
      (fun asked engine next => next = (evaluateBudget times request engine asked).2 ∧
        BudgetEngineImpl.Takes times.budget
          ((asked.map fun candidate => (candidate.provider, candidate.model)).zip
            (evaluateBudget times request engine asked).1.results) engine next)
      engines.budgetEngine (consultBudget times request engines candidates).2.budgetEngine := by
  rw [consultBudget]
  cases attached : engines.budgetEngine with
  | none => exact attached
  | some budget =>
    have taken := budget.evaluate_takes times.budget times.budgetEvaluationMs
      (candidates.map fun candidate => (candidate.provider, candidate.model)) request
    dsimp only
    split
    · split
      · exact ⟨_, rfl, rfl, taken⟩
      · exact ⟨_, rfl, rfl, taken⟩
    · exact ⟨_, rfl, rfl, taken⟩

theorem consultBudget_keeps :
    { (consultBudget times request engines candidates).2 with budgetEngine := none } =
      { engines with budgetEngine := none } := by
  rw [consultBudget]
  cases engines.budgetEngine with
  | none => rfl
  | some budget =>
    dsimp only
    split
    · split
      · rfl
      · rfl
    · rfl

theorem consultRateLimiter_takes : StageTakes (.ok candidates)
      (fun asked engine next =>
        next = (limitCandidates request times.rateLimiter engine asked asked).2 ∧
          RateLimiterEngineImpl.Takes request asked engine next)
      engines.rateLimiter (consultRateLimiter times request engines candidates).2.rateLimiter := by
  rw [consultRateLimiter]
  cases attached : engines.rateLimiter with
  | none => exact attached
  | some limiter =>
    exact ⟨_, rfl, rfl, RateLimiterEngineImpl.limitCandidates_takes request times.rateLimiter
      limiter candidates candidates⟩

theorem consultRateLimiter_keeps :
    { (consultRateLimiter times request engines candidates).2 with rateLimiter := none } =
      { engines with rateLimiter := none } := by
  rw [consultRateLimiter]
  cases engines.rateLimiter <;> rfl

theorem consultScheduler_takes : StageTakes (.ok candidates)
      (fun asked engine next =>
        next = (scheduleCandidates times.scheduler engine asked asked).2 ∧
          SchedulerEngineImpl.Takes (scheduleCandidates times.scheduler engine asked asked).1
            engine next)
      engines.scheduler (consultScheduler times engines candidates).2.scheduler := by
  rw [consultScheduler]
  cases attached : engines.scheduler with
  | none => exact attached
  | some scheduler =>
    exact ⟨_, rfl, rfl, SchedulerEngineImpl.scheduleCandidates_takes times.scheduler scheduler
      candidates candidates fun _ => le_refl _⟩

theorem consultScheduler_keeps :
    { (consultScheduler times engines candidates).2 with scheduler := none } =
      { engines with scheduler := none } := by
  rw [consultScheduler]
  cases engines.scheduler <;> rfl

theorem consultCircuitBreaker_takes : StageTakes (.ok candidates)
      (fun asked engine => CircuitBreakerEngineImpl.Takes
        (filterCircuitBreaker times.circuitBreaker engine asked).1 engine)
      engines.circuitBreaker (consultCircuitBreaker times engines candidates).2.circuitBreaker := by
  rw [consultCircuitBreaker]
  cases attached : engines.circuitBreaker with
  | none => exact attached
  | some breaker =>
    exact ⟨_, rfl, CircuitBreakerEngineImpl.filterCircuitBreaker_takes times.circuitBreaker
      breaker candidates⟩

theorem consultCircuitBreaker_keeps :
    { (consultCircuitBreaker times engines candidates).2 with circuitBreaker := none } =
      { engines with circuitBreaker := none } := by
  rw [consultCircuitBreaker]
  cases engines.circuitBreaker <;> rfl

/-- The four stages together: each engine is changed by its own stage only. -/
theorem stages_consume (found : Except Failure (List Candidate)) :
    ConsumedFor times request found engines (andThen (consultCircuitBreaker times)
        (afterScheduler times request found engines)).2 := by
  have atBudget := andThen_keeps (found, engines)
    (fun engines : Engines => { engines with budgetEngine := none })
    (consultBudget_keeps times request)
  have atLimiter := andThen_keeps (afterBudget times request found engines)
    (fun engines : Engines => { engines with rateLimiter := none })
    (consultRateLimiter_keeps times request)
  have atScheduler := andThen_keeps (afterRateLimiter times request found engines)
    (fun engines : Engines => { engines with scheduler := none })
    (consultScheduler_keeps times)
  have atBreaker := andThen_keeps (afterScheduler times request found engines)
    (fun engines : Engines => { engines with circuitBreaker := none })
    (consultCircuitBreaker_keeps times)
  simp only [Engines.mk.injEq, true_and, and_true] at atBudget atLimiter atScheduler atBreaker
  obtain ⟨limiterAtBudget, schedulerAtBudget, breakerAtBudget⟩ := atBudget
  obtain ⟨budgetAtLimiter, schedulerAtLimiter, breakerAtLimiter⟩ := atLimiter
  obtain ⟨budgetAtScheduler, limiterAtScheduler, breakerAtScheduler⟩ := atScheduler
  obtain ⟨budgetAtBreaker, limiterAtBreaker, schedulerAtBreaker⟩ := atBreaker
  constructor
  · have taken := andThen_takes (found, engines) (consultBudget_takes times request)
    rw [budgetAtBreaker]
    exact budgetAtScheduler.trans budgetAtLimiter ▸ taken
  · have taken := andThen_takes (afterBudget times request found engines)
      (consultRateLimiter_takes times request)
    rw [limiterAtBreaker]
    exact limiterAtScheduler ▸ limiterAtBudget ▸ taken
  · have taken := andThen_takes (afterRateLimiter times request found engines)
      (consultScheduler_takes times)
    rw [schedulerAtBreaker]
    exact schedulerAtLimiter.trans schedulerAtBudget ▸ taken
  · have taken := andThen_takes (afterScheduler times request found engines)
      (consultCircuitBreaker_takes times)
    exact breakerAtScheduler.trans (breakerAtLimiter.trans breakerAtBudget) ▸ taken

theorem asked_subset {asked : List Candidate}
    (reached : (afterBudget times request (.ok candidates) engines).1 = .ok asked ∨
      (afterRateLimiter times request (.ok candidates) engines).1 = .ok asked ∨
        (afterScheduler times request (.ok candidates) engines).1 = .ok asked) :
    asked ⊆ candidates := by
  have budgetNarrows := consultBudget_narrows times request
  have limiterNarrows := budgetNarrows.andThen (consultRateLimiter_narrows times request)
  have schedulerNarrows := limiterNarrows.andThen (consultScheduler_narrows times)
  rcases reached with left | left | left
  · exact budgetNarrows engines candidates asked left
  · exact limiterNarrows engines candidates asked left
  · exact schedulerNarrows engines candidates asked left

/-! ## Routing -/

section

variable {router : RouterEngineImpl} {decision : RoutingDecision} {times : RouteTimes}
variable {request : RoutingRequest} {engines : Engines} {candidates : List Candidate}

theorem status_of_select (selected : router.select request candidates = .ok decision) :
    decision.status = .routed := by
  rw [select] at selected
  split at selected
  · rw [selectByPolicy] at selected
    split at selected
    · contradiction
    · dsimp only at selected
      split at selected
      · contradiction
      · cases selected
        rfl
  · unfold selectByScore at selected
    dsimp only at selected
    split at selected
    · contradiction
    · cases selected
      rfl

theorem invalid_of_rejected (ok : (router.route times engines request).1 = .ok decision)
    (rejected : decision.status = .rejected) : validateRequest request ≠ [] := by
  have notFailed : decision.status ≠ .failed := by simp [rejected]
  rcases route_not_failed ok notFailed with ⟨_, invalid⟩ | ⟨_, _, _, _, _, _, _, selected⟩
  · exact invalid
  · rw [status_of_select selected] at rejected
    contradiction

theorem route_of_not_admitted (notAdmitted : ¬ router.started ∨ validateRequest request ≠ []) :
    (router.route times engines request).2 = engines := by
  rw [route]
  split
  · rfl
  next started =>
    split
    · rfl
    next valid =>
      rcases notAdmitted with stopped | invalid
      · exact absurd stopped started
      · exact absurd invalid valid

theorem route_of_admitted (started : router.started) (valid : validateRequest request = []) :
    ConsumedFor times request (router.findCandidates request) engines
      (router.route times engines request).2 := by
  have consumed := stages_consume times request engines (router.findCandidates request)
  rw [route, if_neg (not_not.mpr started), if_neg (not_not.mpr valid)]
  cases found : router.findCandidates request with
  | error | ok =>
    rw [found] at consumed
    exact consumed

end

/-- What a routing call consumes. Where the router is not started or the request is not valid, it
leaves the engines as they are, and an engine that is not reached always stays so. However a call
goes on, it takes from an engine only for those candidates that the engine is asked about, all of
them available, and what the budget engine, the rate limiter and the scheduler have taken for them
stays taken: reservations for the candidates that are approved, what the policies for them count,
and places for the candidates that are queued. The circuit breaker changes only the circuits of
providers that it allows. -/
theorem route_consumes (router : RouterEngineImpl) (times : RouteTimes) (engines : Engines)
    (request : RoutingRequest) : (¬ router.started ∨ validateRequest request ≠ [] →
      (router.route times engines request).2 = engines) ∧
    (∀ decision, (router.route times engines request).1 = .ok decision →
      decision.status = .rejected → (router.route times engines request).2 = engines) ∧
    (router.started → validateRequest request = [] →
      ConsumedFor times request (router.findCandidates request) engines
        (router.route times engines request).2) ∧
    ∀ candidates, router.findCandidates request = .ok candidates →
      Over router.Available candidates ∧
        ∀ asked, (afterBudget times request (.ok candidates) engines).1 = .ok asked ∨
            (afterRateLimiter times request (.ok candidates) engines).1 = .ok asked ∨
              (afterScheduler times request (.ok candidates) engines).1 = .ok asked →
          asked ⊆ candidates := by
  refine ⟨route_of_not_admitted, ?_, route_of_admitted, ?_⟩
  · intro decision ok rejected
    exact route_of_not_admitted (.inr (invalid_of_rejected ok rejected))
  · intro candidates found
    refine ⟨findCandidates_available found, ?_⟩
    intro asked reached
    exact asked_subset times request engines candidates reached

/-- What is taken from the engines: the models of open reservations, the tokens left, the
models that are queued, and the probes. -/
def holdings (engines : Engines) : List String × List ℚ × List String × List ℤ :=
  ((engines.budgetEngine.map fun budget =>
      (budget.reservations.values.filter BudgetReservation.isOpen).map
        BudgetReservation.model).getD [],
    (engines.rateLimiter.map fun limiter =>
      limiter.policies.values.map fun state => state.tokenBucket.tokens).getD [],
    (engines.scheduler.map fun scheduler =>
      scheduler.fair.queues.values.flatten.map fun entry => entry.item.model).getD [],
    (engines.circuitBreaker.map fun breaker =>
      breaker.providers.values.map ProviderState.halfOpenAttempts).getD [])

def pairRouter : RouterEngineImpl :=
  { sampleRouter with
    modelRegistry := some [chatModel, { chatModel with modelId := "chat-2", qualityScore := 0 }] }

def sampleEngines : Engines where
  budgetEngine := some (BudgetEngineImpl.init.createPolicy BudgetEngineImpl.samplePolicy)
  rateLimiter := some
    (({ started := true } : RateLimiterEngineImpl).createPolicy 0
      { id := "tokens", tokenBucket := { capacity := 5 } })
  scheduler := some { running := true }
  circuitBreaker := some
    { started := true
      providers := Dict.empty.set sampleProvider.name { state := .circuitHalfOpen } }

/-- A request that both models can take. -/
def chatRequest : RoutingRequest where
  requestId := "r"

/-- A request that none of them can take. -/
def blindRequest : RoutingRequest :=
  { chatRequest with visionRequired := true }

/-- A call that fails at the capabilities has taken from all four engines, and one that
selects the first model has taken for the second too. -/
theorem pairRouter_consumes : holdings sampleEngines = ([], [5], [], [0]) ∧
      ((pairRouter.route sampleTimes sampleEngines blindRequest).1.map RoutingDecision.status =
          .ok .failed ∧
        holdings (pairRouter.route sampleTimes sampleEngines blindRequest).2 =
          (["chat-1", "chat-2"], [3], ["chat-1", "chat-2"], [2])) ∧
      ((pairRouter.route sampleTimes sampleEngines chatRequest).1.map RoutingDecision.modelId =
          .ok "chat-1" ∧
        holdings (pairRouter.route sampleTimes sampleEngines chatRequest).2 =
          (["chat-1", "chat-2"], [3], ["chat-1", "chat-2"], [2])) := by
  decide +kernel

end RouterEngineImpl

end AgenticOS.OmniRoute
