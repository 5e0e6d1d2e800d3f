import AgenticOS.OmniRoute.RateLimiter.Calls
import Mathlib.Data.List.Pairwise

/-!
# What a refused request leaves behind

The policies that come before the refusing one have already approved the request, and what
they took for it is not given back. The other policies answer later requests as before only
if none of those policies keeps count.
-/

namespace AgenticOS.OmniRoute

open AgenticOS.Transition List

theorem TokenBucketState.approved_ask (bucket : TokenBucketState) (maxBurst : ℤ) (mono : ℚ) :
    (bucket.ask maxBurst mono).1 =
      match bucket.refill mono with
      | .error _ => false
      | .ok bucket => decide (1 ≤ bucket.tokens ∨ 0 < maxBurst ∧ 1 ≤ bucket.available) := by
  rw [ask]
  cases bucket.refill mono with
  | error error => rfl
  | ok bucket =>
    dsimp only
    rw [tryConsume, tryConsumeBurst]
    by_cases token : 1 ≤ bucket.tokens
    · rw [if_pos token]
      exact (decide_eq_true (.inl token)).symm
    · rw [if_neg token]
      by_cases burst : 0 < maxBurst ∧ 1 ≤ bucket.available
      · rw [if_pos burst.1, if_pos burst.2]
        exact (decide_eq_true (.inr burst)).symm
      · rw [decide_eq_false (not_or.mpr ⟨token, burst⟩)]
        dsimp only
        split
        next taken bursts =>
          split at bursts
          next allowed =>
            split at bursts
            next room => exact absurd ⟨allowed, room⟩ burst
            · cases bursts
          · cases bursts
        · rfl

namespace PolicyRuntimeState

variable {state : PolicyRuntimeState} {instant : Instant}

/-- The policy can take a request now: its bucket has a token or a burst left, or its queue or
its window is not full. -/
def hasRoom (state : PolicyRuntimeState) (instant : Instant) : Bool :=
  match state.policy.algorithm with
  | .tokenBucket =>
    match state.tokenBucket.refill instant.mono with
    | .error _ => false
    | .ok bucket => 1 ≤ bucket.tokens ∨ 0 < state.policy.maxBurst ∧ 1 ≤ bucket.available
  | .leakyBucket =>
    match state.leakyBucket.drain instant.mono with
    | .error _ => false
    | .ok bucket => bucket.queue.length < bucket.config.maxQueueDepth
  | .slidingWindow =>
    match state.slidingWindows.get? "1m" with
    | none => true
    | some window => !(window.expire instant.now).isExceeded
  | .fixedWindow =>
    let window := state.fixedWindow.checkReset instant.mono
    window.count < window.maxPerWindow
  | .other _ => true

theorem approved_ask (state : PolicyRuntimeState) (instant : Instant) :
    (state.ask instant).1 = state.hasRoom instant := by
  rw [ask, hasRoom]
  cases state.policy.algorithm with
  | tokenBucket => exact TokenBucketState.approved_ask ..
  | leakyBucket =>
    rw [LeakyBucketState.ask]
    cases state.leakyBucket.drain instant.mono with
    | error error => rfl
    | ok bucket =>
      dsimp only
      rw [LeakyBucketState.tryAdd]
      by_cases room : bucket.queue.length < bucket.config.maxQueueDepth
      · rw [if_pos room, decide_eq_true room]
      · rw [if_neg room, decide_eq_false room]
  | slidingWindow =>
    cases state.slidingWindows.get? "1m" with
    | none => rfl
    | some window =>
      unfold RateSlidingWindow.ask
      dsimp only
      cases (window.expire instant.now).isExceeded <;> rfl
  | fixedWindow =>
    unfold FixedWindowCounter.tryConsume
    dsimp only
    split
    next room => exact (decide_eq_true room).symm
    next full => exact (decide_eq_false full).symm
  | other name => rfl

theorem tryConsume_of_unlimited {window : FixedWindowCounter} {mono later : ℚ}
    (short : window.windowSeconds ≤ 0) (begun : window.windowStart ≤ mono)
    (notEarlier : mono ≤ later) :
    (window.tryConsume mono).2.tryConsume later = window.tryConsume later := by
  have now : window.windowSeconds ≤ mono - window.windowStart := by linarith
  have next : window.windowSeconds ≤ later - window.windowStart := by linarith
  have again : window.windowSeconds ≤ later - mono := by linarith
  have restarted : ∃ count, (window.tryConsume mono).2 =
      { window with count, windowStart := mono } := by
    rw [FixedWindowCounter.tryConsume, FixedWindowCounter.checkReset, if_pos now]
    split
    · exact ⟨_, rfl⟩
    · exact ⟨_, rfl⟩
  rcases restarted with ⟨count, restarted⟩
  rw [restarted]
  unfold FixedWindowCounter.tryConsume FixedWindowCounter.checkReset
  rw [if_pos next]
  rw [if_pos again]

theorem answers_of_unlimited (sound : state.Sound) (unlimited : state.policy.Unlimited)
    (begun : state.fixedWindow.windowStart ≤ instant.mono) {times : List Instant}
    (future : ∀ time ∈ times, instant.mono ≤ time.mono) :
    (state.ask instant).2.answers times = state.answers times := by
  cases times with
  | nil => rfl
  | cons first later =>
    have same : (state.ask instant).2.ask first = state.ask first := by
      have notEarlier := future first mem_cons_self
      unfold ask
      unfold RateLimitPolicy.Unlimited at unlimited
      cases algorithm : state.policy.algorithm with
      | fixedWindow =>
        rw [algorithm, ← sound.fixed] at unlimited
        rw [algorithm, tryConsume_of_unlimited unlimited begun notEarlier]
      | other name => rw [algorithm]
      | _ =>
        rw [algorithm] at unlimited
        cases unlimited
    rw [answers, answers, same]

end PolicyRuntimeState

open PolicyRuntimeState

namespace RateLimiterEngineImpl

variable {engine : RateLimiterEngineImpl} {instant : Instant} {request : PermitRequest}

/-- Two policies approve the same requests from a time on. -/
def SameFuture (instant : Instant) (left right : PolicyEvaluation) : Prop :=
  ∀ requests : List (Instant × PermitRequest),
    (instant.mono :: requests.map fun asked => asked.1.mono).Pairwise (· ≤ ·) →
      admissions left requests = admissions right requests

def Unaffected (instant : Instant) (request : PermitRequest) (refusing : String)
    (before after : RateLimiterEngineImpl) : Prop :=
  ∀ entry ∈ before.findMatchingPolicies request, entry.1 ≠ refusing →
    ∃ state, after.policies.get? entry.1 = some state ∧
      SameFuture instant { state := entry.2, queues := before.queueManager }
        { state, queues := after.queueManager }

variable {decision : RateLimitDecision}

theorem approves_of_queued {evaluation : PolicyEvaluation}
    (decided : (evaluatePolicy evaluation instant request).1 = .ok decision)
    (queued : decision.queued = true) : decision.approved = false := by
  have full : ∀ {evaluation : PolicyEvaluation} {mono : ℚ}
      {waits : QueueManager → ℤ → RateLimitDecision} {refused : RateLimitDecision},
      (∀ queues position, (waits queues position).approved = false) →
      refused.approved = false →
      (queueOr evaluation mono request waits refused).1 = .ok decision →
        decision.approved = false := by
    intro evaluation mono waits refused waitsFor refuses decided
    have answer := (queueOr_spec evaluation mono request waitsFor refuses).1
    rw [decided] at answer
    exact answer
  rw [evaluatePolicy] at decided
  split at decided
  · rw [evaluateTokenBucket] at decided
    split at decided
    · cases decided
    · split at decided
      · cases decided
        cases queued
      · split at decided
        · cases decided
          cases queued
        · exact full (fun _ _ => rfl) rfl decided
  · rw [evaluateLeakyBucket] at decided
    split at decided
    · cases decided
    · split at decided
      · cases decided
        cases queued
      · exact full (fun _ _ => rfl) rfl decided
  · rw [evaluateSlidingWindow] at decided
    dsimp only at decided
    split at decided
    · cases decided
      cases queued
    · split at decided
      · cases decided
        rfl
      · cases decided
        cases queued
  · rw [evaluateFixedWindow] at decided
    dsimp only at decided
    split at decided
    · cases decided
      cases queued
    · cases decided
      rfl
  · cases decided
    cases queued

/-- A refusal comes from one policy. Those before it approved and keep what they took, those
after it were not asked. -/
structure Refuses (instant : Instant) (engine after : RateLimiterEngineImpl)
    (decision : RateLimitDecision) (earlier : List (String × PolicyRuntimeState)) (key : String)
    (state : PolicyRuntimeState) : Prop where
  approved : ∀ entry ∈ earlier, entry.2.hasRoom instant = true
  full : state.hasRoom instant = false
  policyId : decision.policyId = state.policy.id
  taken : ∀ entry ∈ earlier, after.policies.get? entry.1 = some (entry.2.ask instant).2
  kept : ∀ other, other ∉ earlier.map Prod.fst → other ≠ key →
    after.policies.get? other = engine.policies.get? other

section

variable {after : RateLimiterEngineImpl} {decision : RateLimitDecision}
  {earlier : List (String × PolicyRuntimeState)} {key refusing : String}
  {state full : PolicyRuntimeState} {evaluation : PolicyEvaluation}

theorem refuses_of_full (noRoom : state.hasRoom instant = false)
    (policyId : decision.policyId = state.policy.id) :
    Refuses instant engine { engine with
      policies := engine.policies.set key evaluation.state
      queueManager := evaluation.queues } decision [] key state where
  approved := fun _ none => by cases none
  full := noRoom
  policyId := policyId
  taken := fun _ none => by cases none
  kept := fun _ _ different => Dict.get?_set_ne _ different _

theorem Refuses.cons
    (refuses : Refuses instant { engine with
      policies := engine.policies.set key evaluation.state
      queueManager := evaluation.queues } after decision earlier refusing full)
    (room : state.hasRoom instant = true) (taken : evaluation.state = (state.ask instant).2)
    (fresh : key ∉ earlier.map Prod.fst) (different : key ≠ refusing) :
    Refuses instant engine after decision ((key, state) :: earlier) refusing full where
  approved := by
    rintro entry (_ | ⟨_, member⟩)
    · exact room
    · exact refuses.approved entry member
  full := refuses.full
  policyId := refuses.policyId
  taken := by
    rintro entry (_ | ⟨_, member⟩)
    · rw [refuses.kept key fresh different, ← taken]
      exact Dict.get?_set_self ..
    · exact refuses.taken entry member
  kept := by
    intro other absent apart
    rw [map_cons, mem_cons, not_or] at absent
    rw [refuses.kept other absent.2 apart]
    exact Dict.get?_set_ne _ absent.1 _

end

variable {after : RateLimiterEngineImpl}

theorem evaluateMatching_refused {passed : RateLimitDecision}
    {matching : List (String × PolicyRuntimeState)} (distinct : (matching.map Prod.fst).Nodup)
    (passes : passed.approved = true)
    (answered : evaluateMatching instant request passed engine matching = (.ok decision, after))
    (refused : decision.approved = false) :
    ∃ earlier key state rest, matching = earlier ++ (key, state) :: rest ∧
      Refuses instant engine after decision earlier key state := by
  induction matching generalizing engine with
  | nil =>
    cases answered
    rw [refused] at passes
    cases passes
  | cons entry rest ih =>
    rcases entry with ⟨key, state⟩
    rw [map_cons, nodup_cons] at distinct
    have spec := evaluatePolicy_spec { state, queues := engine.queueManager } instant request
    have queuedFull : ∀ {answer : RateLimitDecision},
        (evaluatePolicy { state, queues := engine.queueManager } instant request).1 =
          .ok answer → answer.queued = true → answer.approved = false :=
      fun decided queued => approves_of_queued decided queued
    rw [evaluateMatching] at answered
    generalize evaluatePolicy { state, queues := engine.queueManager } instant request =
      evaluated at spec queuedFull answered
    rcases evaluated with ⟨result | answer, evaluation⟩
    · cases answered
    · rcases spec with ⟨room, taken⟩
      rw [approved_ask] at room
      dsimp only at answered
      by_cases approved : answer.approved = true
      · have notQueued : ¬ answer.queued = true := by
          intro queued
          rw [queuedFull rfl queued] at approved
          cases approved
        rw [if_neg notQueued, if_pos approved] at answered
        rcases ih distinct.2 answered with
          ⟨earlier, refusing, full, later, same, refuses⟩
        have absent := distinct.1
        rw [same, map_append, mem_append, not_or, map_cons, mem_cons, not_or] at absent
        exact ⟨(key, state) :: earlier, refusing, full, later, by rw [same]; rfl,
          refuses.cons (room.symm.trans approved) taken absent.1 absent.2.1⟩
      · have full : state.hasRoom instant = false := by
          rw [← room]
          exact eq_false_of_ne_true approved
        have outcome : decision.policyId = state.policy.id ∧
            after = { engine with
              policies := engine.policies.set key evaluation.state
              queueManager := evaluation.queues } := by
          split at answered
          · cases answered
            exact ⟨rfl, rfl⟩
          · cases answered
            exact ⟨rfl, rfl⟩
        rcases outcome with ⟨policyId, rfl⟩
        exact ⟨[], key, state, rest, rfl, refuses_of_full full policyId⟩

theorem nodup_findMatchingPolicies (engine : RateLimiterEngineImpl) (request : PermitRequest) :
    ((engine.findMatchingPolicies request).map Prod.fst).Nodup := by
  rw [findMatchingPolicies, ((perm_insertionSort _ _).map Prod.fst).nodup_iff]
  exact engine.policies.nodupKeys.sublist (filter_sublist.map Prod.fst)

theorem evaluate_refused (answered : engine.evaluate instant request = (.ok decision, after))
    (refused : decision.approved = false) : ∃ earlier key state rest,
      engine.findMatchingPolicies request = earlier ++ (key, state) :: rest ∧
        Refuses instant engine after decision earlier key state := by
  have distinct := nodup_findMatchingPolicies engine request
  rw [evaluate] at answered
  split at answered
  · split at answered
    · cases answered
      cases refused
    next first rest found =>
      rw [found] at distinct ⊢
      exact evaluateMatching_refused distinct rfl answered refused
  · cases answered
    cases refused

def askedBeforeFull (engine : RateLimiterEngineImpl) (instant : Instant)
    (request : PermitRequest) : List (String × PolicyRuntimeState) :=
  (engine.findMatchingPolicies request).takeWhile fun entry => entry.2.hasRoom instant

theorem askedBeforeFull_of_refuses {earlier rest : List (String × PolicyRuntimeState)}
    {key : String} {state : PolicyRuntimeState}
    (found : engine.findMatchingPolicies request = earlier ++ (key, state) :: rest)
    (refuses : Refuses instant engine after decision earlier key state) :
    engine.askedBeforeFull instant request = earlier := by
  have stops : ((key, state) :: rest).takeWhile (fun entry => entry.2.hasRoom instant) = [] := by
    rw [takeWhile_cons, refuses.full]
    rfl
  rw [askedBeforeFull, found, takeWhile_append_of_pos refuses.approved, stops, append_nil]

/-- After any calls, a refused request leaves the other policies as they were exactly if all
policies that are asked before the first one without room keep no count. -/
theorem unaffected_iff {calls : List Call} {decision : RateLimitDecision}
    {after : RateLimiterEngineImpl} (notLater : ∀ call ∈ calls, call.Until instant.mono)
    (answered : (run step {} calls).evaluate instant request = (.ok decision, after))
    (refused : decision.approved = false) :
    Unaffected instant request decision.policyId (run step {} calls) after ↔
      ∀ entry ∈ (run step {} calls).askedBeforeFull instant request, entry.2.policy.Unlimited := by
  have recorded := recorded_run notLater
  generalize run step {} calls = engine at answered recorded ⊢
  have distinct := nodup_findMatchingPolicies engine request
  rcases evaluate_refused answered refused with ⟨earlier, key, state, rest, found, refuses⟩
  have stored : ∀ entry ∈ engine.findMatchingPolicies request,
      Stored instant.mono entry.1 entry.2 :=
    fun entry member => recorded entry.1 entry.2 (get?_of_mem_findMatchingPolicies member)
  have policyId : decision.policyId = key := by
    have member : (key, state) ∈ engine.findMatchingPolicies request := by
      rw [found]
      exact mem_append_right _ mem_cons_self
    exact refuses.policyId.trans (stored (key, state) member).id
  have different : ∀ entry ∈ earlier, entry.1 ≠ key := by
    intro entry member same
    rw [found, map_append, map_cons, nodup_append] at distinct
    exact distinct.2.2 entry.1 (mem_map_of_mem member) key mem_cons_self same
  have inside : ∀ entry ∈ earlier, entry ∈ engine.findMatchingPolicies request := by
    intro entry member
    rw [found]
    exact mem_append_left _ member
  rw [askedBeforeFull_of_refuses found refuses, policyId]
  constructor
  · intro unaffected entry member
    by_contra limited
    rcases unaffected entry (inside entry member) (different entry member) with
      ⟨later, isLater, same⟩
    rw [refuses.taken entry member] at isLater
    cases isLater
    have approved := refuses.approved entry member
    rw [← approved_ask] at approved
    rcases exists_answers_ne (stored entry (inside entry member)).sound limited
      approved with ⟨count, differs⟩
    have asked := same (.replicate count (instant, request)) (by
      rw [map_replicate, ← replicate_succ]
      exact pairwise_replicate_of_refl)
    rw [admissions_eq, admissions_eq, map_replicate] at asked
    exact differs asked.symm
  · intro unlimited entry member other
    by_cases before : entry ∈ earlier
    · refine ⟨_, refuses.taken entry before, ?_⟩
      intro requests ordered
      rw [admissions_eq, admissions_eq]
      have here := stored entry member
      refine (answers_of_unlimited here.sound (unlimited entry before) here.begun ?_).symm
      intro time isTime
      rcases mem_map.mp isTime with ⟨asked, isAsked, rfl⟩
      exact (pairwise_cons.mp ordered).1 _ (mem_map_of_mem isAsked)
    · refine ⟨entry.2, ?_, ?_⟩
      · rw [refuses.kept entry.1 ?_ other]
        · exact get?_of_mem_findMatchingPolicies member
        · intro same
          rcases mem_map.mp same with ⟨twin, isTwin, sameKey⟩
          have equal := inj_on_of_nodup_map distinct (inside twin isTwin) member sameKey
          exact before (equal ▸ isTwin)
      · intro requests _
        rw [admissions_eq, admissions_eq]

/-- A bucket for one request, asked ahead of the other policies. -/
def firstPolicy : RateLimitPolicy where
  id := "tokens"
  order := 1
  tokenBucket := { capacity := 1 }

def secondPolicy : RateLimitPolicy where
  id := "window"
  algorithm := .fixedWindow
  slidingWindow := { maxRequests := 0 }

def setUp (first second : RateLimitPolicy) : RateLimiterEngineImpl :=
  run step {} [.createPolicy 0 first, .createPolicy 0 second, .start]

def sampleRequest : PermitRequest where
  provider := "p"
  model := "m"

def refusal : RateLimitDecision where
  rejected := true
  reason := "fixed window exceeded"
  policyId := "window"
  algorithm := some .fixedWindow
  retryAfterMs := 60000

/-- The request that the window refuses takes the token of the bucket. -/
theorem refusal_takes_token :
    ((setUp firstPolicy secondPolicy).evaluate ⟨0, 0⟩ sampleRequest).1 = .ok refusal ∧
      ¬ Unaffected ⟨0, 0⟩ sampleRequest "window" (setUp firstPolicy secondPolicy)
        ((setUp firstPolicy secondPolicy).evaluate ⟨0, 0⟩ sampleRequest).2 := by
  refine ⟨by decide +kernel, ?_⟩
  intro unaffected
  have stored : (setUp firstPolicy secondPolicy).policies.get? "tokens" =
      some (.create firstPolicy 0) := by
    refine (Dict.get?_set_ne _ ?_ _).trans (Dict.get?_set_self ..)
    decide
  have member : ("tokens", PolicyRuntimeState.create firstPolicy 0) ∈
      (setUp firstPolicy secondPolicy).findMatchingPolicies sampleRequest := by
    refine (mem_insertionSort _).mpr (mem_filter.mpr ⟨?_, ?_⟩)
    · exact Dict.get?_eq_some_iff.mp stored
    · decide
  rcases unaffected _ member (by decide) with ⟨state, found, same⟩
  have before : (PolicyRuntimeState.create firstPolicy 0).answers [⟨0, 0⟩] = [true] := by
    decide +kernel
  have after : (((setUp firstPolicy secondPolicy).evaluate ⟨0, 0⟩ sampleRequest).2.policies.get?
      "tokens").map (fun state => state.answers [⟨0, 0⟩]) = some [false] := by decide +kernel
  have agree := same [(⟨0, 0⟩, sampleRequest)] (by decide +kernel)
  rw [admissions_eq, admissions_eq] at agree
  rw [found] at after
  cases before.symm.trans (agree.trans (Option.some.inj after))

/-- A policy with an algorithm that the engine does not know loses nothing. -/
theorem refusal_takes_nothing :
    Unaffected ⟨0, 0⟩ sampleRequest "window"
      (setUp { firstPolicy with algorithm := .other "gcra" } secondPolicy)
      ((setUp { firstPolicy with algorithm := .other "gcra" } secondPolicy).evaluate ⟨0, 0⟩
        sampleRequest).2 := by
  have answered : ((setUp { firstPolicy with algorithm := .other "gcra" } secondPolicy).evaluate
      ⟨0, 0⟩ sampleRequest).1 = .ok refusal := by decide +kernel
  have earlier : ∀ call ∈ [Call.createPolicy 0 { firstPolicy with algorithm := .other "gcra" },
      Call.createPolicy 0 secondPolicy, Call.start], call.Until 0 := by decide +kernel
  exact (unaffected_iff earlier (Prod.ext answered rfl) rfl).mpr (by decide +kernel)

end RateLimiterEngineImpl

/-!
## Policies that raise

The buckets divide the time since they were last refilled or drained by an interval that the
policy sets, and nothing keeps it from being zero. And the number of entries that a leaky bucket
drains has no bound: where it is too large for a float, there is no such integer. An evaluation
raises exactly when it asks such a policy.
-/

theorem elapsed_iff {interval begun mono : ℚ} (zero : interval = 0) :
    interval ≤ (mono - begun) * 1000 ↔ begun ≤ mono := by
  constructor
  · intro elapsed
    linarith
  · intro elapsed
    linarith

theorem TokenBucketState.refill_returns_iff (bucket : TokenBucketState) (mono : ℚ) :
    (∃ refilled, bucket.refill mono = .ok refilled) ↔
      ¬ (bucket.config.refillIntervalMs = 0 ∧ bucket.lastRefill ≤ mono) := by
  rw [refill]
  split
  next elapsed =>
    split
    next zero =>
      have reached := (elapsed_iff zero).mp elapsed
      simp [zero, reached]
    next nonzero => simp [nonzero]
  next early =>
    constructor
    · rintro - ⟨zero, reached⟩
      exact early ((elapsed_iff zero).mpr reached)
    · exact fun _ => ⟨bucket, rfl⟩

/-- The interval is zero, or more leaves the bucket than a float can say. -/
def LeakyBucketState.Raises (bucket : LeakyBucketState) (mono : ℚ) : Prop :=
  let cycles := (mono - bucket.lastDrain) * 1000 / bucket.config.drainIntervalMs
  bucket.config.drainIntervalMs ≤ (mono - bucket.lastDrain) * 1000 ∧
    (bucket.config.drainIntervalMs = 0 ∨ floatOverflow ≤ |cycles| ∨
      floatOverflow ≤ |cycles * bucket.config.drainRate|)

theorem intOfProduct_returns_iff (cycles rate : ℚ) :
    (∃ entries, intOfProduct cycles rate = .ok entries) ↔
      ¬ (floatOverflow ≤ |cycles| ∨ floatOverflow ≤ |cycles * rate|) := by
  rw [intOfProduct]
  split
  next many => exact iff_of_false (by simp) (not_not.mpr (.inl many.1))
  · split
    next many => exact iff_of_false (by simp) (not_not.mpr many)
    next few => exact iff_of_true ⟨_, rfl⟩ few

theorem LeakyBucketState.drain_returns_iff (bucket : LeakyBucketState) (mono : ℚ) :
    (∃ drained, bucket.drain mono = .ok drained) ↔ ¬ bucket.Raises mono := by
  rw [drain, LeakyBucketState.Raises]
  split
  next due =>
    split
    next zero => exact iff_of_false (by simp) (not_not.mpr ⟨due, .inl zero⟩)
    next nonzero =>
      rw [and_iff_right due, or_iff_right nonzero, ← intOfProduct_returns_iff]
      split
      next raised => simp [raised]
      next counted => simp [counted]
  next early => simp [early]

namespace PolicyRuntimeState

def Raises (state : PolicyRuntimeState) (mono : ℚ) : Prop :=
  match state.policy.algorithm with
  | .tokenBucket =>
    state.tokenBucket.config.refillIntervalMs = 0 ∧ state.tokenBucket.lastRefill ≤ mono
  | .leakyBucket => state.leakyBucket.Raises mono
  | .slidingWindow | .fixedWindow | .other _ => False

end PolicyRuntimeState

namespace RateLimiterEngineImpl

variable {instant : Instant} {request : PermitRequest}

section

variable (normal : request.priority ≠ .background) (evaluation : PolicyEvaluation)
include normal

theorem queueOr_returns (mono : ℚ) (queued : QueueManager → ℤ → RateLimitDecision)
    (refused : RateLimitDecision) :
    ∃ decision, (queueOr evaluation mono request queued refused).1 = .ok decision := by
  rw [queueOr, QueueManager.enqueue]
  split
  · cases priority : request.priority with
    | background => exact absurd priority normal
    | critical | high | normal | low | bulk => exact ⟨_, rfl⟩
  · exact ⟨_, rfl⟩

/-- There are queues for all requests but the background ones: what else raises is a bucket. -/
theorem evaluatePolicy_returns_iff (instant : Instant) :
    (∃ decision, (evaluatePolicy evaluation instant request).1 = .ok decision) ↔
      ¬ evaluation.state.Raises instant.mono := by
  rw [evaluatePolicy, PolicyRuntimeState.Raises]
  cases evaluation.state.policy.algorithm with
  | tokenBucket =>
    rw [← TokenBucketState.refill_returns_iff, evaluateTokenBucket]
    cases evaluation.state.tokenBucket.refill instant.mono with
    | error error => simp
    | ok refilled =>
      refine ⟨fun _ => ⟨refilled, rfl⟩, fun _ => ?_⟩
      dsimp only
      split
      · exact ⟨_, rfl⟩
      · split
        · exact ⟨_, rfl⟩
        · exact queueOr_returns normal _ _ _ _
  | leakyBucket =>
    rw [← LeakyBucketState.drain_returns_iff, evaluateLeakyBucket]
    cases evaluation.state.leakyBucket.drain instant.mono with
    | error error => simp
    | ok drained =>
      refine ⟨fun _ => ⟨drained, rfl⟩, fun _ => ?_⟩
      dsimp only
      split
      · exact ⟨_, rfl⟩
      · exact queueOr_returns normal _ _ _ _
  | _ => exact ⟨fun _ => not_false, fun _ => ⟨_, rfl⟩⟩

end

/-- None of the policies that are asked in turn raises. A policy is asked where all
before it have room. -/
def CanAsk (instant : Instant) : List (String × PolicyRuntimeState) → Prop
  | [] => True
  | (_, state) :: rest =>
    ¬ state.Raises instant.mono ∧ (state.hasRoom instant = true → CanAsk instant rest)

theorem evaluateMatching_returns_iff (normal : request.priority ≠ .background)
    (passed : RateLimitDecision) (engine : RateLimiterEngineImpl)
    (matching : List (String × PolicyRuntimeState)) :
    (∃ decision, (evaluateMatching instant request passed engine matching).1 = .ok decision) ↔
      CanAsk instant matching := by
  induction matching generalizing engine with
  | nil => exact ⟨fun _ => trivial, fun _ => ⟨passed, rfl⟩⟩
  | cons entry rest ih =>
    rcases entry with ⟨key, state⟩
    have returns := evaluatePolicy_returns_iff normal { state, queues := engine.queueManager }
      instant
    have answer := (evaluatePolicy_spec { state, queues := engine.queueManager } instant request).1
    rw [PolicyRuntimeState.approved_ask] at answer
    rw [CanAsk, ← returns, evaluateMatching]
    dsimp only
    split
    next error raised => simp [raised]
    next decision decided =>
      rw [decided] at answer
      change decision.approved = state.hasRoom instant at answer
      rw [← answer, decided]
      split
      next queued =>
        have full := approves_of_queued decided queued
        simp [full]
      · split
        next approved => simp [ih, approved]
        next refused => simp [refused]

/-- None of the policies that an evaluation asks raises. -/
def CanEvaluate (engine : RateLimiterEngineImpl) (instant : Instant)
    (request : PermitRequest) : Prop :=
  engine.started → CanAsk instant (engine.findMatchingPolicies request)

theorem evaluate_returns_iff (normal : request.priority ≠ .background)
    (engine : RateLimiterEngineImpl) (instant : Instant) :
    (∃ decision, (engine.evaluate instant request).1 = .ok decision) ↔
      engine.CanEvaluate instant request := by
  rw [evaluate, CanEvaluate]
  split
  next started =>
    split
    next unmatched => simp [unmatched, CanAsk]
    next first rest found => simp [evaluateMatching_returns_iff normal, found, started]
  next stopped => simp [stopped]

end RateLimiterEngineImpl

end AgenticOS.OmniRoute
