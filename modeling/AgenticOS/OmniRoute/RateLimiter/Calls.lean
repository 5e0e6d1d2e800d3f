import AgenticOS.OmniRoute.RateLimiter.Limits
import AgenticOS.Transition.Run

/-!
# The calls on a rate limiter

What the engine keeps of its policies through all calls: each policy is stored under its
own id, with its windows, and no fixed window starts in the future.
-/

namespace AgenticOS.OmniRoute

open AgenticOS.Transition List

structure RetryPrediction where
  retryAfterMs : ℚ
  queueDelayMs : ℚ
  expectedPermitAvailability : ℚ
  expectedProviderAvailability : ℚ
  confidence : ℚ
  estimatedWaitTotalMs : ℚ

def RetryPrediction.predict (queueDepth drainRate tokensRemaining refillRate : ℚ) :
    RetryPrediction :=
  let queueDelay := if 0 < drainRate then queueDepth / max drainRate (1 / 1000) * 1000 else 0
  let totalWait := predictRetry queueDepth drainRate tokensRemaining refillRate
  { retryAfterMs := totalWait
    queueDelayMs := Decimal.roundTo 2 queueDelay
    expectedPermitAvailability := max 0 (min 1 tokensRemaining)
    expectedProviderAvailability := max 0 (min 1 (1 - queueDelay / 60000))
    confidence := Decimal.roundTo 4 (max 0 (1 - queueDelay / 30000))
    estimatedWaitTotalMs := totalWait }

namespace RateLimiterEngineImpl

variable (engine : RateLimiterEngineImpl)

def start : RateLimiterEngineImpl :=
  { engine with started := true }

def stop : RateLimiterEngineImpl :=
  { engine with started := false }

/-- The queued requests stay. -/
def dispose : RateLimiterEngineImpl :=
  { engine.stop with policies := Dict.empty }

/-- A known policy starts anew. -/
def updatePolicy (mono : ℚ) (policy : RateLimitPolicy) :
    Option RateLimitPolicy × RateLimiterEngineImpl :=
  match engine.policies.get? policy.id with
  | none => (none, engine)
  | some _ =>
    (some policy,
      { engine with
        policies := engine.policies.set policy.id (PolicyRuntimeState.create policy mono) })

def deletePolicy (policyId : String) : Bool × RateLimiterEngineImpl :=
  match engine.policies.get? policyId with
  | none => (false, engine)
  | some _ => (true, { engine with policies := engine.policies.erase policyId })

/-- Switch a policy on or off, which starts it anew. -/
def switchPolicy (enabled : Bool) (engine : RateLimiterEngineImpl) (mono : ℚ)
    (policyId : String) : Bool × RateLimiterEngineImpl :=
  match engine.policies.get? policyId with
  | none => (false, engine)
  | some state =>
    (true,
      { engine with
        policies := engine.policies.set policyId
          (PolicyRuntimeState.create { state.policy with enabled } mono) })

def enablePolicy : RateLimiterEngineImpl → ℚ → String → Bool × RateLimiterEngineImpl :=
  switchPolicy true

def disablePolicy : RateLimiterEngineImpl → ℚ → String → Bool × RateLimiterEngineImpl :=
  switchPolicy false

/-- Take tokens of the first bucket, whatever the request is for. -/
def consume (mono : ℚ) (count : ℤ) : Except String Bool × RateLimiterEngineImpl :=
  match engine.policies.entries.find? fun entry =>
      entry.2.policy.enabled ∧ entry.2.policy.algorithm = .tokenBucket with
  | none => (.ok true, engine)
  | some (key, state) =>
    match state.tokenBucket.refill mono with
    | .error error => (.error error, engine)
    | .ok bucket =>
      let store (bucket : TokenBucketState) : RateLimiterEngineImpl :=
        { engine with policies := engine.policies.set key { state with tokenBucket := bucket } }
      if count ≤ bucket.tokens then
        (.ok true, store { bucket with tokens := bucket.tokens - count })
      else (.ok false, store bucket)

/-- What a prediction is made from. -/
structure RetryBasis where
  drainRate : ℚ := 10
  tokens : ℚ := 0
  refillRate : ℚ := 10

/-- The loop over the policies, which refills the buckets that it looks at. -/
def gatherBasis (mono : ℚ) : RateLimiterEngineImpl → RetryBasis →
    List (String × PolicyRuntimeState) → Except String RetryBasis × RateLimiterEngineImpl
  | engine, basis, [] => (.ok basis, engine)
  | engine, basis, (key, state) :: rest =>
    match state.policy.algorithm with
    | .tokenBucket =>
      match state.tokenBucket.refill mono with
      | .error error => (.error error, engine)
      | .ok bucket =>
        gatherBasis mono
          { engine with
            policies := engine.policies.set key { state with tokenBucket := bucket } }
          { basis with
            tokens := bucket.available
            refillRate := state.policy.tokenBucket.refillRate } rest
    | .leakyBucket =>
      gatherBasis mono engine
        { basis with drainRate := state.policy.leakyBucket.drainRate } rest
    | .slidingWindow | .fixedWindow | .other _ => gatherBasis mono engine basis rest

/-- The prediction from the last bucket of each kind. -/
def predictRetry (mono : ℚ) : Except String RetryPrediction × RateLimiterEngineImpl :=
  match gatherBasis mono engine {} engine.policies.entries with
  | (.error error, engine) => (.error error, engine)
  | (.ok basis, engine) =>
    (.ok (.predict engine.queueManager.totalDepth basis.drainRate basis.tokens
      basis.refillRate), engine)

inductive Call
  | start
  | stop
  | dispose
  | createPolicy (mono : ℚ) (policy : RateLimitPolicy)
  | updatePolicy (mono : ℚ) (policy : RateLimitPolicy)
  | deletePolicy (policyId : String)
  | enablePolicy (mono : ℚ) (policyId : String)
  | disablePolicy (mono : ℚ) (policyId : String)
  | evaluate (instant : Instant) (request : PermitRequest)
  | consume (mono : ℚ) (count : ℤ)
  | predictRetry (mono : ℚ)

/-- The reading of the monotonic clock in a call. -/
def Call.mono? : Call → Option ℚ
  | .start | .stop | .dispose | .deletePolicy _ => none
  | .createPolicy mono _ | .updatePolicy mono _ | .enablePolicy mono _ | .disablePolicy mono _
  | .consume mono _ | .predictRetry mono => some mono
  | .evaluate instant _ => some instant.mono

def Call.Until (later : ℚ) (call : Call) : Prop :=
  ∀ mono ∈ call.mono?, mono ≤ later
deriving Decidable

def step : Call → RateLimiterEngineImpl
  | .start => engine.start
  | .stop => engine.stop
  | .dispose => engine.dispose
  | .createPolicy mono policy => engine.createPolicy mono policy
  | .updatePolicy mono policy => (engine.updatePolicy mono policy).2
  | .deletePolicy policyId => (engine.deletePolicy policyId).2
  | .enablePolicy mono policyId => (engine.enablePolicy mono policyId).2
  | .disablePolicy mono policyId => (engine.disablePolicy mono policyId).2
  | .evaluate instant request => (engine.evaluate instant request).2
  | .consume mono count => (engine.consume mono count).2
  | .predictRetry mono => (engine.predictRetry mono).2

structure Stored (later : ℚ) (key : String) (state : PolicyRuntimeState) : Prop where
  id : state.policy.id = key
  sound : state.Sound
  begun : state.fixedWindow.windowStart ≤ later

def Recorded (later : ℚ) (engine : RateLimiterEngineImpl) : Prop :=
  ∀ key state, engine.policies.get? key = some state → Stored later key state

variable {engine : RateLimiterEngineImpl} {later mono : ℚ}

variable {state : PolicyRuntimeState}

theorem Recorded.set (recorded : Recorded later engine) {key : String}
    (stored : Stored later key state) (queues : QueueManager) : Recorded later
      { engine with policies := engine.policies.set key state, queueManager := queues } := by
  intro asked found isFound
  rw [Dict.get?_set] at isFound
  split at isFound
  next same =>
    cases isFound
    rw [same]
    exact stored
  · exact recorded asked found isFound

theorem stored_create (policy : RateLimitPolicy) (begun : mono ≤ later) :
    Stored later policy.id (PolicyRuntimeState.create policy mono) :=
  ⟨rfl, PolicyRuntimeState.sound_create policy mono, begun⟩

theorem Stored.tokenBucket {key : String} (stored : Stored later key state)
    (bucket : TokenBucketState) : Stored later key { state with tokenBucket := bucket } :=
  ⟨stored.id, ⟨stored.sound.minute, stored.sound.fixed⟩, stored.begun⟩

variable {instant : Instant}

theorem Stored.ask {key : String} (stored : Stored later key state)
    (notLater : instant.mono ≤ later) : Stored later key (state.ask instant).2 := by
  refine ⟨?_, stored.sound.ask instant, ?_⟩
  · rw [PolicyRuntimeState.policy_ask]
    exact stored.id
  · rw [PolicyRuntimeState.ask]
    split
    · exact stored.begun
    · exact stored.begun
    · split
      · exact stored.begun
      · exact stored.begun
    · unfold FixedWindowCounter.tryConsume FixedWindowCounter.checkReset
      dsimp only
      split
      · split
        · exact notLater
        · exact notLater
      · split
        · exact stored.begun
        · exact stored.begun
    · exact stored.begun

theorem Recorded.switchPolicy (recorded : Recorded later engine) (enabled : Bool)
    (policyId : String) (begun : mono ≤ later) :
    Recorded later (engine.switchPolicy enabled mono policyId).2 := by
  rw [RateLimiterEngineImpl.switchPolicy]
  split
  · exact recorded
  next state found =>
    have same := (recorded policyId state found).id
    refine recorded.set ?_ engine.queueManager
    rw [← same]
    exact stored_create { state.policy with enabled } begun

theorem Recorded.evaluateMatching (recorded : Recorded later engine) (request : PermitRequest)
    (passed : RateLimitDecision) (notLater : instant.mono ≤ later)
    {matching : List (String × PolicyRuntimeState)}
    (stored : ∀ entry ∈ matching, Stored later entry.1 entry.2) :
    Recorded later (evaluateMatching instant request passed engine matching).2 := by
  induction matching generalizing engine with
  | nil => exact recorded
  | cons entry rest ih =>
    rcases entry with ⟨key, state⟩
    have asked := (stored (key, state) mem_cons_self).ask notLater
    rw [← (evaluatePolicy_spec { state, queues := engine.queueManager } instant request).2] at asked
    have next := recorded.set asked
      (evaluatePolicy { state, queues := engine.queueManager } instant request).2.queues
    rw [RateLimiterEngineImpl.evaluateMatching]
    dsimp only
    split
    · exact next
    · split
      · exact next
      · split
        · exact ih next fun entry member =>
            stored entry (mem_cons_of_mem _ member)
        · exact next

theorem get?_of_mem_findMatchingPolicies {request : PermitRequest}
    {entry : String × PolicyRuntimeState} (member : entry ∈ engine.findMatchingPolicies request) :
    engine.policies.get? entry.1 = some entry.2 :=
  Dict.get?_eq_some_iff.mpr (mem_filter.mp ((mem_insertionSort _).mp member)).1

section

variable (recorded : Recorded later engine)
include recorded

theorem Recorded.evaluate (request : PermitRequest) (notLater : instant.mono ≤ later) :
    Recorded later (engine.evaluate instant request).2 := by
  rw [RateLimiterEngineImpl.evaluate]
  split
  · split
    · exact recorded
    next first rest found =>
      refine recorded.evaluateMatching request _ notLater ?_
      intro entry member
      rw [← found] at member
      exact recorded entry.1 entry.2 (get?_of_mem_findMatchingPolicies member)
  · exact recorded

theorem Recorded.gatherBasis (mono : ℚ) (basis : RetryBasis)
    {entries : List (String × PolicyRuntimeState)}
    (stored : ∀ entry ∈ entries, Stored later entry.1 entry.2) :
    Recorded later (gatherBasis mono engine basis entries).2 := by
  induction entries generalizing engine basis with
  | nil => exact recorded
  | cons entry rest ih =>
    rcases entry with ⟨key, state⟩
    have here := stored (key, state) mem_cons_self
    have others : ∀ entry ∈ rest, Stored later entry.1 entry.2 :=
      fun entry member => stored entry (mem_cons_of_mem _ member)
    rw [RateLimiterEngineImpl.gatherBasis]
    split
    · split
      · exact recorded
      next bucket _ =>
        exact ih (recorded.set (here.tokenBucket bucket) engine.queueManager) _ others
    · exact ih recorded _ others
    · exact ih recorded _ others
    · exact ih recorded _ others
    · exact ih recorded _ others

theorem Recorded.step {call : Call} (notLater : call.Until later) :
    Recorded later (engine.step call) := by
  have stored : ∀ entry ∈ engine.policies.entries, Stored later entry.1 entry.2 :=
    fun entry member => recorded entry.1 entry.2 (Dict.get?_eq_some_iff.mpr member)
  cases call with
  | start | stop => exact recorded
  | dispose =>
    intro key state found
    cases found
  | createPolicy mono policy =>
    exact recorded.set (stored_create policy (notLater mono rfl)) engine.queueManager
  | updatePolicy mono policy =>
    unfold RateLimiterEngineImpl.step RateLimiterEngineImpl.updatePolicy
    dsimp only
    split
    · exact recorded
    · exact recorded.set (stored_create policy (notLater mono rfl)) engine.queueManager
  | deletePolicy policyId =>
    unfold RateLimiterEngineImpl.step RateLimiterEngineImpl.deletePolicy
    dsimp only
    split
    · exact recorded
    · exact fun key state found => recorded key state (Dict.get?_of_get?_erase found)
  | enablePolicy mono policyId => exact recorded.switchPolicy true policyId (notLater mono rfl)
  | disablePolicy mono policyId => exact recorded.switchPolicy false policyId (notLater mono rfl)
  | evaluate instant request => exact recorded.evaluate request (notLater instant.mono rfl)
  | consume mono count =>
    rw [RateLimiterEngineImpl.step, RateLimiterEngineImpl.consume]
    split
    · exact recorded
    next key state found =>
      have here := stored (key, state) (mem_of_find?_eq_some found)
      split
      · exact recorded
      · split
        · exact recorded.set (here.tokenBucket _) engine.queueManager
        · exact recorded.set (here.tokenBucket _) engine.queueManager
  | predictRetry mono =>
    have gathered := recorded.gatherBasis mono {} stored
    unfold RateLimiterEngineImpl.step RateLimiterEngineImpl.predictRetry
    dsimp only
    split
    next same =>
      rw [same] at gathered
      exact gathered
    next same =>
      rw [same] at gathered
      exact gathered

end

theorem recorded_run {calls : List Call} (notLater : ∀ call ∈ calls, call.Until later) :
    Recorded later (run step {} calls) := by
  have along : Along step (fun _ call => call.Until later) {} calls :=
    .of_forall_mem (fun call member _ => notLater call member) _
  have preserved : ∀ engine call, Recorded later engine → call.Until later →
      Recorded later (engine.step call) :=
    fun _ _ recorded => recorded.step
  have initially : Recorded later {} := by
    intro key state found
    cases found
  exact along.invariant preserved initially

end RateLimiterEngineImpl

end AgenticOS.OmniRoute
