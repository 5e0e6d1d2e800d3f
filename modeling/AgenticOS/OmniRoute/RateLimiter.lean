import AgenticOS.OmniRoute.Domain
import Mathlib.Data.List.Sort

/-!
# The rate limiter

`evaluate` runs a request through every matching policy in turn. A policy takes a token,
a place in its bucket or an entry in its window as soon as it is asked; what earlier
policies have taken is not given back when a later one refuses the request.

A division by zero and a missing dictionary key raise, as they do in the source; the state
reached until then is kept. Counters that only report are left out.
-/

namespace AgenticOS.OmniRoute

open List

inductive QuotaScope
  | «global» | provider | model | workspace | organization | user | agent
  deriving DecidableEq

/-- The algorithm of a policy. A name that the engine does not know allows everything. -/
inductive RateLimitAlgorithm
  | tokenBucket | leakyBucket | slidingWindow | fixedWindow
  | other (name : String)
  deriving DecidableEq

structure TokenBucket where
  capacity : ℚ := 100
  refillRate : ℚ := 10
  refillIntervalMs : ℚ := 1000
  burstAllowance : ℚ := 20

structure LeakyBucket where
  drainRate : ℚ := 10
  drainIntervalMs : ℚ := 1000
  maxQueueDepth : ℤ := 100

/-- The configuration of the window algorithms. -/
structure SlidingWindowCounter where
  windowDurationS : ℚ := 60
  maxRequests : ℤ := 100

structure RateLimitPolicy where
  id : String
  enabled : Bool := true
  order : ℤ := 0
  scope : QuotaScope := .global
  scopeId : String := ""
  algorithm : RateLimitAlgorithm := .tokenBucket
  tokenBucket : TokenBucket := {}
  leakyBucket : LeakyBucket := {}
  slidingWindow : SlidingWindowCounter := {}
  maxBurst : ℤ := 0
  queueMaxSize : ℤ := 0

/-- The answer of the rate limiter. -/
structure RateLimitDecision where
  approved : Bool := false
  rejected : Bool := false
  queued : Bool := false
  delayed : Bool := false
  reason : String := ""
  policyId : String := ""
  algorithm : Option RateLimitAlgorithm := none
  retryAfterMs : ℚ := 0
  estimatedWaitMs : ℚ := 0
  queuePosition : ℤ := 0
  tokensRemaining : ℚ := 0
  deriving DecidableEq

/-- `int(x)`: truncation towards zero. -/
def truncate (value : ℚ) : ℤ :=
  if value < 0 then ⌈value⌉ else ⌊value⌋

/-- `int(cycles * rate)`. There is no integer for an infinite float. -/
def intOfProduct (cycles rate : ℚ) : Except String ℤ :=
  if floatOverflow ≤ |cycles| ∧ rate = 0 then .error "cannot convert float NaN to integer"
  else if floatOverflow ≤ |cycles| ∨ floatOverflow ≤ |cycles * rate| then
    .error "cannot convert float infinity to integer"
  else .ok (truncate (cycles * rate))

structure TokenBucketState where
  config : TokenBucket
  tokens : ℚ
  lastRefill : ℚ
  burstUsed : ℚ

namespace TokenBucketState

def create (config : TokenBucket) (mono : ℚ) : TokenBucketState where
  config := config
  tokens := config.capacity
  lastRefill := mono
  burstUsed := 0

def refill (bucket : TokenBucketState) (mono : ℚ) : Except String TokenBucketState :=
  let elapsed := (mono - bucket.lastRefill) * 1000
  if bucket.config.refillIntervalMs ≤ elapsed then
    if bucket.config.refillIntervalMs = 0 then .error "float division by zero"
    else
      let added := elapsed / bucket.config.refillIntervalMs * bucket.config.refillRate
      .ok { bucket with
        tokens := min (bucket.config.capacity + bucket.config.burstAllowance)
          (bucket.tokens + added)
        lastRefill := mono }
  else .ok bucket

/-- What is left after a refill, the allowance included. -/
def available (bucket : TokenBucketState) : ℚ :=
  bucket.tokens + bucket.config.burstAllowance - bucket.burstUsed

def tryConsume (bucket : TokenBucketState) : Option TokenBucketState :=
  if 1 ≤ bucket.tokens then some { bucket with tokens := bucket.tokens - 1 } else none

/-- Take a token of a refilled bucket, from the allowance where none is left. -/
def tryConsumeBurst (bucket : TokenBucketState) : Option TokenBucketState :=
  if 1 ≤ bucket.available then
    let neededFromTokens : ℚ := min 1 (truncate bucket.tokens)
    let remaining := 1 - neededFromTokens
    some { bucket with
      tokens := bucket.tokens - neededFromTokens
      burstUsed := if 0 < remaining then bucket.burstUsed + remaining else bucket.burstUsed }
  else none

end TokenBucketState

structure LeakyBucketState where
  config : LeakyBucket
  queue : List ℚ
  lastDrain : ℚ

namespace LeakyBucketState

def create (config : LeakyBucket) (mono : ℚ) : LeakyBucketState where
  config := config
  queue := []
  lastDrain := mono

def drain (bucket : LeakyBucketState) (mono : ℚ) : Except String LeakyBucketState :=
  let elapsed := (mono - bucket.lastDrain) * 1000
  if bucket.config.drainIntervalMs ≤ elapsed then
    if bucket.config.drainIntervalMs = 0 then .error "float division by zero"
    else
      match intOfProduct (elapsed / bucket.config.drainIntervalMs) bucket.config.drainRate with
      | .error error => .error error
      | .ok toDrain =>
        .ok { bucket with queue := bucket.queue.drop toDrain.toNat, lastDrain := mono }
  else .ok bucket

def tryAdd (bucket : LeakyBucketState) (size : ℚ) : Option LeakyBucketState :=
  if bucket.queue.length < bucket.config.maxQueueDepth then
    some { bucket with queue := bucket.queue ++ [size] }
  else none

end LeakyBucketState

structure RateSlidingWindow where
  maxDuration : ℚ
  maxRequests : ℤ := 100
  entries : List Timestamp := []

namespace RateSlidingWindow

def record (window : RateSlidingWindow) (now : Timestamp) : RateSlidingWindow :=
  { window with entries := window.entries ++ [now] }

def expire (window : RateSlidingWindow) (now : Timestamp) : RateSlidingWindow :=
  { window with entries := window.entries.dropWhile fun entry => entry < now - window.maxDuration }

/-- An expired window is full. -/
def isExceeded (window : RateSlidingWindow) : Bool :=
  window.maxRequests ≤ window.entries.length

end RateSlidingWindow

/-- The names and the durations of the sliding windows of a policy, in seconds. -/
def windowDurations : List (String × ℚ) :=
  [("5s", 5), ("30s", 30), ("1m", 60), ("5m", 300), ("15m", 900), ("1h", 3600), ("24h", 86400),
    ("lifetime", 315360000)]

structure FixedWindowCounter where
  maxPerWindow : ℤ
  windowSeconds : ℚ
  count : ℤ
  windowStart : ℚ

namespace FixedWindowCounter

def checkReset (window : FixedWindowCounter) (mono : ℚ) : FixedWindowCounter :=
  if window.windowSeconds ≤ mono - window.windowStart then
    { window with count := 0, windowStart := mono }
  else window

/-- The answer, and the window, which is reset first in any case. -/
def tryConsume (window : FixedWindowCounter) (mono : ℚ) : Bool × FixedWindowCounter :=
  let window := window.checkReset mono
  if window.count < window.maxPerWindow then (true, { window with count := window.count + 1 })
  else (false, window)

end FixedWindowCounter

/-! ## Queued requests -/

/-- A request that waits in the rate limiter. -/
structure LimiterEntry where
  provider : String
  model : String
  priority : PriorityLevel
  arrivedAt : ℚ

/-- The priority queues. There is none for background requests. -/
structure QueueManager where
  critical : List LimiterEntry := []
  high : List LimiterEntry := []
  normal : List LimiterEntry := []
  low : List LimiterEntry := []
  bulk : List LimiterEntry := []

namespace QueueManager

/-- All entries, the most urgent queue first. -/
def entries (queues : QueueManager) : List LimiterEntry :=
  queues.critical ++ queues.high ++ queues.normal ++ queues.low ++ queues.bulk

def totalDepth (queues : QueueManager) : ℤ :=
  queues.entries.length

def enqueue (queues : QueueManager) (entry : LimiterEntry) : Except String QueueManager :=
  match entry.priority with
  | .critical => .ok { queues with critical := queues.critical ++ [entry] }
  | .high => .ok { queues with high := queues.high ++ [entry] }
  | .normal => .ok { queues with normal := queues.normal ++ [entry] }
  | .low => .ok { queues with low := queues.low ++ [entry] }
  | .bulk => .ok { queues with bulk := queues.bulk ++ [entry] }
  | .background => .error "background"

theorem entries_enqueue {queues queues' : QueueManager} {entry : LimiterEntry}
    (enqueued : queues.enqueue entry = .ok queues') :
    queues'.entries.Perm (entry :: queues.entries) := by
  have insertion : ∀ before after : List LimiterEntry,
      (before ++ [entry] ++ after).Perm (entry :: (before ++ after)) := by
    intro before after
    rw [append_assoc]
    exact perm_middle
  rw [enqueue] at enqueued
  unfold entries
  split at enqueued
  · cases enqueued
    simp
  · cases enqueued
    simpa using insertion (queues.critical ++ queues.high)
      (queues.normal ++ queues.low ++ queues.bulk)
  · cases enqueued
    simpa using insertion (queues.critical ++ queues.high ++ queues.normal)
      (queues.low ++ queues.bulk)
  · cases enqueued
    simpa using insertion (queues.critical ++ queues.high ++ queues.normal ++ queues.low)
      queues.bulk
  · cases enqueued
    have appended := insertion
      (queues.critical ++ queues.high ++ queues.normal ++ queues.low ++ queues.bulk) []
    simpa using appended
  · cases enqueued

end QueueManager

def predictRetry (queueDepth drainRate tokensRemaining refillRate : ℚ) : ℚ :=
  let queueDelay := if 0 < drainRate then queueDepth / max drainRate (1 / 1000) * 1000 else 0
  let refillWait :=
    if 0 < refillRate then (1 - tokensRemaining) / max refillRate (1 / 1000) * 1000
    else if 1 ≤ tokensRemaining then 0
    else 5000
  Decimal.roundTo 2 (queueDelay + refillWait)

structure PolicyRuntimeState where
  policy : RateLimitPolicy
  tokenBucket : TokenBucketState
  leakyBucket : LeakyBucketState
  slidingWindows : Dict String RateSlidingWindow
  fixedWindow : FixedWindowCounter

def PolicyRuntimeState.create (policy : RateLimitPolicy) (mono : ℚ) : PolicyRuntimeState where
  policy := policy
  tokenBucket := TokenBucketState.create policy.tokenBucket mono
  leakyBucket := LeakyBucketState.create policy.leakyBucket mono
  slidingWindows := Dict.ofList <| windowDurations.map fun window =>
    (window.1, { maxDuration := window.2, maxRequests := policy.slidingWindow.maxRequests })
  fixedWindow :=
    { maxPerWindow := policy.slidingWindow.maxRequests
      windowSeconds := policy.slidingWindow.windowDurationS
      count := 0
      windowStart := mono }

structure RateLimiterEngineImpl where
  started : Bool := false
  policies : Dict String PolicyRuntimeState := Dict.empty
  queueManager : QueueManager := {}

namespace RateLimiterEngineImpl

structure PermitRequest where
  provider : String
  model : String
  scopeId : String := ""
  priority : PriorityLevel := .normal

def createPolicy (engine : RateLimiterEngineImpl) (mono : ℚ) (policy : RateLimitPolicy) :
    RateLimiterEngineImpl :=
  { engine with
    policies := engine.policies.set policy.id (PolicyRuntimeState.create policy mono) }

def Matches (policy : RateLimitPolicy) (request : PermitRequest) : Prop :=
  policy.enabled ∧
    match policy.scope with
    | .global => True
    | .provider => policy.scopeId = request.provider
    | .model => policy.scopeId = request.model
    | .workspace | .user => request.scopeId ≠ "" ∧ policy.scopeId = request.scopeId
    | .organization | .agent => False

instance (policy : RateLimitPolicy) (request : PermitRequest) :
    Decidable (Matches policy request) :=
  @instDecidableAnd _ _ inferInstance <|
    match policy.scope with
    | .global => inferInstanceAs (Decidable True)
    | .provider => inferInstanceAs (Decidable (policy.scopeId = request.provider))
    | .model => inferInstanceAs (Decidable (policy.scopeId = request.model))
    | .workspace | .user =>
      inferInstanceAs (Decidable (request.scopeId ≠ "" ∧ policy.scopeId = request.scopeId))
    | .organization | .agent => inferInstanceAs (Decidable False)

def findMatchingPolicies (engine : RateLimiterEngineImpl) (request : PermitRequest) :
    List (String × PolicyRuntimeState) :=
  (engine.policies.entries.filter fun entry => Matches entry.2.policy request).insertionSort
    fun left right => right.2.policy.order ≤ left.2.policy.order

structure PolicyEvaluation where
  state : PolicyRuntimeState
  queues : QueueManager

variable (evaluation : PolicyEvaluation)

/-- A full policy: queue the request where the policy allows it and the queues are short
enough, refuse it otherwise. -/
def queueOr (mono : ℚ) (request : PermitRequest)
    (queued : QueueManager → ℤ → RateLimitDecision) (refused : RateLimitDecision) :
    Except String RateLimitDecision × PolicyEvaluation :=
  let policy := evaluation.state.policy
  if 0 < policy.queueMaxSize ∧ evaluation.queues.totalDepth < policy.queueMaxSize then
    match evaluation.queues.enqueue
        { provider := request.provider
          model := request.model
          priority := request.priority
          arrivedAt := mono } with
    | .error error => (.error error, evaluation)
    | .ok queues =>
      (.ok (queued queues (evaluation.queues.totalDepth + 1)), { evaluation with queues })
  else (.ok refused, evaluation)

/-- The token bucket: a token, a burst, a place in the queue, or a refusal. -/
def evaluateTokenBucket (mono : ℚ) (request : PermitRequest) :
    Except String RateLimitDecision × PolicyEvaluation :=
  let state := evaluation.state
  let policy := state.policy
  match state.tokenBucket.refill mono with
  | .error error => (.error error, evaluation)
  | .ok bucket =>
    let refilled := { evaluation with state := { state with tokenBucket := bucket } }
    match bucket.tryConsume with
    | some bucket =>
      (.ok { approved := true, algorithm := some .tokenBucket },
        { evaluation with state := { state with tokenBucket := bucket } })
    | none =>
      let retryAfter (bucket : TokenBucketState) (queues : QueueManager) : ℚ :=
        predictRetry queues.totalDepth 10 bucket.available policy.tokenBucket.refillRate
      match if 0 < policy.maxBurst then bucket.tryConsumeBurst else none with
      | some bucket =>
        (.ok
          { approved := true
            algorithm := some .tokenBucket
            delayed := true
            reason := "burst consumed"
            retryAfterMs := retryAfter bucket evaluation.queues
            tokensRemaining := bucket.available },
          { evaluation with state := { state with tokenBucket := bucket } })
      | none =>
        queueOr refilled mono request
          (fun queues position =>
            { queued := true
              reason := "token bucket empty"
              retryAfterMs := retryAfter bucket queues
              estimatedWaitMs := retryAfter bucket queues
              queuePosition := position
              tokensRemaining := bucket.available })
          { rejected := true
            reason := "token bucket empty"
            retryAfterMs := retryAfter bucket evaluation.queues
            tokensRemaining := bucket.available }

/-- The leaky bucket: a place in the bucket, a place in the queue, or a refusal. -/
def evaluateLeakyBucket (mono : ℚ) (request : PermitRequest) :
    Except String RateLimitDecision × PolicyEvaluation :=
  let state := evaluation.state
  match state.leakyBucket.drain mono with
  | .error error => (.error error, evaluation)
  | .ok bucket =>
    let drained := { evaluation with state := { state with leakyBucket := bucket } }
    match bucket.tryAdd 1 with
    | some bucket =>
      (.ok { approved := true, algorithm := some .leakyBucket },
        { evaluation with state := { state with leakyBucket := bucket } })
    | none =>
      let retryAfter :=
        predictRetry bucket.queue.length state.policy.leakyBucket.drainRate 0 0
      queueOr drained mono request
        (fun _ position =>
          { queued := true
            reason := "leaky bucket full"
            retryAfterMs := retryAfter
            estimatedWaitMs := retryAfter
            queuePosition := position })
        { rejected := true, reason := "leaky bucket overflow", retryAfterMs := 5000 }

/-- The sliding window. Whatever duration the policy asks for, the window of one minute is
used. -/
def evaluateSlidingWindow (now : Timestamp) : RateLimitDecision × PolicyEvaluation :=
  let state := evaluation.state
  match state.slidingWindows.get? "1m" with
  | none => ({ approved := true, algorithm := some .slidingWindow }, evaluation)
  | some window =>
    let window := window.expire now
    let store (window : RateSlidingWindow) : PolicyEvaluation :=
      { evaluation with
        state := { state with slidingWindows := state.slidingWindows.set "1m" window } }
    if window.isExceeded then
      ({ rejected := true
         reason := "sliding window exceeded"
         retryAfterMs := predictRetry evaluation.queues.totalDepth 10 0 0 }, store window)
    else ({ approved := true, algorithm := some .slidingWindow }, store (window.record now))

def evaluateFixedWindow (mono : ℚ) : RateLimitDecision × PolicyEvaluation :=
  let state := evaluation.state
  let (consumed, window) := state.fixedWindow.tryConsume mono
  let evaluation := { evaluation with state := { state with fixedWindow := window } }
  if consumed then ({ approved := true, algorithm := some .fixedWindow }, evaluation)
  else
    ({ rejected := true
       reason := "fixed window exceeded"
       retryAfterMs := state.policy.slidingWindow.windowDurationS * 1000 }, evaluation)

def evaluatePolicy (instant : Instant) (request : PermitRequest) :
    Except String RateLimitDecision × PolicyEvaluation :=
  match evaluation.state.policy.algorithm with
  | .tokenBucket => evaluateTokenBucket evaluation instant.mono request
  | .leakyBucket => evaluateLeakyBucket evaluation instant.mono request
  | .slidingWindow =>
    let (decision, evaluation) := evaluateSlidingWindow evaluation instant.now
    (.ok decision, evaluation)
  | .fixedWindow =>
    let (decision, evaluation) := evaluateFixedWindow evaluation instant.mono
    (.ok decision, evaluation)
  | .other name => (.ok { approved := true, algorithm := some (.other name) }, evaluation)

/-- The loop over the matching policies, with the decision if all of them approve. -/
def evaluateMatching (instant : Instant) (request : PermitRequest) (passed : RateLimitDecision) :
    RateLimiterEngineImpl → List (String × PolicyRuntimeState) →
      Except String RateLimitDecision × RateLimiterEngineImpl
  | engine, [] => (.ok passed, engine)
  | engine, (key, state) :: rest =>
    let (result, evaluation) :=
      evaluatePolicy { state, queues := engine.queueManager } instant request
    let engine :=
      { engine with
        policies := engine.policies.set key evaluation.state
        queueManager := evaluation.queues }
    match result with
    | .error error => (.error error, engine)
    | .ok decision =>
      if decision.queued then
        (.ok
          { queued := true
            policyId := state.policy.id
            algorithm := some state.policy.algorithm
            estimatedWaitMs := decision.estimatedWaitMs
            queuePosition := decision.queuePosition }, engine)
      else if decision.approved then evaluateMatching instant request passed engine rest
      else
        (.ok
          { rejected := true
            reason := decision.reason
            policyId := state.policy.id
            algorithm := some state.policy.algorithm
            retryAfterMs := decision.retryAfterMs
            tokensRemaining := decision.tokensRemaining }, engine)

def evaluate (engine : RateLimiterEngineImpl) (instant : Instant) (request : PermitRequest) :
    Except String RateLimitDecision × RateLimiterEngineImpl :=
  if engine.started then
    match engine.findMatchingPolicies request with
    | [] => (.ok { approved := true, reason := "no applicable policies" }, engine)
    | first :: rest =>
      evaluateMatching instant request
        { approved := true
          reason := "all policies passed"
          algorithm := some first.2.policy.algorithm } engine (first :: rest)
  else (.ok { approved := true, reason := "engine not started" }, engine)

/-! ## What an evaluation leaves as it is -/

/-- The entries stay, and every new one is for the request. -/
def AddsOnlyFor (request : PermitRequest) (before after : QueueManager) : Prop :=
  ∃ added, after.entries.Perm (added ++ before.entries) ∧
    ∀ entry ∈ added, entry.provider = request.provider ∧ entry.model = request.model

theorem AddsOnlyFor.refl (request : PermitRequest) (queues : QueueManager) :
    AddsOnlyFor request queues queues := by
  refine ⟨[], .refl _, ?_⟩
  intro entry member
  cases member

theorem AddsOnlyFor.trans {request : PermitRequest} {first second third : QueueManager}
    (earlier : AddsOnlyFor request first second) (later : AddsOnlyFor request second third) :
    AddsOnlyFor request first third := by
  obtain ⟨firstAdded, firstPerm, firstFor⟩ := earlier
  obtain ⟨secondAdded, secondPerm, secondFor⟩ := later
  refine ⟨secondAdded ++ firstAdded, ?_, ?_⟩
  · rw [append_assoc]
    exact secondPerm.trans (firstPerm.append_left secondAdded)
  · intro entry member
    rcases mem_append.mp member with inSecond | inFirst
    · exact secondFor entry inSecond
    · exact firstFor entry inFirst

theorem addsOnlyFor_queueOr (mono : ℚ) (request : PermitRequest)
    (queued : QueueManager → ℤ → RateLimitDecision) (refused : RateLimitDecision) :
    AddsOnlyFor request evaluation.queues
      (queueOr evaluation mono request queued refused).2.queues := by
  unfold queueOr
  dsimp only
  split
  · split
    · exact .refl request evaluation.queues
    · next queues enqueued =>
        refine ⟨[_], QueueManager.entries_enqueue enqueued, ?_⟩
        intro entry member
        rw [mem_singleton.mp member]
        exact ⟨rfl, rfl⟩
  · exact .refl request evaluation.queues

theorem addsOnlyFor_evaluatePolicy (instant : Instant) (request : PermitRequest) :
    AddsOnlyFor request evaluation.queues (evaluatePolicy evaluation instant request).2.queues := by
  have unchanged := AddsOnlyFor.refl request evaluation.queues
  rw [evaluatePolicy]
  split
  · rw [evaluateTokenBucket]
    split
    · exact unchanged
    · split
      · exact unchanged
      · split
        · exact unchanged
        · exact addsOnlyFor_queueOr _ _ _ _ _
  · rw [evaluateLeakyBucket]
    split
    · exact unchanged
    · split
      · exact unchanged
      · exact addsOnlyFor_queueOr _ _ _ _ _
  · rw [evaluateSlidingWindow]
    dsimp only
    split
    · exact unchanged
    · split
      · exact unchanged
      · exact unchanged
  · rw [evaluateFixedWindow]
    dsimp only
    split
    · exact unchanged
    · exact unchanged
  · exact unchanged

theorem evaluateMatching_frame (instant : Instant) (request : PermitRequest)
    (passed : RateLimitDecision) (engine : RateLimiterEngineImpl)
    (matching : List (String × PolicyRuntimeState)) : (∀ key, key ∉ matching.map Prod.fst →
      (evaluateMatching instant request passed engine matching).2.policies.get? key =
        engine.policies.get? key) ∧
    AddsOnlyFor request engine.queueManager
      (evaluateMatching instant request passed engine matching).2.queueManager := by
  induction matching generalizing engine with
  | nil => exact ⟨fun _ _ => rfl, .refl request engine.queueManager⟩
  | cons entry rest ih =>
    rcases entry with ⟨key, state⟩
    have adds := addsOnlyFor_evaluatePolicy { state, queues := engine.queueManager } instant request
    have other : ∀ asked, asked ∉ ((key, state) :: rest).map Prod.fst → asked ≠ key ∧
        asked ∉ rest.map Prod.fst := by
      intro asked absent
      constructor
      · rintro rfl
        exact absent mem_cons_self
      · exact fun member => absent (mem_cons_of_mem key member)
    rw [evaluateMatching]
    dsimp only
    split
    · exact ⟨fun asked absent => Dict.get?_set_ne _ (other asked absent).1 _, adds⟩
    · split
      · exact ⟨fun asked absent => Dict.get?_set_ne _ (other asked absent).1 _, adds⟩
      · split
        · have later := ih
            { engine with
              policies := engine.policies.set key
                (evaluatePolicy { state, queues := engine.queueManager } instant request).2.state
              queueManager :=
                (evaluatePolicy { state, queues := engine.queueManager } instant request).2.queues }
          constructor
          · intro asked absent
            rw [later.1 asked (other asked absent).2]
            exact Dict.get?_set_ne _ (other asked absent).1 _
          · exact adds.trans later.2
        · exact ⟨fun asked absent => Dict.get?_set_ne _ (other asked absent).1 _, adds⟩

theorem evaluate_frame (engine : RateLimiterEngineImpl) (instant : Instant)
    (request : PermitRequest) :
    (∀ key, (∀ state, engine.policies.get? key = some state → ¬ Matches state.policy request) →
      (engine.evaluate instant request).2.policies.get? key = engine.policies.get? key) ∧
    AddsOnlyFor request engine.queueManager (engine.evaluate instant request).2.queueManager := by
  rw [evaluate]
  split
  · split
    · exact ⟨fun _ _ => rfl, .refl request engine.queueManager⟩
    · next first rest matching =>
        have frame := evaluateMatching_frame instant request
          { approved := true
            reason := "all policies passed"
            algorithm := some first.2.policy.algorithm } engine (first :: rest)
        constructor
        · intro key unmatched
          apply frame.1
          intro member
          rw [← matching] at member
          rcases mem_map.mp member with ⟨⟨asked, state⟩, found, rfl⟩
          have kept := (mem_insertionSort _).mp found
          have parts := mem_filter.mp kept
          have stored : engine.policies.get? asked = some state := Dict.get?_eq_some_iff.mpr parts.1
          exact unmatched state stored (of_decide_eq_true parts.2)
        · exact frame.2
  · exact ⟨fun _ _ => rfl, .refl request engine.queueManager⟩

end RateLimiterEngineImpl

end AgenticOS.OmniRoute
