import AgenticOS.OmniRoute.RateLimiter

/-!
# One policy of the rate limiter

Whether a policy approves a request, and what it keeps of it, depends on its own state and
the time only: neither on the request nor on the queues that all policies share.
-/

namespace AgenticOS.OmniRoute

open List

theorem TokenBucketState.tryConsumeBurst_eq_some {bucket taken : TokenBucketState}
    (less : bucket.tokens < 1) (takes : bucket.tryConsumeBurst = some taken) :
    1 ≤ bucket.available ∧ ∃ needed : ℚ, needed ≤ 0 ∧ bucket.tokens - needed ≤ max bucket.tokens 0 ∧
      taken = { bucket with
        tokens := bucket.tokens - needed
        burstUsed := bucket.burstUsed + (1 - needed) } := by
  obtain ⟨needed, isNeeded⟩ :
      ∃ needed : ℚ, needed = min 1 (truncate bucket.tokens : ℚ) := ⟨_, rfl⟩
  have kept : needed ≤ 0 ∧ bucket.tokens - needed ≤ max bucket.tokens 0 := by
    rw [isNeeded, truncate]
    split
    next owed =>
      have above := Int.le_ceil bucket.tokens
      have negative : (⌈bucket.tokens⌉ : ℚ) ≤ 0 := by
        exact_mod_cast Int.ceil_le.mpr (by exact_mod_cast owed.le)
      rw [min_eq_right (negative.trans zero_le_one)]
      exact ⟨negative, le_max_of_le_right (sub_nonpos.mpr above)⟩
    next nonneg =>
      have whole : ⌊bucket.tokens⌋ = 0 := Int.floor_eq_zero_iff.mpr ⟨not_lt.mp nonneg, less⟩
      rw [whole, Int.cast_zero, min_eq_right zero_le_one, sub_zero]
      exact ⟨le_refl 0, le_max_left _ _⟩
  rw [tryConsumeBurst] at takes
  split at takes
  next room =>
    dsimp only at takes
    rw [← isNeeded, if_pos (by linarith [kept.1])] at takes
    cases takes
    exact ⟨room, needed, kept.1, kept.2, rfl⟩
  · cases takes

def TokenBucketState.ask (bucket : TokenBucketState) (maxBurst : ℤ) (mono : ℚ) :
    Bool × TokenBucketState :=
  match bucket.refill mono with
  | .error _ => (false, bucket)
  | .ok refilled =>
    match refilled.tryConsume with
    | some taken => (true, taken)
    | none =>
      match if 0 < maxBurst then refilled.tryConsumeBurst else none with
      | some taken => (true, taken)
      | none => (false, refilled)

def LeakyBucketState.ask (bucket : LeakyBucketState) (mono : ℚ) : Bool × LeakyBucketState :=
  match bucket.drain mono with
  | .error _ => (false, bucket)
  | .ok drained =>
    match drained.tryAdd 1 with
    | some added => (true, added)
    | none => (false, drained)

def RateSlidingWindow.ask (window : RateSlidingWindow) (now : Timestamp) :
    Bool × RateSlidingWindow :=
  let window := window.expire now
  if window.isExceeded then (false, window) else (true, window.record now)

namespace PolicyRuntimeState

def ask (state : PolicyRuntimeState) (instant : Instant) : Bool × PolicyRuntimeState :=
  match state.policy.algorithm with
  | .tokenBucket =>
    let (approved, tokenBucket) := state.tokenBucket.ask state.policy.maxBurst instant.mono
    (approved, { state with tokenBucket })
  | .leakyBucket =>
    let (approved, leakyBucket) := state.leakyBucket.ask instant.mono
    (approved, { state with leakyBucket })
  | .slidingWindow =>
    match state.slidingWindows.get? "1m" with
    | none => (true, state)
    | some window =>
      let (approved, window) := window.ask instant.now
      (approved, { state with slidingWindows := state.slidingWindows.set "1m" window })
  | .fixedWindow =>
    let (approved, fixedWindow) := state.fixedWindow.tryConsume instant.mono
    (approved, { state with fixedWindow })
  | .other _ => (true, state)

/-- The answers to requests at the given times. -/
def answers : PolicyRuntimeState → List Instant → List Bool
  | _, [] => []
  | state, instant :: later => (state.ask instant).1 :: answers (state.ask instant).2 later

theorem answers_replicate {state : PolicyRuntimeState} {instant : Instant}
    (approved : (state.ask instant).1 = true)
    (same : ∀ count, (state.ask instant).2.answers (replicate count instant) =
      state.answers (replicate count instant)) (count : Nat) :
    state.answers (replicate count instant) = replicate count true := by
  induction count with
  | zero => rfl
  | succ count ih => rw [replicate_succ, answers, approved, same count, ih, replicate_succ]

end PolicyRuntimeState

namespace RateLimiterEngineImpl

/-- The answer is an approval; one that raises is none. -/
def approves : Except String RateLimitDecision → Bool
  | .ok decision => decision.approved
  | .error _ => false

variable (evaluation : PolicyEvaluation)

section

variable (mono : ℚ) (request : PermitRequest)

theorem queueOr_spec {queued : QueueManager → ℤ → RateLimitDecision} {refused : RateLimitDecision}
    (queues : ∀ queues position, (queued queues position).approved = false)
    (refuses : refused.approved = false) :
    approves (queueOr evaluation mono request queued refused).1 = false ∧
      (queueOr evaluation mono request queued refused).2.state = evaluation.state := by
  unfold queueOr
  dsimp only
  split
  · split
    · exact ⟨rfl, rfl⟩
    · exact ⟨queues _ _, rfl⟩
  · exact ⟨refuses, rfl⟩

theorem evaluateTokenBucket_spec : approves (evaluateTokenBucket evaluation mono request).1 =
        (evaluation.state.tokenBucket.ask evaluation.state.policy.maxBurst mono).1 ∧
      (evaluateTokenBucket evaluation mono request).2.state =
        { evaluation.state with tokenBucket :=
            (evaluation.state.tokenBucket.ask evaluation.state.policy.maxBurst mono).2 } := by
  rw [evaluateTokenBucket, TokenBucketState.ask]
  cases evaluation.state.tokenBucket.refill mono with
  | error error => exact ⟨rfl, rfl⟩
  | ok refilled =>
    dsimp only
    cases refilled.tryConsume with
    | some taken => exact ⟨rfl, rfl⟩
    | none =>
      cases if 0 < evaluation.state.policy.maxBurst then refilled.tryConsumeBurst else none with
      | some taken => exact ⟨rfl, rfl⟩
      | none => exact queueOr_spec _ _ _ (fun _ _ => rfl) rfl

theorem evaluateLeakyBucket_spec : approves (evaluateLeakyBucket evaluation mono request).1 =
        (evaluation.state.leakyBucket.ask mono).1 ∧
      (evaluateLeakyBucket evaluation mono request).2.state =
        { evaluation.state with leakyBucket := (evaluation.state.leakyBucket.ask mono).2 } := by
  rw [evaluateLeakyBucket, LeakyBucketState.ask]
  cases evaluation.state.leakyBucket.drain mono with
  | error error => exact ⟨rfl, rfl⟩
  | ok drained =>
    dsimp only
    cases drained.tryAdd 1 with
    | some added => exact ⟨rfl, rfl⟩
    | none => exact queueOr_spec _ _ _ (fun _ _ => rfl) rfl

end

theorem evaluatePolicy_spec (instant : Instant) (request : PermitRequest) :
    approves (evaluatePolicy evaluation instant request).1 = (evaluation.state.ask instant).1 ∧
      (evaluatePolicy evaluation instant request).2.state = (evaluation.state.ask instant).2 := by
  rw [evaluatePolicy, PolicyRuntimeState.ask]
  cases evaluation.state.policy.algorithm with
  | tokenBucket => exact evaluateTokenBucket_spec evaluation instant.mono request
  | leakyBucket => exact evaluateLeakyBucket_spec evaluation instant.mono request
  | slidingWindow =>
    unfold evaluateSlidingWindow RateSlidingWindow.ask
    dsimp only
    cases evaluation.state.slidingWindows.get? "1m" with
    | none => exact ⟨rfl, rfl⟩
    | some window =>
      dsimp only
      split
      · exact ⟨rfl, rfl⟩
      · exact ⟨rfl, rfl⟩
  | fixedWindow =>
    rw [evaluateFixedWindow]
    cases evaluation.state.fixedWindow.tryConsume instant.mono with
    | mk consumed window => cases consumed <;> exact ⟨rfl, rfl⟩
  | other name => exact ⟨rfl, rfl⟩

def admissions : PolicyEvaluation → List (Instant × PermitRequest) → List Bool
  | _, [] => []
  | evaluation, (instant, request) :: later =>
    approves (evaluatePolicy evaluation instant request).1 ::
      admissions (evaluatePolicy evaluation instant request).2 later

theorem admissions_eq (requests : List (Instant × PermitRequest)) :
    admissions evaluation requests = evaluation.state.answers (requests.map Prod.fst) := by
  induction requests generalizing evaluation with
  | nil => rfl
  | cons asked later ih =>
    rcases asked with ⟨instant, request⟩
    rcases evaluatePolicy_spec evaluation instant request with ⟨approved, after⟩
    rw [admissions, ih, approved, after, map_cons, PolicyRuntimeState.answers]

end RateLimiterEngineImpl

end AgenticOS.OmniRoute
