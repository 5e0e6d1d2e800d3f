import AgenticOS.OmniRoute.RateLimiter.Policies

/-!
# How many requests a policy approves at one time

Each approval uses something up, so that a policy that keeps count approves only finitely
many requests at one time. Only a policy with an unknown algorithm, or with a fixed window
that has no length, approves as many as there are.
-/

namespace AgenticOS.OmniRoute

open List

/-- The policy keeps no count of the requests that it approves. -/
def RateLimitPolicy.Unlimited (policy : RateLimitPolicy) : Prop :=
  match policy.algorithm with
  | .fixedWindow => policy.slidingWindow.windowDurationS ≤ 0
  | .other _ => True
  | .tokenBucket | .leakyBucket | .slidingWindow => False

instance (policy : RateLimitPolicy) : Decidable policy.Unlimited :=
  match algorithm : policy.algorithm with
  | .fixedWindow =>
    decidable_of_iff (policy.slidingWindow.windowDurationS ≤ 0)
      (by unfold RateLimitPolicy.Unlimited; rw [algorithm])
  | .other _ => .isTrue (by unfold RateLimitPolicy.Unlimited; rw [algorithm]; trivial)
  | .tokenBucket | .leakyBucket | .slidingWindow =>
    .isFalse (by unfold RateLimitPolicy.Unlimited; rw [algorithm]; exact id)

namespace TokenBucketState

variable {bucket : TokenBucketState} {mono : ℚ} {maxBurst : ℤ}

def Settled (mono : ℚ) (bucket : TokenBucketState) : Prop :=
  (mono - bucket.lastRefill) * 1000 < bucket.config.refillIntervalMs ∨
    bucket.lastRefill = mono ∧ bucket.config.refillIntervalMs ≠ 0

/-- The requests that the bucket can still approve are at most as many. -/
def stock (bucket : TokenBucketState) : Nat :=
  ⌈bucket.available⌉₊ + ⌈bucket.tokens⌉₊

theorem settled_of_refill {refilled : TokenBucketState}
    (refills : bucket.refill mono = .ok refilled) : refilled.Settled mono := by
  rw [refill] at refills
  split at refills
  · split at refills
    · cases refills
    next positive =>
      cases refills
      exact .inr ⟨rfl, positive⟩
  next early =>
    cases refills
    exact .inl (not_le.mp early)

variable {taken : TokenBucketState}

theorem Settled.tryConsume (settled : bucket.Settled mono)
    (takes : bucket.tryConsume = some taken) : taken.Settled mono := by
  rw [TokenBucketState.tryConsume] at takes
  split at takes
  · cases takes
    exact settled
  · cases takes

theorem Settled.tryConsumeBurst (settled : bucket.Settled mono)
    (takes : bucket.tryConsumeBurst = some taken) : taken.Settled mono := by
  rw [TokenBucketState.tryConsumeBurst] at takes
  split at takes
  · cases takes
    exact settled
  · cases takes

theorem stock_refill_le (settled : bucket.Settled mono) {refilled : TokenBucketState}
    (refills : bucket.refill mono = .ok refilled) : refilled.stock ≤ bucket.stock := by
  rw [refill] at refills
  dsimp only at refills
  split at refills
  next due =>
    rcases settled with early | ⟨same, positive⟩
    · exact absurd due (not_le.mpr early)
    · rw [if_neg positive, same, sub_self, zero_mul, zero_div, zero_mul, add_zero] at refills
      cases refills
      have tokens := min_le_right (bucket.config.capacity + bucket.config.burstAllowance)
        bucket.tokens
      unfold stock available
      gcongr
  · cases refills
    exact le_refl _

theorem ceil_sub_one_lt {amount : ℚ} (whole : 1 ≤ amount) : ⌈amount - 1⌉₊ < ⌈amount⌉₊ := by
  rw [Nat.lt_ceil]
  have rounded := Nat.ceil_lt_add_one (sub_nonneg.mpr whole)
  linarith

theorem stock_tryConsume_lt (takes : bucket.tryConsume = some taken) :
    taken.stock < bucket.stock := by
  rw [tryConsume] at takes
  split at takes
  next token =>
    cases takes
    have fewer := ceil_sub_one_lt token
    have notMore : ⌈bucket.tokens - 1 + bucket.config.burstAllowance - bucket.burstUsed⌉₊ ≤
        ⌈bucket.tokens + bucket.config.burstAllowance - bucket.burstUsed⌉₊ := by
      apply Nat.ceil_mono
      linarith
    unfold stock available
    dsimp only
    omega
  · cases takes

theorem stock_tryConsumeBurst_lt (empty : bucket.tryConsume = none)
    (takes : bucket.tryConsumeBurst = some taken) : taken.stock < bucket.stock := by
  have less : bucket.tokens < 1 := by
    rw [tryConsume] at empty
    by_contra token
    rw [if_pos (not_lt.mp token)] at empty
    cases empty
  rcases tryConsumeBurst_eq_some less takes with ⟨room, needed, -, kept, rfl⟩
  have fewer := ceil_sub_one_lt room
  have rest : bucket.tokens - needed + bucket.config.burstAllowance -
      (bucket.burstUsed + (1 - needed)) = bucket.available - 1 := by
    rw [available]
    ring
  have notMore : ⌈bucket.tokens - needed⌉₊ ≤ ⌈bucket.tokens⌉₊ := by
    rcases le_total bucket.tokens 0 with owed | nonneg
    · rw [max_eq_right owed] at kept
      rw [Nat.ceil_eq_zero.mpr kept]
      exact Nat.zero_le _
    · rw [max_eq_left nonneg] at kept
      exact Nat.ceil_mono kept
  change ⌈bucket.tokens - needed + bucket.config.burstAllowance -
    (bucket.burstUsed + (1 - needed))⌉₊ + ⌈bucket.tokens - needed⌉₊ < _
  rw [rest]
  exact add_lt_add_of_lt_of_le fewer notMore

theorem ask_of_granted (granted : (bucket.ask maxBurst mono).1 = true) :
    ∃ refilled, bucket.refill mono = .ok refilled ∧
      (refilled.tryConsume = some (bucket.ask maxBurst mono).2 ∨
        refilled.tryConsume = none ∧
          refilled.tryConsumeBurst = some (bucket.ask maxBurst mono).2) := by
  unfold ask at granted ⊢
  cases refills : bucket.refill mono with
  | error error =>
    rw [refills] at granted
    cases granted
  | ok refilled =>
    refine ⟨refilled, rfl, ?_⟩
    rw [refills] at granted
    dsimp only at granted ⊢
    cases takes : refilled.tryConsume with
    | some taken => exact .inl rfl
    | none =>
      rw [takes] at granted
      dsimp only at granted ⊢
      split
      next taken bursts =>
        split at bursts
        · exact .inr ⟨rfl, bursts⟩
        · cases bursts
      next none =>
        rw [none] at granted
        cases granted

theorem settled_of_ask (granted : (bucket.ask maxBurst mono).1 = true) :
    (bucket.ask maxBurst mono).2.Settled mono := by
  rcases ask_of_granted granted with ⟨refilled, refills, takes | ⟨-, bursts⟩⟩
  · exact (settled_of_refill refills).tryConsume takes
  · exact (settled_of_refill refills).tryConsumeBurst bursts

theorem stock_ask_lt (settled : bucket.Settled mono)
    (granted : (bucket.ask maxBurst mono).1 = true) :
    (bucket.ask maxBurst mono).2.stock < bucket.stock := by
  rcases ask_of_granted granted with ⟨refilled, refills, takes | ⟨empty, bursts⟩⟩
  · exact (stock_tryConsume_lt takes).trans_le (stock_refill_le settled refills)
  · exact (stock_tryConsumeBurst_lt empty bursts).trans_le (stock_refill_le settled refills)

end TokenBucketState

namespace LeakyBucketState

variable {bucket : LeakyBucketState} {mono : ℚ}

def Settled (mono : ℚ) (bucket : LeakyBucketState) : Prop :=
  (mono - bucket.lastDrain) * 1000 < bucket.config.drainIntervalMs ∨
    bucket.lastDrain = mono ∧ bucket.config.drainIntervalMs ≠ 0

/-- The places that are free. -/
def stock (bucket : LeakyBucketState) : Nat :=
  (bucket.config.maxQueueDepth - bucket.queue.length).toNat

theorem settled_of_drain {drained : LeakyBucketState} (drains : bucket.drain mono = .ok drained) :
    drained.Settled mono := by
  rw [drain] at drains
  split at drains
  · split at drains
    · cases drains
    next positive =>
      split at drains
      · cases drains
      · cases drains
        exact .inr ⟨rfl, positive⟩
  next early =>
    cases drains
    exact .inl (not_le.mp early)

theorem intOfProduct_zero (rate : ℚ) : intOfProduct 0 rate = .ok 0 := by
  have finite : ¬ (floatOverflow : ℚ) ≤ 0 := by decide +kernel
  have none : truncate 0 = 0 := by decide +kernel
  rw [intOfProduct, abs_zero, zero_mul, abs_zero, if_neg fun nan => finite nan.1,
    if_neg (not_or.mpr ⟨finite, finite⟩), none]

theorem drain_of_settled (settled : bucket.Settled mono) {drained : LeakyBucketState}
    (drains : bucket.drain mono = .ok drained) : drained.stock = bucket.stock := by
  rw [drain] at drains
  split at drains
  next due =>
    rcases settled with early | ⟨same, positive⟩
    · exact absurd due (not_le.mpr early)
    · simp only [if_neg positive, same, sub_self, zero_mul, zero_div, intOfProduct_zero] at drains
      cases drains
      rfl
  · cases drains
    rfl

theorem ask_of_granted (granted : (bucket.ask mono).1 = true) :
    ∃ drained, bucket.drain mono = .ok drained ∧
      drained.queue.length < drained.config.maxQueueDepth ∧
      (bucket.ask mono).2 = { drained with queue := drained.queue ++ [1] } := by
  unfold ask at granted ⊢
  cases drains : bucket.drain mono with
  | error error =>
    rw [drains] at granted
    cases granted
  | ok drained =>
    rw [drains] at granted
    dsimp only at granted ⊢
    cases adds : drained.tryAdd 1 with
    | some added =>
      rw [tryAdd] at adds
      split at adds
      next room =>
        cases adds
        exact ⟨drained, rfl, room, rfl⟩
      · cases adds
    | none =>
      rw [adds] at granted
      cases granted

theorem settled_of_ask (granted : (bucket.ask mono).1 = true) :
    (bucket.ask mono).2.Settled mono := by
  rcases ask_of_granted granted with ⟨drained, drains, -, after⟩
  have settled := settled_of_drain drains
  rw [after]
  exact settled

theorem stock_ask_lt (settled : bucket.Settled mono) (granted : (bucket.ask mono).1 = true) :
    (bucket.ask mono).2.stock < bucket.stock := by
  rcases ask_of_granted granted with ⟨drained, drains, room, after⟩
  rw [after, ← drain_of_settled settled drains]
  unfold stock
  dsimp only
  rw [length_append, length_singleton]
  omega

end LeakyBucketState

namespace RateSlidingWindow

variable {window : RateSlidingWindow} {now : Timestamp}

/-- No entry is due to leave the window. -/
def Settled (now : Timestamp) (window : RateSlidingWindow) : Prop :=
  window.expire now = window

/-- The entries that still fit. -/
def stock (window : RateSlidingWindow) : Nat :=
  (window.maxRequests - window.entries.length).toNat

theorem settled_record (nonneg : 0 ≤ window.maxDuration) :
    ((window.expire now).record now).Settled now := by
  unfold Settled expire record
  congr 1
  have stays : ¬ now < now - window.maxDuration := by linarith
  cases kept : window.entries.dropWhile fun entry => entry < now - window.maxDuration with
  | nil =>
    rw [nil_append, dropWhile_cons_of_neg]
    exact fun leaves => stays (of_decide_eq_true leaves)
  | cons first rest =>
    rw [cons_append, dropWhile_cons_of_neg]
    have stands := head?_dropWhile_not
      (fun entry : ℚ => decide (entry < now - window.maxDuration)) window.entries
    rw [kept] at stands
    exact ne_of_eq_of_ne stands Bool.false_ne_true

theorem ask_of_granted (granted : (window.ask now).1 = true) :
    (window.expire now).entries.length < window.maxRequests ∧
      (window.ask now).2 = (window.expire now).record now := by
  unfold ask at granted ⊢
  dsimp only at granted ⊢
  split at granted
  · cases granted
  next room =>
    rw [if_neg room]
    refine ⟨?_, rfl⟩
    exact not_le.mp fun full => room (decide_eq_true full)

theorem stock_ask_lt (settled : window.Settled now) (granted : (window.ask now).1 = true) :
    (window.ask now).2.stock < window.stock := by
  rcases ask_of_granted granted with ⟨room, after⟩
  rw [settled] at room
  rw [after, settled]
  unfold stock record
  dsimp only
  rw [length_append, length_singleton]
  omega

end RateSlidingWindow

namespace FixedWindowCounter

variable {window : FixedWindowCounter} {mono : ℚ}

def Settled (mono : ℚ) (window : FixedWindowCounter) : Prop :=
  mono - window.windowStart < window.windowSeconds

/-- The requests that still fit. -/
def stock (window : FixedWindowCounter) : Nat :=
  (window.maxPerWindow - window.count).toNat

theorem settled_checkReset (long : 0 < window.windowSeconds) :
    (window.checkReset mono).Settled mono := by
  rw [checkReset, Settled]
  split
  · rwa [sub_self]
  next early => exact not_le.mp early

theorem tryConsume_of_granted (granted : (window.tryConsume mono).1 = true) :
    (window.checkReset mono).count < (window.checkReset mono).maxPerWindow ∧
      (window.tryConsume mono).2 =
        { window.checkReset mono with count := (window.checkReset mono).count + 1 } := by
  unfold tryConsume at granted ⊢
  dsimp only at granted ⊢
  split at granted
  next room =>
    rw [if_pos room]
    exact ⟨room, rfl⟩
  · cases granted

theorem settled_of_tryConsume (long : 0 < window.windowSeconds)
    (granted : (window.tryConsume mono).1 = true) : (window.tryConsume mono).2.Settled mono := by
  rw [(tryConsume_of_granted granted).2]
  exact settled_checkReset long

theorem stock_tryConsume_lt (settled : window.Settled mono)
    (granted : (window.tryConsume mono).1 = true) :
    (window.tryConsume mono).2.stock < window.stock := by
  rcases tryConsume_of_granted granted with ⟨room, after⟩
  have stays : window.checkReset mono = window := by rw [checkReset, if_neg (not_le.mpr settled)]
  rw [stays] at room
  rw [after, stays]
  unfold stock
  dsimp only
  omega

end FixedWindowCounter

namespace PolicyRuntimeState

variable {state : PolicyRuntimeState} {instant : Instant}

structure Sound (state : PolicyRuntimeState) : Prop where
  minute : ∃ window, state.slidingWindows.get? "1m" = some window ∧ 0 ≤ window.maxDuration
  fixed : state.fixedWindow.windowSeconds = state.policy.slidingWindow.windowDurationS

theorem sound_create (policy : RateLimitPolicy) (mono : ℚ) : (create policy mono).Sound where
  minute := ⟨{ maxDuration := 60, maxRequests := policy.slidingWindow.maxRequests }, rfl,
    Nat.ofNat_nonneg 60⟩
  fixed := rfl

@[simp]
theorem policy_ask (state : PolicyRuntimeState) (instant : Instant) :
    (state.ask instant).2.policy = state.policy := by
  rw [ask]
  split
  · rfl
  · rfl
  · split
    · rfl
    · rfl
  · rfl
  · rfl

theorem Sound.ask (sound : state.Sound) (instant : Instant) : (state.ask instant).2.Sound := by
  rw [PolicyRuntimeState.ask]
  split
  · exact ⟨sound.minute, sound.fixed⟩
  · exact ⟨sound.minute, sound.fixed⟩
  · rcases sound.minute with ⟨window, found, nonneg⟩
    rw [found]
    refine ⟨⟨_, Dict.get?_set_self .., ?_⟩, sound.fixed⟩
    unfold RateSlidingWindow.ask
    dsimp only
    split
    · exact nonneg
    · exact nonneg
  · refine ⟨sound.minute, .trans ?_ sound.fixed⟩
    rw [FixedWindowCounter.tryConsume, FixedWindowCounter.checkReset]
    dsimp only
    split
    · split
      · rfl
      · rfl
    · split
      · rfl
      · rfl
  · exact ⟨sound.minute, sound.fixed⟩

/-- What the policy counts has been brought up to this time. -/
def Settled (instant : Instant) (state : PolicyRuntimeState) : Prop :=
  match state.policy.algorithm with
  | .tokenBucket => state.tokenBucket.Settled instant.mono
  | .leakyBucket => state.leakyBucket.Settled instant.mono
  | .slidingWindow =>
    ∀ window, state.slidingWindows.get? "1m" = some window → window.Settled instant.now
  | .fixedWindow => state.fixedWindow.Settled instant.mono
  | .other _ => True

/-- The requests that the policy can still approve are at most as many. -/
def stock (state : PolicyRuntimeState) : Nat :=
  match state.policy.algorithm with
  | .tokenBucket => state.tokenBucket.stock
  | .leakyBucket => state.leakyBucket.stock
  | .slidingWindow => ((state.slidingWindows.get? "1m").map RateSlidingWindow.stock).getD 0
  | .fixedWindow => state.fixedWindow.stock
  | .other _ => 0

section

variable (sound : state.Sound) (limited : ¬ state.policy.Unlimited)
include sound limited

theorem settled_of_ask (approved : (state.ask instant).1 = true) :
    (state.ask instant).2.Settled instant := by
  rw [Settled, policy_ask]
  unfold ask at approved ⊢
  rw [RateLimitPolicy.Unlimited] at limited
  cases algorithm : state.policy.algorithm with
  | tokenBucket =>
    rw [algorithm] at approved
    exact TokenBucketState.settled_of_ask approved
  | leakyBucket =>
    rw [algorithm] at approved
    exact LeakyBucketState.settled_of_ask approved
  | slidingWindow =>
    rcases sound.minute with ⟨window, found, nonneg⟩
    rw [algorithm, found] at approved
    rw [found]
    intro after isAfter
    rw [Dict.get?_set_self, (RateSlidingWindow.ask_of_granted approved).2] at isAfter
    cases isAfter
    exact RateSlidingWindow.settled_record nonneg
  | fixedWindow =>
    rw [algorithm] at approved limited
    have long : 0 < state.fixedWindow.windowSeconds := by
      rw [sound.fixed]
      exact not_le.mp limited
    exact FixedWindowCounter.settled_of_tryConsume long approved
  | other name => trivial

theorem stock_ask_lt (settled : state.Settled instant) (approved : (state.ask instant).1 = true) :
    (state.ask instant).2.stock < state.stock := by
  unfold stock
  rw [policy_ask]
  unfold ask at approved ⊢
  unfold RateLimitPolicy.Unlimited at limited
  unfold Settled at settled
  cases algorithm : state.policy.algorithm with
  | tokenBucket =>
    rw [algorithm] at approved settled
    exact TokenBucketState.stock_ask_lt settled approved
  | leakyBucket =>
    rw [algorithm] at approved settled
    exact LeakyBucketState.stock_ask_lt settled approved
  | slidingWindow =>
    rcases sound.minute with ⟨window, found, -⟩
    rw [algorithm, found] at approved
    rw [algorithm] at settled
    rw [found, Dict.get?_set_self]
    exact RateSlidingWindow.stock_ask_lt (settled window found) approved
  | fixedWindow =>
    rw [algorithm] at approved settled
    exact FixedWindowCounter.stock_tryConsume_lt settled approved
  | other name =>
    rw [algorithm] at limited
    exact absurd trivial limited

theorem exists_refusal_of_settled (settled : state.Settled instant) :
    ∃ count, state.answers (replicate count instant) ≠ replicate count true := by
  induction left : state.stock using Nat.strong_induction_on generalizing state with
  | _ left ih =>
    by_cases approved : (state.ask instant).1 = true
    · have fewer := stock_ask_lt sound limited settled approved
      rcases ih _ (left ▸ fewer) (sound.ask instant)
        (by rwa [policy_ask]) (settled_of_ask sound limited approved) rfl with ⟨count, refused⟩
      refine ⟨count + 1, ?_⟩
      intro all
      exact refused (cons.inj all).2
    · refine ⟨1, ?_⟩
      intro all
      exact approved (cons.inj all).1

theorem exists_answers_ne (approved : (state.ask instant).1 = true) :
    ∃ count, (state.ask instant).2.answers (replicate count instant) ≠
      state.answers (replicate count instant) := by
  by_contra none
  have same := fun count => not_not.mp (not_exists.mp none count)
  rcases exists_refusal_of_settled (sound.ask instant) (by rwa [policy_ask])
    (settled_of_ask sound limited approved) with ⟨count, refused⟩
  exact refused ((same count).trans (answers_replicate approved same count))

end

end PolicyRuntimeState

end AgenticOS.OmniRoute
