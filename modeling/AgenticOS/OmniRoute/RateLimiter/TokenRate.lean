import AgenticOS.OmniRoute.RateLimiter.Policies
import Mathlib.Algebra.Order.Group.MinMax
import Mathlib.Tactic.Positivity

/-!
# The rate of a token bucket

The allowance for bursts is granted twice: a refill fills the bucket beyond its capacity by
the allowance, and the counter of the bursts allows as much again. And a refill pays for the
time since the last one, which may lie before the window in which requests are counted. A
bucket that is refilled at all and lets a request through at all therefore exceeds the rate
for which it is configured.

Nothing is assumed of the parameters but that the interval is not zero, so that the rate is
defined. A negative allowance lowers the limit of a refill below the capacity; with a negative
interval every request is preceded by a refill.
-/

namespace AgenticOS.OmniRoute

open List Nat

namespace TokenBucket

/-- What a refill leaves in the bucket at most. -/
def limit (config : TokenBucket) : ℚ :=
  config.capacity + config.burstAllowance

/-- The tokens for each millisecond. -/
def rate (config : TokenBucket) : ℚ :=
  config.refillRate / config.refillIntervalMs

end TokenBucket

namespace TokenBucketState

variable {config : TokenBucket} {bucket : TokenBucketState} {mono : ℚ} {maxBurst : ℤ}

def refilled (bucket : TokenBucketState) (mono : ℚ) : TokenBucketState :=
  if bucket.config.refillIntervalMs ≤ (mono - bucket.lastRefill) * 1000 then
    { bucket with
      tokens := min bucket.config.limit
        (bucket.tokens + (mono - bucket.lastRefill) * 1000 * bucket.config.rate)
      lastRefill := mono }
  else bucket

/-- What the next request can draw on: the tokens, or these with the allowance. -/
def spendable (bucket : TokenBucketState) : ℚ :=
  max bucket.tokens bucket.available

/-- The bucket has these parameters and is not fuller than one of them allows. -/
structure Sound (config : TokenBucket) (bucket : TokenBucketState) : Prop where
  parameters : bucket.config = config
  full : bucket.tokens ≤ max config.capacity config.limit
  burst : 0 ≤ bucket.burstUsed

theorem sound_create (config : TokenBucket) (mono : ℚ) : Sound config (create config mono) where
  parameters := rfl
  full := le_max_left _ _
  burst := le_refl 0

theorem spendable_create (config : TokenBucket) (mono : ℚ) :
    (create config mono).spendable = max config.capacity config.limit := by
  rw [spendable, available, create, TokenBucket.limit, sub_zero]

theorem refill_eq (interval : bucket.config.refillIntervalMs ≠ 0) (mono : ℚ) :
    bucket.refill mono = .ok (bucket.refilled mono) := by
  rw [refill, refilled, TokenBucket.rate, TokenBucket.limit]
  split
  · rw [div_mul_eq_mul_div, mul_div_assoc]
  · rfl

@[simp]
theorem config_refilled (bucket : TokenBucketState) (mono : ℚ) :
    (bucket.refilled mono).config = bucket.config := by
  rw [refilled]
  split
  · rfl
  · rfl

@[simp]
theorem burstUsed_refilled (bucket : TokenBucketState) (mono : ℚ) :
    (bucket.refilled mono).burstUsed = bucket.burstUsed := by
  rw [refilled]
  split
  · rfl
  · rfl

theorem refilled_of_due (parameters : bucket.config = config)
    (due : config.refillIntervalMs ≤ (mono - bucket.lastRefill) * 1000) :
    bucket.refilled mono =
      { bucket with
        tokens := min config.limit (bucket.tokens + (mono - bucket.lastRefill) * 1000 * config.rate)
        lastRefill := mono } := by
  rw [refilled, parameters, if_pos due]

theorem refilled_of_early (parameters : bucket.config = config)
    (early : (mono - bucket.lastRefill) * 1000 < config.refillIntervalMs) :
    bucket.refilled mono = bucket := by
  rw [refilled, parameters, if_neg (not_le.mpr early)]

theorem Sound.refilled (sound : Sound config bucket) (mono : ℚ) :
    Sound config (bucket.refilled mono) := by
  rcases le_or_gt config.refillIntervalMs ((mono - bucket.lastRefill) * 1000) with due | early
  · rw [refilled_of_due sound.parameters due]
    exact ⟨sound.parameters, (min_le_left _ _).trans (le_max_right _ _), sound.burst⟩
  · rw [refilled_of_early sound.parameters early]
    exact sound

structure Bursts (bucket taken : TokenBucketState) : Prop where
  parameters : taken.config = bucket.config
  lastRefill : taken.lastRefill = bucket.lastRefill
  available : taken.available = bucket.available - 1
  atLeast : bucket.tokens ≤ taken.tokens
  atMost : taken.tokens ≤ max bucket.tokens 0
  burst : bucket.burstUsed ≤ taken.burstUsed

theorem ask_cases (interval : config.refillIntervalMs ≠ 0) (sound : Sound config bucket)
    (burst : 0 < maxBurst) (mono : ℚ) :
    (1 ≤ (bucket.refilled mono).tokens ∧ bucket.ask maxBurst mono =
      (true, { bucket.refilled mono with tokens := (bucket.refilled mono).tokens - 1 })) ∨
    ((bucket.refilled mono).tokens < 1 ∧ 1 ≤ (bucket.refilled mono).available ∧
      ∃ taken, Bursts (bucket.refilled mono) taken ∧ bucket.ask maxBurst mono = (true, taken)) ∨
    ((bucket.refilled mono).tokens < 1 ∧ (bucket.refilled mono).available < 1 ∧
      bucket.ask maxBurst mono = (false, bucket.refilled mono)) := by
  rw [ask, refill_eq (by rw [sound.parameters]; exact interval)]
  dsimp only
  generalize bucket.refilled mono = refilled
  by_cases token : 1 ≤ refilled.tokens
  · left
    rw [tryConsume, if_pos token]
    exact ⟨token, rfl⟩
  · right
    have less := not_le.mp token
    have none : refilled.tryConsume = none := if_neg token
    rw [none, if_pos burst]
    cases takes : refilled.tryConsumeBurst with
    | some taken =>
      left
      rcases tryConsumeBurst_eq_some less takes with ⟨room, needed, negative, kept, rfl⟩
      refine ⟨less, room, _, ?_, rfl⟩
      refine ⟨rfl, rfl, ?_, ?_, ?_, ?_⟩
      · unfold available
        ring
      · exact le_sub_self_iff _ |>.mpr negative
      · exact kept
      · linarith
    | none =>
      right
      refine ⟨less, ?_, rfl⟩
      rw [tryConsumeBurst] at takes
      split at takes
      · cases takes
      next full => exact not_le.mp full

/-- A request is granted exactly if there is something to spend, and it spends as much as a
request needs. -/
structure Grants (refilled taken : TokenBucketState) : Prop where
  room : 1 ≤ refilled.spendable
  lastRefill : taken.lastRefill = refilled.lastRefill
  spends : refilled.spendable - 1 ≤ taken.spendable
  fewer : ⌊taken.spendable⌋₊ < ⌊refilled.spendable⌋₊
  atMost : taken.tokens ≤ max refilled.tokens 0

theorem ask_grants (interval : config.refillIntervalMs ≠ 0) (sound : Sound config bucket)
    (burst : 0 < maxBurst) (mono : ℚ) : ((bucket.ask maxBurst mono).1 = true ∧
      Grants (bucket.refilled mono) (bucket.ask maxBurst mono).2) ∨
    ((bucket.refilled mono).spendable < 1 ∧
      bucket.ask maxBurst mono = (false, bucket.refilled mono)) := by
  rcases ask_cases interval sound burst mono with
    ⟨token, same⟩ | ⟨less, room, taken, bursts, same⟩ | ⟨less, bare, same⟩
  · left
    rw [same]
    generalize bucket.refilled mono = refilled at token
    have rest : ({ refilled with tokens := refilled.tokens - 1 } : TokenBucketState).spendable =
        refilled.spendable - 1 := by
      unfold spendable available
      rw [← max_sub_sub_right]
      congr 1
      ring
    have much : 1 ≤ refilled.spendable := token.trans (le_max_left _ _)
    refine ⟨rfl, much, rfl, rest.ge, ?_, ?_⟩
    · rw [rest, floor_sub_one]
      exact sub_lt (floor_pos.mpr much) one_pos
    · exact (sub_le_self _ zero_le_one).trans (le_max_left _ _)
  · left
    rw [same]
    generalize bucket.refilled mono = refilled at less room bursts
    have much : refilled.spendable = refilled.available := max_eq_right (less.le.trans room)
    refine ⟨rfl, much.symm ▸ room, bursts.lastRefill, ?_, ?_, bursts.atMost⟩
    · rw [much, ← bursts.available]
      exact le_max_right _ _
    · apply Nat.lt_of_lt_of_le (lt_succ_self _)
      apply le_floor
      push_cast
      rw [spendable, bursts.available]
      rcases le_total taken.tokens (refilled.available - 1) with spends | keeps
      · rw [max_eq_right spends]
        have below := floor_le (sub_nonneg.mpr room)
        linarith
      · rw [max_eq_left keeps]
        have small : taken.tokens < 1 := bursts.atMost.trans_lt (max_lt less one_pos)
        rw [floor_eq_zero.mpr small]
        push_cast
        linarith
  · right
    exact ⟨max_lt less bare, same⟩

theorem Sound.ask (interval : config.refillIntervalMs ≠ 0) (room : 0 ≤ config.limit)
    (sound : Sound config bucket) (burst : 0 < maxBurst) (mono : ℚ) :
    Sound config (bucket.ask maxBurst mono).2 := by
  have refilled := sound.refilled mono
  rcases ask_cases interval sound burst mono with
    ⟨-, same⟩ | ⟨-, -, taken, bursts, same⟩ | ⟨-, -, same⟩
  · rw [same]
    exact ⟨refilled.parameters, (sub_le_self _ zero_le_one).trans refilled.full, refilled.burst⟩
  · rw [same]
    refine ⟨bursts.parameters.trans refilled.parameters, ?_, refilled.burst.trans bursts.burst⟩
    exact bursts.atMost.trans (max_le refilled.full (room.trans (le_max_right _ _)))
  · rw [same]
    exact refilled

def grantTimes (maxBurst : ℤ) : TokenBucketState → List ℚ → List ℚ
  | _, [] => []
  | bucket, mono :: later =>
    (if (bucket.ask maxBurst mono).1 then [mono] else []) ++
      grantTimes maxBurst (bucket.ask maxBurst mono).2 later

theorem refilled_refilled (parameters : bucket.config = config)
    (due : config.refillIntervalMs ≤ (mono - bucket.lastRefill) * 1000) :
    (bucket.refilled mono).refilled mono = bucket.refilled mono := by
  rw [refilled_of_due parameters due, refilled]
  rw [sub_self, zero_mul, zero_mul, add_zero, parameters, min_eq_right (min_le_left _ _)]
  split
  · rfl
  · rfl

theorem grantTimes_refilled (interval : config.refillIntervalMs ≠ 0)
    (parameters : bucket.config = config)
    (due : config.refillIntervalMs ≤ (mono - bucket.lastRefill) * 1000) (later : List ℚ) :
    grantTimes maxBurst bucket (mono :: later) =
      grantTimes maxBurst (bucket.refilled mono) (mono :: later) := by
  have same : bucket.ask maxBurst mono = (bucket.refilled mono).ask maxBurst mono := by
    unfold ask
    rw [refill_eq (by rw [parameters]; exact interval),
      refill_eq (by rw [config_refilled, parameters]; exact interval),
      refilled_refilled parameters due]
  rw [grantTimes, grantTimes, same]

theorem grantTimes_sublist (maxBurst : ℤ) (bucket : TokenBucketState) (times : List ℚ) :
    (grantTimes maxBurst bucket times).Sublist times := by
  induction times generalizing bucket with
  | nil => exact .refl []
  | cons mono later ih =>
    rw [grantTimes]
    split
    · exact (ih _).cons_cons mono
    · exact (ih _).cons mono

/-! ## Buckets that keep the rate -/

section

variable (interval : config.refillIntervalMs ≠ 0) (room : 0 ≤ config.limit) (burst : 0 < maxBurst)
include interval room burst

theorem length_grantTimes_le (still : config.rate = 0) (times : List ℚ)
    (sound : Sound config bucket) :
    (grantTimes maxBurst bucket times).length ≤ ⌊bucket.spendable⌋₊ := by
  induction times generalizing bucket with
  | nil => exact Nat.zero_le _
  | cons mono later ih =>
    have rest := ih (sound.ask interval room burst mono)
    have notMore : (bucket.refilled mono).spendable ≤ bucket.spendable := by
      rcases le_or_gt config.refillIntervalMs ((mono - bucket.lastRefill) * 1000) with
        due | early
      · rw [refilled_of_due sound.parameters due, still, mul_zero, add_zero]
        unfold spendable available
        gcongr
        · exact min_le_right _ _
        · exact min_le_right _ _
      · rw [refilled_of_early sound.parameters early]
    have floors := floor_le_floor notMore
    rw [grantTimes]
    rcases ask_grants interval sound burst mono with ⟨granted, grants⟩ | ⟨-, same⟩
    · rw [if_pos granted, length_append, length_singleton]
      have fewer := grants.fewer
      omega
    · rw [same] at rest ⊢
      exact rest.trans floors

theorem grantTimes_eq_nil (small : config.capacity < 1)
    (allowed : config.limit + config.burstAllowance < 1) (times : List ℚ)
    (sound : Sound config bucket) : grantTimes maxBurst bucket times = [] := by
  induction times generalizing bucket with
  | nil => rfl
  | cons mono later ih =>
    have next := sound.ask interval room burst mono
    have refilled := sound.refilled mono
    have less : (bucket.refilled mono).spendable < 1 := by
      have full := refilled.full
      have used := refilled.burst
      rw [spendable, available, refilled.parameters]
      unfold TokenBucket.limit at *
      rcases le_total config.capacity (config.capacity + config.burstAllowance) with
        more | negative
      · rw [max_eq_right more] at full
        exact max_lt (by linarith) (by linarith)
      · rw [max_eq_left negative] at full
        exact max_lt (by linarith) (by linarith)
    rcases ask_grants interval sound burst mono with ⟨-, grants⟩ | ⟨-, same⟩
    · exact absurd grants.room (not_le.mpr less)
    · rw [same] at next
      rw [grantTimes, same, ih next]
      rfl

end

variable {last : ℚ}

theorem countP_grantTimes_eq_zero {times : List ℚ} {counted : ℚ → Bool}
    (ordered : (mono :: times).Pairwise (· ≤ ·)) (late : last < mono)
    (before : ∀ time, counted time = true → time ≤ last) :
    (grantTimes maxBurst bucket (mono :: times)).countP counted = 0 := by
  rw [countP_eq_zero]
  intro time member inside
  have after : last < time := by
    rcases mem_cons.mp ((grantTimes_sublist maxBurst bucket _).subset member) with
      rfl | behind
    · exact late
    · exact late.trans_le ((pairwise_cons.mp ordered).1 time behind)
  exact absurd (before time inside) (not_le.mpr after)

theorem refilled_of_negative (negative : config.refillIntervalMs < 0) (room : 0 ≤ config.limit)
    (rate : 0 ≤ config.rate) (sound : Sound config bucket) (nonneg : 0 ≤ bucket.tokens)
    (ordered : bucket.lastRefill ≤ mono) :
    0 ≤ (bucket.refilled mono).tokens ∧ (bucket.refilled mono).tokens ≤ config.limit ∧
      (bucket.refilled mono).tokens ≤
        bucket.tokens + (mono - bucket.lastRefill) * 1000 * config.rate ∧
      (bucket.refilled mono).lastRefill = mono := by
  have elapsed : 0 ≤ (mono - bucket.lastRefill) * 1000 := by linarith
  rw [refilled_of_due sound.parameters (negative.le.trans elapsed)]
  exact ⟨le_min room (add_nonneg nonneg (mul_nonneg elapsed rate)), min_le_left _ _,
    min_le_right _ _, rfl⟩

section

variable (negative : config.refillIntervalMs < 0) (owed : config.burstAllowance ≤ 0)
  (room : 0 ≤ config.limit) (rate : 0 ≤ config.rate) (burst : 0 < maxBurst)
include negative owed room rate burst

theorem ask_of_negative (sound : Sound config bucket) (nonneg : 0 ≤ bucket.tokens)
    (ordered : bucket.lastRefill ≤ mono) : (bucket.ask maxBurst mono).2.lastRefill = mono ∧
      0 ≤ (bucket.ask maxBurst mono).2.tokens ∧
      (((bucket.ask maxBurst mono).1 = true ∧
          (bucket.ask maxBurst mono).2.tokens = (bucket.refilled mono).tokens - 1) ∨
        ((bucket.ask maxBurst mono).1 = false ∧
          (bucket.ask maxBurst mono).2.tokens = (bucket.refilled mono).tokens)) := by
  rcases refilled_of_negative negative room rate sound nonneg ordered with
    ⟨held, -, -, refill⟩
  rcases ask_cases negative.ne sound burst mono with
    ⟨token, same⟩ | ⟨less, spend, -⟩ | ⟨-, -, same⟩
  · rw [same]
    exact ⟨refill, sub_nonneg.mpr token, .inl ⟨rfl, rfl⟩⟩
  · have used := (sound.refilled mono).burst
    rw [available] at spend
    rw [config_refilled, sound.parameters] at spend
    linarith
  · rw [same]
    exact ⟨refill, held, .inr ⟨rfl, rfl⟩⟩

theorem countP_until_le (times : List ℚ) (sound : Sound config bucket)
    (nonneg : 0 ≤ bucket.tokens) (ordered : (bucket.lastRefill :: times).Pairwise (· ≤ ·))
    (notLater : bucket.lastRefill ≤ last) :
    ((grantTimes maxBurst bucket times).countP (fun time => time ≤ last) : ℚ) ≤
      bucket.tokens + (last - bucket.lastRefill) * 1000 * config.rate := by
  induction times generalizing bucket with
  | nil =>
    have remaining : 0 ≤ (last - bucket.lastRefill) * 1000 := by linarith
    exact add_nonneg nonneg (mul_nonneg remaining rate)
  | cons mono times ih =>
    have after := (pairwise_cons.mp ordered).1
    have rest := (pairwise_cons.mp ordered).2
    have remaining : 0 ≤ (last - bucket.lastRefill) * 1000 := by linarith
    by_cases late : last < mono
    · rw [countP_grantTimes_eq_zero rest late (fun _ inside => of_decide_eq_true inside)]
      exact add_nonneg nonneg (mul_nonneg remaining rate)
    · have here := after mono mem_cons_self
      rcases refilled_of_negative negative room rate sound nonneg here with
        ⟨-, -, added, -⟩
      rcases ask_of_negative negative owed room rate burst sound nonneg here with
        ⟨refill, left, outcome⟩
      have inside : [mono].countP (fun time => decide (time ≤ last)) = 1 := by
        rw [countP_singleton, if_pos (decide_eq_true (not_lt.mp late))]
      have counted := ih (sound.ask negative.ne room burst mono) left
        (by rw [refill]; exact rest) (by rw [refill]; exact not_lt.mp late)
      rw [refill] at counted
      rw [grantTimes, countP_append]
      rcases outcome with ⟨granted, less⟩ | ⟨refused, same⟩
      · rw [if_pos granted, inside]
        push_cast
        linarith
      · rw [refused]
        simp only [Bool.false_eq_true, if_false, countP_nil, zero_add]
        linarith

theorem countP_window_le {first : ℚ} (window : first ≤ last) (times : List ℚ)
    (sound : Sound config bucket) (nonneg : 0 ≤ bucket.tokens)
    (ordered : (bucket.lastRefill :: times).Pairwise (· ≤ ·)) :
    ((grantTimes maxBurst bucket times).countP (fun time => first ≤ time ∧ time ≤ last) : ℚ) ≤
      config.limit + (last - first) * 1000 * config.rate := by
  have added : 0 ≤ (last - first) * 1000 * config.rate := mul_nonneg (by linarith) rate
  induction times generalizing bucket with
  | nil => exact add_nonneg room added
  | cons mono times ih =>
    have after := (pairwise_cons.mp ordered).1
    have rest := (pairwise_cons.mp ordered).2
    have here := after mono mem_cons_self
    have next := sound.ask negative.ne room burst mono
    by_cases early : mono < first
    · -- Before the window nothing is counted.
      have outside : (if (bucket.ask maxBurst mono).1 then [mono] else []).countP
          (fun time => decide (first ≤ time ∧ time ≤ last)) = 0 := by
        split
        · rw [countP_singleton, decide_eq_false fun inside => not_lt.mpr inside.1 early]
          rfl
        · rfl
      rcases ask_of_negative negative owed room rate burst sound nonneg here with
        ⟨refill, left, -⟩
      rw [grantTimes, countP_append, outside, zero_add]
      exact ih next left (by rw [refill]; exact rest)
    · -- The first request of the window finds at most the limit.
      rcases le_or_gt mono last with inside | late
      · have due : config.refillIntervalMs ≤ (mono - bucket.lastRefill) * 1000 := by linarith
        rcases refilled_of_negative negative room rate sound nonneg here with
          ⟨held, top, -, refill⟩
        have again : ((bucket.refilled mono).lastRefill :: mono :: times).Pairwise (· ≤ ·) := by
          rw [refill]
          refine pairwise_cons.mpr ⟨?_, rest⟩
          rintro time (_ | ⟨_, member⟩)
          · exact le_refl mono
          · exact (pairwise_cons.mp rest).1 time member
        have notLater : (bucket.refilled mono).lastRefill ≤ last := by
          rw [refill]
          exact inside
        have bounded := countP_until_le negative owed room rate burst (mono :: times)
          (sound.refilled mono) held again notLater
        rw [← grantTimes_refilled negative.ne sound.parameters due, refill] at bounded
        have fewer : (grantTimes maxBurst bucket (mono :: times)).countP
            (fun time => first ≤ time ∧ time ≤ last) ≤
              (grantTimes maxBurst bucket (mono :: times)).countP (fun time => time ≤ last) := by
          apply countP_mono_left
          intro time _ both
          exact decide_eq_true (of_decide_eq_true both).2
        have cast := (cast_le (α := ℚ)).mpr fewer
        have shorter : (last - mono) * 1000 * config.rate ≤
            (last - first) * 1000 * config.rate := by
          apply mul_le_mul_of_nonneg_right _ rate
          linarith
        linarith
      · rw [countP_grantTimes_eq_zero rest late fun _ inside => (of_decide_eq_true inside).2]
        exact add_nonneg room added

end

/-! ## Buckets that exceed the rate -/

/-- A refill at this time changes nothing. -/
def Quiet (config : TokenBucket) (mono : ℚ) (bucket : TokenBucketState) : Prop :=
  (mono - bucket.lastRefill) * 1000 < config.refillIntervalMs ∨
    bucket.lastRefill = mono ∧ bucket.tokens ≤ config.limit

theorem refilled_of_quiet (sound : Sound config bucket) (quiet : Quiet config mono bucket) :
    bucket.refilled mono = bucket := by
  rcases quiet with early | ⟨same, full⟩
  · exact refilled_of_early sound.parameters early
  · rw [refilled]
    split
    · rw [sound.parameters, same, sub_self, zero_mul, zero_mul, add_zero, min_eq_right full,
        ← same, ← sound.parameters]
    · rfl

theorem grantTimes_replicate (interval : config.refillIntervalMs ≠ 0) (room : 0 ≤ config.limit)
    (burst : 0 < maxBurst) (count : Nat) (later : List ℚ) (sound : Sound config bucket)
    (quiet : Quiet config mono bucket) (enough : (count : ℚ) ≤ bucket.spendable) :
    ∃ bucket', Sound config bucket' ∧ bucket.spendable - count ≤ bucket'.spendable ∧
      bucket'.lastRefill = bucket.lastRefill ∧
      grantTimes maxBurst bucket (List.replicate count mono ++ later) =
        List.replicate count mono ++ grantTimes maxBurst bucket' later := by
  induction count generalizing bucket with
  | zero => exact ⟨bucket, sound, by simp, rfl, rfl⟩
  | succ count ih =>
    push_cast at enough
    have next := sound.ask interval room burst mono
    have outcome := ask_grants interval sound burst mono
    rw [refilled_of_quiet sound quiet] at outcome
    rcases outcome with ⟨granted, grants⟩ | ⟨empty, -⟩
    · have quiet' : Quiet config mono (bucket.ask maxBurst mono).2 := by
        rw [Quiet, grants.lastRefill]
        rcases quiet with early | ⟨same, full⟩
        · exact .inl early
        · exact .inr ⟨same, grants.atMost.trans (max_le full room)⟩
      have spends := grants.spends
      rcases ih next quiet' (by linarith) with
        ⟨bucket', sound', left, refill, times⟩
      refine ⟨bucket', sound', ?_, refill.trans grants.lastRefill, ?_⟩
      · push_cast
        linarith
      · rw [replicate_succ, cons_append, grantTimes, if_pos granted, times]
        rfl
    · linarith

section

variable (interval : config.refillIntervalMs ≠ 0) (burst : 0 < maxBurst)
  (large : 1 ≤ config.limit) (sound : Sound config bucket)
include interval burst large sound

theorem ask_of_paid (due : config.refillIntervalMs ≤ (mono - bucket.lastRefill) * 1000)
    (paid : 1 ≤ bucket.spendable + (mono - bucket.lastRefill) * 1000 * config.rate) :
    (bucket.ask maxBurst mono).1 = true := by
  rcases ask_grants interval sound burst mono with ⟨granted, -⟩ | ⟨empty, -⟩
  · exact granted
  · rw [refilled_of_due sound.parameters due] at empty
    -- The refill fills the bucket, or it adds all that is paid.
    rcases le_total config.limit
        (bucket.tokens + (mono - bucket.lastRefill) * 1000 * config.rate) with full | roomy
    · rw [min_eq_left full] at empty
      exact absurd (large.trans (le_max_left _ _)) (not_le.mpr empty)
    · rw [min_eq_right roomy] at empty
      rw [spendable, available] at empty paid
      rw [max_lt_iff] at empty
      rcases le_total bucket.tokens
          (bucket.tokens + bucket.config.burstAllowance - bucket.burstUsed) with more | less
      · rw [max_eq_right more] at paid
        linarith
      · rw [max_eq_left less] at paid
        linarith

theorem grantTimes_wait {count : Nat} {first : ℚ} (quiet : Quiet config first bucket)
    (enough : (count : ℚ) ≤ bucket.spendable)
    (due : config.refillIntervalMs ≤ (last - bucket.lastRefill) * 1000)
    (paid : count + 1 ≤ bucket.spendable + (last - bucket.lastRefill) * 1000 * config.rate) :
    grantTimes maxBurst bucket (List.replicate count first ++ [last]) =
      List.replicate count first ++ [last] := by
  have room : 0 ≤ config.limit := zero_le_one.trans large
  rcases grantTimes_replicate interval room burst count [last] sound quiet enough with
    ⟨bucket', sound', left, refill, times⟩
  have granted : (bucket'.ask maxBurst last).1 = true :=
    ask_of_paid interval burst large sound' (by rw [refill]; exact due) (by rw [refill]; linarith)
  rw [times, grantTimes, if_pos granted]
  rfl

end

theorem exists_full (rate : 0 < config.rate) :
    ∃ time, 0 ≤ time ∧ config.refillIntervalMs ≤ (time - (create config 0).lastRefill) * 1000 ∧
      (create config 0).refilled time =
        { create config 0 with tokens := config.limit, lastRefill := time } := by
  obtain ⟨wait, isWait⟩ : ∃ wait, wait =
    |config.refillIntervalMs| + |config.burstAllowance| / config.rate := ⟨_, rfl⟩
  have elapsed : (wait / 1000 - (create config 0).lastRefill) * 1000 = wait := by
    change (wait / 1000 - 0) * 1000 = wait
    ring
  have due : config.refillIntervalMs ≤ wait := by
    rw [isWait]
    exact (le_abs_self _).trans (le_add_of_nonneg_right (by positivity))
  have enough : config.burstAllowance ≤ wait * config.rate := by
    rw [isWait, add_mul, div_mul_cancel₀ _ rate.ne']
    exact (le_abs_self _).trans (le_add_of_nonneg_left (by positivity))
  refine ⟨wait / 1000, ?_, ?_, ?_⟩
  · rw [isWait]
    positivity
  · rw [elapsed]
    exact due
  · have parameters : (create config 0).config = config := rfl
    rw [refilled_of_due parameters (by rw [elapsed]; exact due), elapsed, min_eq_left]
    rw [TokenBucket.limit, create]
    linarith

/-- A new bucket that grants all of these requests, more of them in a window than the rate
allows. -/
def Exceeds (config : TokenBucket) (maxBurst : ℤ) : Prop :=
  ∃ (times : List ℚ) (start length : ℚ), 0 ≤ length ∧ (0 :: times).Pairwise (· ≤ ·) ∧
    grantTimes maxBurst (create config 0) times = times ∧
    (∀ time ∈ times, start ≤ time ∧ time ≤ start + length) ∧
    config.limit + length * 1000 * config.rate < times.length

theorem exceeds_of_replicate {count : Nat} {time : ℚ} (nonneg : 0 ≤ time)
    (granted : grantTimes maxBurst (create config 0) (List.replicate count time) =
      List.replicate count time) (many : config.limit < count) : Exceeds config maxBurst := by
  refine ⟨_, time, 0, le_refl 0, ?_, granted, ?_, ?_⟩
  · refine pairwise_cons.mpr ⟨?_, pairwise_replicate_of_refl⟩
    intro later member
    rw [eq_of_mem_replicate member]
    exact nonneg
  · intro later member
    rw [eq_of_mem_replicate member, add_zero]
    exact ⟨le_refl time, le_refl time⟩
  · rw [length_replicate, zero_mul, zero_mul, add_zero]
    exact many

theorem exceeds_of_wait {count : Nat} {first : ℚ} (nonneg : 0 ≤ first) (ordered : first ≤ last)
    (granted : grantTimes maxBurst (create config 0) (List.replicate count first ++ [last]) =
      List.replicate count first ++ [last])
    (many : config.limit + (last - first) * 1000 * config.rate < count + 1) :
    Exceeds config maxBurst := by
  have placed : ∀ time ∈ .replicate count first ++ [last], first ≤ time ∧ time ≤ last := by
    intro time member
    rcases mem_append.mp member with early | late
    · rw [eq_of_mem_replicate early]
      exact ⟨le_refl first, ordered⟩
    · rw [mem_singleton.mp late]
      exact ⟨ordered, le_refl last⟩
  refine ⟨_, first, last - first, sub_nonneg.mpr ordered, ?_, granted, ?_, ?_⟩
  · rw [pairwise_cons, pairwise_append]
    refine ⟨fun time member => nonneg.trans (placed time member).1, ?_, ?_, ?_⟩
    · exact pairwise_replicate_of_refl
    · exact pairwise_singleton _ _
    · intro early member late isLast
      rw [eq_of_mem_replicate member, mem_singleton.mp isLast]
      exact ordered
  · rw [add_sub_cancel]
    exact placed
  · rw [length_append, length_replicate, length_singleton]
    push_cast
    exact many

theorem exceeds_of_capacity (interval : 0 < config.refillIntervalMs) (room : 0 ≤ config.limit)
    (burst : 0 < maxBurst) (many : config.limit < ⌊config.capacity⌋₊) :
    Exceeds config maxBurst := by
  have positive : 0 < config.capacity := by
    have some_ : (0 : ℚ) < ⌊config.capacity⌋₊ := room.trans_lt many
    exact one_pos.trans_le (floor_pos.mp (by exact_mod_cast some_))
  have quiet : Quiet config 0 (create config 0) := by
    left
    change (0 - 0) * 1000 < _
    simpa using interval
  have enough : (⌊config.capacity⌋₊ : ℚ) ≤ (create config 0).spendable := by
    exact (floor_le positive.le).trans (le_max_left _ _)
  rcases grantTimes_replicate interval.ne' room burst _ [] (sound_create config 0) quiet enough
    with ⟨bucket', -, -, -, times⟩
  have nothing : grantTimes maxBurst bucket' [] = [] := rfl
  rw [nothing, append_nil] at times
  exact exceeds_of_replicate (le_refl 0) times many

theorem exceeds_of_burst (interval : config.refillIntervalMs ≠ 0) (rate : 0 < config.rate)
    (burst : 0 < maxBurst) (small : config.limit < 1)
    (allowed : 1 ≤ config.limit + config.burstAllowance) : Exceeds config maxBurst := by
  rcases exists_full rate with ⟨time, nonneg, -, full⟩
  have granted : ((create config 0).ask maxBurst time).1 = true := by
    rcases ask_grants interval (sound_create config 0) burst time with ⟨granted, -⟩ | ⟨empty, -⟩
    · exact granted
    · rw [full] at empty
      have spends : config.limit + config.burstAllowance - 0 < 1 :=
        (le_max_right _ _).trans_lt empty
      linarith
  have once : grantTimes maxBurst (create config 0) (.replicate 1 time) =
      .replicate 1 time := by
    rw [replicate_one, grantTimes, if_pos granted]
    rfl
  exact exceeds_of_replicate nonneg once (by push_cast; exact small)

theorem exists_whole {limit : ℚ} (large : 1 ≤ limit) :
    ∃ count : Nat, 0 < count ∧ (count : ℚ) ≤ limit ∧ limit < count + 1 :=
  ⟨⌊limit⌋₊, floor_pos.mpr large, floor_le (zero_le_one.trans large),
    lt_floor_add_one limit⟩

theorem exceeds_of_refill (interval : 0 < config.refillIntervalMs) (rate : 0 < config.rate)
    (burst : 0 < maxBurst) (large : 1 ≤ config.limit) : Exceeds config maxBurst := by
  rcases exists_whole large with ⟨count, -, below, above⟩
  -- The time after which a refill pays for what is missing to the next request.
  obtain ⟨wait, isWait⟩ : ∃ wait, wait = (count + 1 - config.limit) / config.rate := ⟨_, rfl⟩
  have positive : 0 < wait := by
    rw [isWait]
    exact div_pos (by linarith) rate
  have pays : wait * config.rate = count + 1 - config.limit := by
    rw [isWait, div_mul_cancel₀ _ rate.ne']
  have both := min_add_max config.refillIntervalMs wait
  have short : 0 < min config.refillIntervalMs wait := lt_min interval positive
  have atMost := min_le_left config.refillIntervalMs wait
  have spendable : config.limit ≤ (create config 0).spendable := by
    rw [spendable_create]
    exact le_max_right _ _
  have elapsed : ∀ time : ℚ, (time / 1000 - (create config 0).lastRefill) * 1000 = time := by
    intro time
    change (time / 1000 - 0) * 1000 = time
    ring
  have atLeast := le_max_left config.refillIntervalMs wait
  obtain ⟨first, isFirst⟩ : ∃ first, first =
    config.refillIntervalMs - min config.refillIntervalMs wait / 2 := ⟨_, rfl⟩
  obtain ⟨last, isLast⟩ : ∃ last, last = max config.refillIntervalMs wait := ⟨_, rfl⟩
  have quiet : Quiet config (first / 1000) (create config 0) := by
    left
    rw [elapsed, isFirst]
    linarith
  have paid : count + 1 ≤ (create config 0).spendable +
      (last / 1000 - (create config 0).lastRefill) * 1000 * config.rate := by
    have enough := mul_le_mul_of_nonneg_right (le_max_right config.refillIntervalMs wait) rate.le
    rw [elapsed, isLast]
    linarith
  have granted := grantTimes_wait interval.ne' burst large (sound_create config 0) quiet
    (below.trans spendable) (by rw [elapsed, isLast]; exact atLeast) paid
  refine exceeds_of_wait ?_ ?_ granted ?_
  · exact div_nonneg (by linarith) (by norm_num)
  · exact div_le_div_of_nonneg_right (by linarith) (by norm_num)
  · have length : (last / 1000 - first / 1000) * 1000 =
        wait - min config.refillIntervalMs wait / 2 := by
      have later : last = config.refillIntervalMs + wait - min config.refillIntervalMs wait := by
        linarith
      rw [isFirst, later]
      ring
    have less := mul_pos short rate
    rw [length, sub_mul, pays]
    linarith

theorem exceeds_of_allowance (negative : config.refillIntervalMs < 0) (rate : 0 < config.rate)
    (burst : 0 < maxBurst) (large : 1 ≤ config.limit) (allowed : 0 < config.burstAllowance) :
    Exceeds config maxBurst := by
  rcases exists_whole large with ⟨count, some_, below, above⟩
  rcases exists_full rate with ⟨time, nonneg, due, full⟩
  have sound := (sound_create config 0).refilled time
  have spendable : ((create config 0).refilled time).spendable =
      config.limit + config.burstAllowance := by
    rw [full, TokenBucketState.spendable, available, create]
    rw [sub_zero]
    exact max_eq_right (le_add_of_nonneg_right allowed.le)
  have refill : ((create config 0).refilled time).lastRefill = time := by rw [full]
  have quiet : Quiet config time ((create config 0).refilled time) := by
    right
    rw [full]
    exact ⟨rfl, le_refl _⟩
  -- The time after which the rate has added what the allowance does not pay.
  obtain ⟨wait, isWait⟩ : ∃ wait, wait =
    max 0 (count + 1 - (config.limit + config.burstAllowance)) / config.rate := ⟨_, rfl⟩
  have pays : wait * config.rate =
      max 0 (count + 1 - (config.limit + config.burstAllowance)) := by
    rw [isWait, div_mul_cancel₀ _ rate.ne']
  have later : 0 ≤ wait := by
    rw [isWait]
    exact div_nonneg (le_max_left _ _) rate.le
  have elapsed : (time + wait / 1000 - time) * 1000 = wait := by ring
  have enough : (count : ℚ) ≤ ((create config 0).refilled time).spendable := by linarith
  have due' : config.refillIntervalMs ≤
      (time + wait / 1000 - ((create config 0).refilled time).lastRefill) * 1000 := by
    rw [refill, elapsed]
    exact negative.le.trans later
  have paid : count + 1 ≤ ((create config 0).refilled time).spendable +
      (time + wait / 1000 - ((create config 0).refilled time).lastRefill) * 1000 *
        config.rate := by
    have most := le_max_right 0 (count + 1 - (config.limit + config.burstAllowance))
    rw [refill, elapsed, pays, spendable]
    linarith
  have granted := grantTimes_wait negative.ne burst large sound quiet enough due' paid
  have same : grantTimes maxBurst (create config 0)
      (.replicate count time ++ [time + wait / 1000]) =
        grantTimes maxBurst ((create config 0).refilled time)
          (.replicate count time ++ [time + wait / 1000]) := by
    rcases exists_eq_succ_of_ne_zero some_.ne' with ⟨fewer, rfl⟩
    exact grantTimes_refilled negative.ne rfl due _
  refine exceeds_of_wait nonneg ?_ (same.trans granted) ?_
  · linarith
  · rcases max_choice 0 (count + 1 - (config.limit + config.burstAllowance)) with none | some_
    · linarith
    · linarith

end TokenBucketState

open TokenBucketState

namespace RateLimiterEngineImpl

def approvedTimes : PolicyEvaluation → List (Instant × PermitRequest) → List ℚ
  | _, [] => []
  | evaluation, (instant, request) :: later =>
    (if approves (evaluatePolicy evaluation instant request).1 then [instant.mono] else []) ++
      approvedTimes (evaluatePolicy evaluation instant request).2 later

/-- From its creation on, the policy approves in every window of time at most as many requests
as its bucket and its allowance hold and the rate adds in the length of the window. -/
def RateBounded (policy : RateLimitPolicy) : Prop :=
  ∀ (created : ℚ) (queues : QueueManager) (requests : List (Instant × PermitRequest)),
    (created :: requests.map fun asked => asked.1.mono).Pairwise (· ≤ ·) →
    ∀ start length : ℚ, 0 ≤ length →
      ((approvedTimes { state := .create policy created, queues } requests).countP
        (fun time => start ≤ time ∧ time ≤ start + length) : ℚ) ≤
      policy.tokenBucket.capacity + policy.tokenBucket.burstAllowance +
        policy.tokenBucket.refillRate * (length * 1000) / policy.tokenBucket.refillIntervalMs

theorem bound_eq (config : TokenBucket) (length : ℚ) : config.capacity + config.burstAllowance +
      config.refillRate * (length * 1000) / config.refillIntervalMs =
        config.limit + length * 1000 * config.rate := by
  rw [TokenBucket.limit, TokenBucket.rate]
  ring

theorem approvedTimes_eq (requests : List (Instant × PermitRequest))
    {evaluation : PolicyEvaluation} (algorithm : evaluation.state.policy.algorithm = .tokenBucket) :
    approvedTimes evaluation requests =
      TokenBucketState.grantTimes evaluation.state.policy.maxBurst evaluation.state.tokenBucket
        (requests.map fun asked => asked.1.mono) := by
  induction requests generalizing evaluation with
  | nil => rfl
  | cons asked later ih =>
    rcases asked with ⟨instant, request⟩
    rcases evaluatePolicy_spec evaluation instant request with ⟨approved, after⟩
    rw [PolicyRuntimeState.ask] at approved after
    rw [algorithm] at approved after
    rw [map_cons, TokenBucketState.grantTimes, approvedTimes, approved,
      ih (by rw [after]; exact algorithm), after]

theorem approvedTimes_create (policy : RateLimitPolicy) (created : ℚ) (queues : QueueManager)
    (requests : List (Instant × PermitRequest)) (algorithm : policy.algorithm = .tokenBucket) :
    approvedTimes { state := .create policy created, queues } requests =
      TokenBucketState.grantTimes policy.maxBurst
        (TokenBucketState.create policy.tokenBucket created)
        (requests.map fun asked => asked.1.mono) :=
  approvedTimes_eq requests algorithm

def requestsAt (times : List ℚ) : List (Instant × PermitRequest) :=
  times.map fun time => (⟨time, time⟩, { provider := "p", model := "m" })

theorem mono_requestsAt (times : List ℚ) :
    ((requestsAt times).map fun asked => asked.1.mono) = times := by
  rw [requestsAt, map_map]
  exact map_id times

theorem not_rateBounded {policy : RateLimitPolicy} (algorithm : policy.algorithm = .tokenBucket)
    (exceeds : TokenBucketState.Exceeds policy.tokenBucket policy.maxBurst) :
    ¬ RateBounded policy := by
  rcases exceeds with ⟨times, start, length, nonneg, ordered, granted, inside, many⟩
  intro bounded
  have bound := bounded 0 {} (requestsAt times) (by rw [mono_requestsAt]; exact ordered) start
    length nonneg
  have all : times.countP (fun time => start ≤ time ∧ time ≤ start + length) = times.length :=
    countP_eq_length.mpr fun time member => decide_eq_true (inside time member)
  rw [approvedTimes_create policy 0 {} _ algorithm, mono_requestsAt, granted, all,
    bound_eq] at bound
  exact absurd bound (not_le.mpr many)

theorem bound_nonneg {policy : RateLimitPolicy} (bounded : RateBounded policy) {length : ℚ}
    (nonneg : 0 ≤ length) :
    0 ≤ policy.tokenBucket.limit + length * 1000 * policy.tokenBucket.rate := by
  have bound := bounded 0 {} [] (pairwise_singleton _ _) 0 length nonneg
  rw [bound_eq] at bound
  exact bound

end RateLimiterEngineImpl

/-- The parameters with which a token bucket keeps its rate. The bound is not negative, and the
bucket is not refilled, or it never lets a request through, or every request is preceded by a
refill and there is no allowance. -/
def TokenBucket.KeepsRate (config : TokenBucket) : Prop :=
  0 ≤ config.capacity + config.burstAllowance ∧
    0 ≤ config.refillRate / config.refillIntervalMs ∧
    ((config.refillRate = 0 ∧
        (config.refillIntervalMs < 0 ∨ 0 ≤ config.burstAllowance ∨
          ⌊config.capacity⌋₊ ≤ config.capacity + config.burstAllowance)) ∨
      (config.capacity < 1 ∧ config.capacity + 2 * config.burstAllowance < 1) ∨
      (config.refillIntervalMs < 0 ∧ config.burstAllowance ≤ 0))
deriving Decidable

namespace RateLimiterEngineImpl

/-- A bucket that is not refilled grants no more than its limit, unless a negative allowance
makes this less than the capacity. -/
theorem length_grantTimes_le_limit {config : TokenBucket} {maxBurst : ℤ} {created : ℚ}
    (interval : config.refillIntervalMs ≠ 0) (room : 0 ≤ config.limit) (burst : 0 < maxBurst)
    (still : config.refillRate = 0)
    (held : config.refillIntervalMs < 0 ∨ 0 ≤ config.burstAllowance ∨
      ⌊config.capacity⌋₊ ≤ config.limit)
    (times : List ℚ) (ordered : (created :: times).Pairwise (· ≤ ·)) :
    ((TokenBucketState.grantTimes maxBurst (TokenBucketState.create config created)
      times).length : ℚ) ≤ config.limit := by
  have sound := TokenBucketState.sound_create config created
  have unpaid : config.rate = 0 := by rw [TokenBucket.rate, still, zero_div]
  have total := length_grantTimes_le interval room burst unpaid times sound
  rw [TokenBucketState.spendable_create] at total
  have cast := (cast_le (α := ℚ)).mpr total
  rcases le_total config.capacity config.limit with below | above
  · rw [max_eq_right below] at cast
    exact cast.trans (floor_le room)
  · rw [max_eq_left above] at cast
    have owed : config.burstAllowance ≤ 0 := by
      rw [TokenBucket.limit] at above
      linarith
    rcases held with negative | allowed | whole
    · cases times with
      | nil => exact room
      | cons mono later =>
        have here := (pairwise_cons.mp ordered).1 mono mem_cons_self
        have due : config.refillIntervalMs ≤
            (mono - (TokenBucketState.create config created).lastRefill) * 1000 := by
          change _ ≤ (mono - created) * 1000
          linarith
        have top : ((TokenBucketState.create config created).refilled mono).tokens ≤
            config.limit := by
          rw [TokenBucketState.refilled_of_due rfl due]
          exact min_le_left _ _
        have spends : ((TokenBucketState.create config created).refilled mono).spendable ≤
            config.limit := by
          rw [TokenBucketState.spendable, TokenBucketState.available]
          rw [TokenBucketState.config_refilled, burstUsed_refilled]
          refine max_le top ?_
          change _ + config.burstAllowance - 0 ≤ _
          linarith
        have rest := length_grantTimes_le interval room burst unpaid
          (mono :: later) (sound.refilled mono)
        rw [← TokenBucketState.grantTimes_refilled interval rfl due] at rest
        have bounded := (cast_le (α := ℚ)).mpr (rest.trans (floor_le_floor spends))
        exact bounded.trans (floor_le room)
    · have same : config.capacity = config.limit := by
        unfold TokenBucket.limit at above ⊢
        linarith
      rw [same] at cast
      exact cast.trans (floor_le room)
    · exact cast.trans whole

theorem rateBounded_of_keepsRate {policy : RateLimitPolicy}
    (algorithm : policy.algorithm = .tokenBucket) (burst : 0 < policy.maxBurst)
    (interval : policy.tokenBucket.refillIntervalMs ≠ 0) (keeps : policy.tokenBucket.KeepsRate) :
    RateBounded policy := by
  intro created queues requests ordered start length nonneg
  rw [approvedTimes_create policy created queues requests algorithm, bound_eq]
  have sound := TokenBucketState.sound_create policy.tokenBucket created
  generalize policy.tokenBucket = config at interval keeps sound ⊢
  generalize requests.map (fun asked => asked.1.mono) = times at ordered ⊢
  rcases keeps with ⟨room, rate, condition⟩
  change 0 ≤ config.limit at room
  have added : 0 ≤ length * 1000 * config.rate := mul_nonneg (by linarith) rate
  rcases condition with ⟨still, held⟩ | ⟨small, allowed⟩ | ⟨negative, owed⟩
  · have total := length_grantTimes_le_limit interval room burst still held times ordered
    have counted := countP_le_length (p := fun time : ℚ =>
      decide (start ≤ time ∧ time ≤ start + length))
      (l := TokenBucketState.grantTimes policy.maxBurst
        (TokenBucketState.create config created) times)
    have fewer := (cast_le (α := ℚ)).mpr counted
    linarith
  · have twice : config.limit + config.burstAllowance < 1 := by
      rw [TokenBucket.limit]
      linarith
    rw [grantTimes_eq_nil interval room burst small twice times sound, countP_nil]
    exact add_nonneg room added
  · have capacity : 0 ≤ config.capacity := by
      rw [TokenBucket.limit] at room
      linarith
    have bound := countP_window_le negative owed room rate burst
      (le_add_of_nonneg_right nonneg : start ≤ start + length) times sound capacity ordered
    rw [add_sub_cancel_left] at bound
    exact bound

/-- A token bucket policy with bursts keeps its rate exactly if its parameters allow it. -/
theorem rateBounded_iff (policy : RateLimitPolicy) (algorithm : policy.algorithm = .tokenBucket)
    (burst : 0 < policy.maxBurst) (interval : policy.tokenBucket.refillIntervalMs ≠ 0) :
    RateBounded policy ↔ policy.tokenBucket.KeepsRate := by
  refine ⟨?_, rateBounded_of_keepsRate algorithm burst interval⟩
  intro bounded
  have room := bound_nonneg bounded (le_refl 0)
  rw [zero_mul, zero_mul, add_zero] at room
  have never : ¬ TokenBucketState.Exceeds policy.tokenBucket policy.maxBurst :=
    fun exceeds => not_rateBounded algorithm exceeds bounded
  have rate : 0 ≤ policy.tokenBucket.rate := by
    by_contra falls
    have negative := not_le.mp falls
    have positive : 0 < -policy.tokenBucket.rate := neg_pos.mpr negative
    have bound := bound_nonneg bounded
      (div_nonneg (div_nonneg (by linarith) positive.le) (by norm_num) :
        0 ≤ (policy.tokenBucket.limit + 1) / -policy.tokenBucket.rate / 1000)
    have nonzero := negative.ne
    have spent : (policy.tokenBucket.limit + 1) / -policy.tokenBucket.rate / 1000 * 1000 *
        policy.tokenBucket.rate = -(policy.tokenBucket.limit + 1) := by
      field_simp
    linarith
  refine ⟨room, rate, ?_⟩
  generalize policy.tokenBucket = config at interval room never rate ⊢
  by_contra neither
  rcases not_or.mp neither with ⟨refills, others⟩
  rcases not_or.mp others with ⟨grants, allows⟩
  by_cases still : config.refillRate = 0
  · -- Only the requests before the first refill can be too many.
    rw [not_and, not_or, not_or] at refills
    rcases refills still with ⟨positive, owed, whole⟩
    have interval' := lt_of_le_of_ne (not_lt.mp positive) interval.symm
    exact never (exceeds_of_capacity interval' room burst (not_le.mp whole))
  · have pays : 0 < config.rate := lt_of_le_of_ne rate (div_ne_zero still interval).symm
    rcases lt_or_ge config.limit 1 with small | large
    · rcases lt_or_ge (config.limit + config.burstAllowance) 1 with empty | spend
      · have twice : config.capacity + 2 * config.burstAllowance < 1 := by
          rw [TokenBucket.limit] at empty
          linarith
        have capacity : 1 ≤ config.capacity := by
          by_contra less
          exact grants ⟨not_le.mp less, twice⟩
        have owed : config.burstAllowance ≤ 0 := by linarith
        have positive : 0 < config.refillIntervalMs := by
          by_contra negative
          exact allows ⟨lt_of_le_of_ne (not_lt.mp negative) interval, owed⟩
        have whole : (1 : ℚ) ≤ ⌊config.capacity⌋₊ := by exact_mod_cast floor_pos.mpr capacity
        exact never (exceeds_of_capacity positive room burst (small.trans_le whole))
      · exact never (exceeds_of_burst interval pays burst small spend)
    · rcases lt_or_gt_of_ne interval with negative | positive
      · have allowed : 0 < config.burstAllowance := by
          by_contra owed
          exact allows ⟨negative, not_lt.mp owed⟩
        exact never (exceeds_of_allowance negative pays burst large allowed)
      · exact never (exceeds_of_refill positive pays burst large)

/-- A bucket for two requests with an allowance for two. -/
def samplePolicy : RateLimitPolicy where
  id := "tokens"
  tokenBucket := { capacity := 2, refillRate := 1, burstAllowance := 2 }
  maxBurst := 1

/-- After two seconds without requests six are approved at once, while the capacity and the
allowance are four. -/
theorem samplePolicy_exceeds :
    approvedTimes { state := .create samplePolicy 0, queues := {} }
        (requestsAt (List.replicate 7 2)) = List.replicate 6 2 ∧
      ¬ RateBounded samplePolicy := by
  refine ⟨by decide +kernel, ?_⟩
  have granted : TokenBucketState.grantTimes samplePolicy.maxBurst
      (.create samplePolicy.tokenBucket 0) (.replicate 6 2) =
        List.replicate 6 2 := by decide +kernel
  exact not_rateBounded rfl (TokenBucketState.exceeds_of_replicate (by decide +kernel) granted
    (by decide +kernel))

/-- The same bucket without a refill. -/
theorem samplePolicy_keeps : RateBounded
    { samplePolicy with tokenBucket := { samplePolicy.tokenBucket with refillRate := 0 } } :=
  (rateBounded_iff _ rfl (by decide) (by decide +kernel)).mpr (by decide +kernel)

end RateLimiterEngineImpl

end AgenticOS.OmniRoute
