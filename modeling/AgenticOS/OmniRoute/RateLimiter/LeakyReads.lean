import AgenticOS.OmniRoute.RateLimiter.Limits
import AgenticOS.Transition.Run
import Mathlib.Tactic.Positivity

/-!
# Reading a leaky bucket

A read of the depth drains the bucket first. A drain lets only whole entries out, and sets the
clock of the bucket to the time of the drain, so that the rest of the time that was needed for
the next entry is lost. Whoever reads often enough keeps the bucket full. Only a bucket that
nothing enters or that nothing leaves is not affected. The amounts are exact here: no product is
too large for a float.
-/

namespace AgenticOS.OmniRoute

open List Int

namespace LeakyBucket

/-- The entries that leave in a millisecond. -/
def rate (config : LeakyBucket) : ℚ :=
  config.drainRate / config.drainIntervalMs

def LosesNothing (config : LeakyBucket) : Prop :=
  config.maxQueueDepth ≤ 0 ∨ config.rate ≤ 0

end LeakyBucket

namespace LeakyBucketState

open Transition

variable (bucket : LeakyBucketState)

/-- `drain` where no product overflows. -/
def drainExact (mono : ℚ) : Except String LeakyBucketState :=
  let elapsed := (mono - bucket.lastDrain) * 1000
  if bucket.config.drainIntervalMs ≤ elapsed then
    if bucket.config.drainIntervalMs = 0 then .error "float division by zero"
    else
      let toDrain := truncate (elapsed / bucket.config.drainIntervalMs * bucket.config.drainRate)
      .ok { bucket with queue := bucket.queue.drop toDrain.toNat, lastDrain := mono }
  else .ok bucket

/-- `try_add`. -/
def tryAddAt (mono size : ℚ) : Except String Bool × LeakyBucketState :=
  match bucket.drainExact mono with
  | .error error => (.error error, bucket)
  | .ok drained =>
    match drained.tryAdd size with
    | some added => (.ok true, added)
    | none => (.ok false, drained)

def queueDepth (mono : ℚ) : Except String ℤ × LeakyBucketState :=
  match bucket.drainExact mono with
  | .error error => (.error error, bucket)
  | .ok drained => (.ok drained.queue.length, drained)

def overflow (mono : ℚ) : Except String Bool × LeakyBucketState :=
  match bucket.queueDepth mono with
  | (.error error, bucket) => (.error error, bucket)
  | (.ok depth, bucket) => (.ok (bucket.config.maxQueueDepth ≤ depth), bucket)

inductive Call
  | tryAdd (size : ℚ)
  | queueDepth
  | overflow

inductive Answer
  | added (accepted : Bool)
  | depth (entries : ℤ)
  | full (overflows : Bool)
  deriving DecidableEq

def perform (mono : ℚ) :
    Call → Except String Answer × LeakyBucketState
  | .tryAdd size => (bucket.tryAddAt mono size).map (Except.map .added) id
  | .queueDepth => (bucket.queueDepth mono).map (Except.map .depth) id
  | .overflow => (bucket.overflow mono).map (Except.map .full) id

abbrev Timed := ℚ × LeakyBucketState

def step (state : Timed) (call : ℚ × Call) : Timed :=
  (call.1, (state.2.perform call.1 call.2).2)

def answer (state : Timed) (call : ℚ × Call) : Except String Answer :=
  (state.2.perform call.1 call.2).1

/-- The call is not only a read. -/
def adds (call : ℚ × Call) : Bool :=
  match call.2 with
  | .tryAdd _ => true
  | .queueDepth | .overflow => false

/-- The monotonic clock does not go back. -/
def InOrder (state : Timed) (call : ℚ × Call) : Prop :=
  state.1 ≤ call.1

def start (config : LeakyBucket) (created : ℚ) : Timed :=
  (created, create config created)

/-- Whatever reads there are between the additions, the additions get the same answers. -/
def ReadsSilently (config : LeakyBucket) : Prop :=
  ∀ (created : ℚ) (calls : List (ℚ × Call)), Along step InOrder (start config created) calls →
    answers step answer adds (start config created) calls =
      answers step answer adds (start config created) (calls.filter adds)

/-- The bucket as the next call finds it. -/
def settle (mono : ℚ) : LeakyBucketState :=
  match bucket.drainExact mono with
  | .error _ => bucket
  | .ok drained => drained

/-- How many entries leave in a run of calls. -/
def drainedDuring : Timed → List (ℚ × Call) → ℕ
  | _, [] => 0
  | state, call :: calls =>
    (state.2.queue.length - (state.2.settle call.1).queue.length) +
      drainedDuring (step state call) calls

/-- While the bucket is never empty, at least as many entries leave as the rate says. -/
def DrainsEnough (config : LeakyBucket) : Prop :=
  ∀ (created : ℚ) (before during : List (ℚ × Call)),
    Along step InOrder (start config created) (before ++ during) →
    (run step (start config created) before).2.queue ≠ [] →
    Along step (fun state call => (state.2.settle call.1).queue ≠ [])
      (run step (start config created) before) during →
    ⌊config.drainRate *
        (((run step (start config created) (before ++ during)).1 -
          (run step (start config created) before).1) * 1000) / config.drainIntervalMs⌋ ≤
      (drainedDuring (run step (start config created) before) during : ℤ)

variable {config : LeakyBucket} {bucket : LeakyBucketState} {mono size : ℚ} {call : Call}

theorem drain_of_due (interval : bucket.config.drainIntervalMs ≠ 0)
    (due : bucket.config.drainIntervalMs ≤ (mono - bucket.lastDrain) * 1000) :
    bucket.drainExact mono =
      .ok { bucket with
        queue := bucket.queue.drop
          (truncate ((mono - bucket.lastDrain) * 1000 * bucket.config.rate)).toNat
        lastDrain := mono } := by
  have amount : (mono - bucket.lastDrain) * 1000 / bucket.config.drainIntervalMs *
      bucket.config.drainRate = (mono - bucket.lastDrain) * 1000 * bucket.config.rate := by
    rw [LeakyBucket.rate, div_mul_eq_mul_div, mul_div_assoc]
  simp only [drainExact, if_pos due, if_neg interval, amount]

theorem drain_of_early (early : (mono - bucket.lastDrain) * 1000 < bucket.config.drainIntervalMs) :
    bucket.drainExact mono = .ok bucket := by
  simp [drainExact, not_le.mpr early]

theorem drain_of_zero (interval : bucket.config.drainIntervalMs = 0)
    (ordered : bucket.lastDrain ≤ mono) :
    bucket.drainExact mono = .error "float division by zero" := by
  have due : 0 ≤ (mono - bucket.lastDrain) * 1000 := by linarith
  simp [drainExact, interval, due]

@[simp]
theorem truncate_of_small {value : ℚ} (nonneg : 0 ≤ value) (small : value < 1) :
    truncate value = 0 := by
  rw [truncate, if_neg (not_lt.mpr nonneg)]
  exact floor_eq_zero_iff.mpr ⟨nonneg, small⟩

theorem truncate_nonpos {value : ℚ} (nonpos : value ≤ 0) : truncate value ≤ 0 := by
  rw [truncate]
  split
  · exact ceil_le.mpr (by exact_mod_cast nonpos)
  · exact floor_nonpos nonpos

theorem perform_of_drain {drained : LeakyBucketState}
    (drains : bucket.drainExact mono = .ok drained) : bucket.perform mono call = match call with
      | .tryAdd size => match drained.tryAdd size with
        | some added => (.ok (.added true), added)
        | none => (.ok (.added false), drained)
      | .queueDepth => (.ok (.depth drained.queue.length), drained)
      | .overflow =>
        (.ok (.full (drained.config.maxQueueDepth ≤ drained.queue.length)), drained) := by
  cases call with
  | tryAdd size =>
    cases adds : drained.tryAdd size with
    | some | none => simp [perform, tryAddAt, drains, adds, Except.map]
  | queueDepth => simp [perform, queueDepth, drains, Except.map]
  | overflow => simp [perform, overflow, queueDepth, drains, Except.map]

theorem perform_of_error {error : String} (drains : bucket.drainExact mono = .error error) :
    bucket.perform mono call = (.error error, bucket) := by
  cases call with
  | tryAdd size => simp [perform, tryAddAt, drains, Except.map]
  | queueDepth => simp [perform, queueDepth, drains, Except.map]
  | overflow => simp [perform, overflow, queueDepth, drains, Except.map]

/-- A bucket of such a kind is as it was after a drain, but for its clock. -/
structure Idle (config : LeakyBucket) (now : ℚ) (bucket : LeakyBucketState) : Prop where
  parameters : bucket.config = config
  ordered : bucket.lastDrain ≤ now
  empty : config.maxQueueDepth ≤ 0 → bucket.queue = []

theorem idle_create (config : LeakyBucket) (created : ℚ) :
    Idle config created (create config created) where
  parameters := rfl
  ordered := le_refl created
  empty _ := rfl

theorem Idle.later {now : ℚ} (idle : Idle config now bucket) (ordered : now ≤ mono) :
    Idle config mono bucket :=
  ⟨idle.parameters, idle.ordered.trans ordered, idle.empty⟩

theorem Idle.drain {now : ℚ} (loses : config.LosesNothing) (idle : Idle config now bucket)
    (ordered : now ≤ mono) :
    (config.drainIntervalMs = 0 ∧ bucket.drainExact mono = .error "float division by zero") ∨
      (config.drainIntervalMs ≠ 0 ∧ ∃ last ≤ mono,
        bucket.drainExact mono = .ok { bucket with lastDrain := last }) := by
  have later := idle.ordered.trans ordered
  by_cases interval : config.drainIntervalMs = 0
  · exact .inl ⟨interval, drain_of_zero (by rw [idle.parameters, interval]) later⟩
  · right
    refine ⟨interval, ?_⟩
    rcases le_or_gt config.drainIntervalMs ((mono - bucket.lastDrain) * 1000) with due | early
    · refine ⟨mono, le_refl mono, ?_⟩
      rw [drain_of_due (by rw [idle.parameters]; exact interval)
        (by rw [idle.parameters]; exact due)]
      congr 2
      rcases loses with closed | still
      · rw [idle.empty closed, drop_nil]
      · have elapsed : 0 ≤ (mono - bucket.lastDrain) * 1000 := by linarith
        have none := truncate_nonpos (mul_nonpos_of_nonneg_of_nonpos elapsed still)
        rw [idle.parameters, toNat_of_nonpos none, drop_zero]
    · refine ⟨bucket.lastDrain, later, ?_⟩
      rw [drain_of_early (by rw [idle.parameters]; exact early)]

def boundedQueue (config : LeakyBucket) (queue : List ℚ) : Call → Answer × List ℚ
  | .tryAdd size =>
    if queue.length < config.maxQueueDepth then (.added true, queue ++ [size])
    else (.added false, queue)
  | .queueDepth => (.depth queue.length, queue)
  | .overflow => (.full (config.maxQueueDepth ≤ queue.length), queue)

/-- Without an interval every call raises. -/
def outcome (config : LeakyBucket) (queue : List ℚ) (call : Call) : Except String Answer × List ℚ :=
  if config.drainIntervalMs = 0 then (.error "float division by zero", queue)
  else (boundedQueue config queue call).map .ok id

theorem outcome_of_read (queue : List ℚ) (reads : adds (mono, call) = false) :
    (outcome config queue call).2 = queue := by
  rw [outcome]
  split
  · rfl
  · cases call with
    | tryAdd size => simp [adds] at reads
    | queueDepth | overflow => rfl

theorem Idle.perform {now : ℚ} (loses : config.LosesNothing) (idle : Idle config now bucket)
    (ordered : now ≤ mono) (call : Call) : Idle config mono (bucket.perform mono call).2 ∧
      (bucket.perform mono call).1 = (outcome config bucket.queue call).1 ∧
      (bucket.perform mono call).2.queue = (outcome config bucket.queue call).2 := by
  rcases idle.drain loses ordered with ⟨interval, fails⟩ | ⟨interval, last, before, drains⟩
  · rw [perform_of_error fails, outcome, if_pos interval]
    exact ⟨idle.later ordered, rfl, rfl⟩
  · have kept : Idle config mono { bucket with lastDrain := last } :=
      ⟨idle.parameters, before, idle.empty⟩
    rw [perform_of_drain drains, outcome, if_neg interval]
    cases call with
    | tryAdd size =>
      by_cases room : (bucket.queue.length : ℤ) < config.maxQueueDepth
      · have opened : ¬ config.maxQueueDepth ≤ 0 := by omega
        simp only [tryAdd, idle.parameters, if_pos room, boundedQueue]
        exact ⟨⟨rfl, before, fun closed => absurd closed opened⟩, rfl, rfl⟩
      · simpa [tryAdd, idle.parameters, room, boundedQueue] using kept
    | queueDepth => exact ⟨kept, rfl, rfl⟩
    | overflow => simpa [idle.parameters, boundedQueue] using kept

/-- The buckets of two runs, of which the second may leave reads out. -/
structure Alike (config : LeakyBucket) (left right : Timed) : Prop where
  reading : Idle config left.1 left.2
  adding : Idle config left.1 right.2
  queue : left.2.queue = right.2.queue

theorem readsSilently_of_losesNothing (loses : config.LosesNothing) : ReadsSilently config := by
  intro created calls along
  have quiet : ∀ {left right : Timed} {call}, Alike config left right → InOrder left call →
      adds call = false → Alike config (step left call) right := by
    intro left right call alike ordered reads
    rcases alike.reading.perform loses ordered call.2 with ⟨next, -, queue⟩
    rw [outcome_of_read _ reads] at queue
    exact ⟨next, alike.adding.later ordered, queue.trans alike.queue⟩
  have loud : ∀ {left right : Timed} {call}, Alike config left right → InOrder left call →
      adds call = true → answer left call = answer right call ∧
        Alike config (step left call) (step right call) := by
    intro left right call alike ordered _
    rcases alike.reading.perform loses ordered call.2 with ⟨next, answered, queue⟩
    rcases alike.adding.perform loses ordered call.2 with ⟨next', answered', queue'⟩
    rw [alike.queue] at answered queue
    exact ⟨answered.trans answered'.symm, next, next', queue.trans queue'.symm⟩
  have started : Alike config (start config created) (start config created) :=
    ⟨idle_create config created, idle_create config created, rfl⟩
  exact answers_filter quiet loud started along

theorem Idle.run {state : Timed} {calls : List (ℚ × Call)} (loses : config.LosesNothing)
    (idle : Idle config state.1 state.2) (along : Along step InOrder state calls) :
    Idle config (Transition.run step state calls).1 (Transition.run step state calls).2 ∧
      state.1 ≤ (Transition.run step state calls).1 := by
  induction calls generalizing state with
  | nil => exact ⟨idle, le_refl _⟩
  | cons call calls ih =>
    rcases along with ⟨ordered, rest⟩
    have next : Idle config (step state call).1 (step state call).2 :=
      (idle.perform loses ordered call.2).1
    rcases ih next rest with ⟨last, later⟩
    exact ⟨last, ordered.trans later⟩

theorem drainsEnough_of_losesNothing (loses : config.LosesNothing) : DrainsEnough config := by
  intro created before during along filled _
  rw [along_append] at along
  have new : Idle config (start config created).1 (start config created).2 :=
    idle_create config created
  rcases new.run loses along.1 with ⟨idle, -⟩
  rcases loses with closed | still
  · exact absurd (idle.empty closed) filled
  · have later := (idle.run (.inr still) along.2).2
    rw [← run_append] at later
    refine le_trans (floor_nonpos ?_) (natCast_nonneg _)
    rw [mul_comm, mul_div_assoc]
    exact mul_nonpos_of_nonneg_of_nonpos (by linarith) still

/-! ## Buckets that lose entries -/

/-- The entries that leave in the time since the last drain. -/
theorem settle_of_due (interval : bucket.config.drainIntervalMs ≠ 0)
    (due : bucket.config.drainIntervalMs ≤ (mono - bucket.lastDrain) * 1000) :
    bucket.settle mono =
      { bucket with
        queue := bucket.queue.drop
          (truncate ((mono - bucket.lastDrain) * 1000 * bucket.config.rate)).toNat
        lastDrain := mono } := by
  rw [settle, drain_of_due interval due]

theorem settle_of_early (early : (mono - bucket.lastDrain) * 1000 < bucket.config.drainIntervalMs) :
    bucket.settle mono = bucket := by
  rw [settle, drain_of_early early]

section

variable (interval : bucket.config.drainIntervalMs ≠ 0) (mono : ℚ)
include interval

theorem drain_eq : bucket.drainExact mono = .ok (bucket.settle mono) := by
  rcases le_or_gt bucket.config.drainIntervalMs ((mono - bucket.lastDrain) * 1000) with
    due | early
  · rw [drain_of_due interval due, settle_of_due interval due]
  · rw [drain_of_early early, settle_of_early early]

@[simp]
theorem config_settle : (bucket.settle mono).config = bucket.config := by
  rcases le_or_gt bucket.config.drainIntervalMs ((mono - bucket.lastDrain) * 1000) with
    due | early
  · rw [settle_of_due interval due]
  · rw [settle_of_early early]

theorem length_settle_le : (bucket.settle mono).queue.length ≤ bucket.queue.length := by
  rcases le_or_gt bucket.config.drainIntervalMs ((mono - bucket.lastDrain) * 1000) with
    due | early
  · rw [settle_of_due interval due]
    simp
  · rw [settle_of_early early]

end

theorem settle_of_settled (settled : bucket.Settled mono) : bucket.settle mono = bucket := by
  rcases settled with early | ⟨same, interval⟩
  · exact settle_of_early early
  · rcases le_or_gt bucket.config.drainIntervalMs ((mono - bucket.lastDrain) * 1000) with
      due | early
    · subst same
      rw [settle_of_due interval due]
      simp
    · exact settle_of_early early

section

variable (interval : bucket.config.drainIntervalMs ≠ 0) (mono : ℚ)
include interval

theorem settled_settle : (bucket.settle mono).Settled mono := by
  rcases le_or_gt bucket.config.drainIntervalMs ((mono - bucket.lastDrain) * 1000) with
    due | early
  · rw [settle_of_due interval due]
    exact .inr ⟨rfl, interval⟩
  · rw [settle_of_early early]
    exact .inl early

theorem perform_tryAdd (size : ℚ) :
    bucket.perform mono (.tryAdd size) =
      if (bucket.settle mono).queue.length < bucket.config.maxQueueDepth then
        (.ok (.added true),
          { bucket.settle mono with queue := (bucket.settle mono).queue ++ [size] })
      else (.ok (.added false), bucket.settle mono) := by
  rw [perform_of_drain (drain_eq interval mono), ← config_settle interval mono]
  by_cases room : ((bucket.settle mono).queue.length : ℤ) <
      (bucket.settle mono).config.maxQueueDepth
  · simp [tryAdd, room]
  · simp [tryAdd, room]

theorem perform_queueDepth : (bucket.perform mono .queueDepth).2 = bucket.settle mono := by
  rw [perform_of_drain (drain_eq interval mono)]

end

/-- As many additions at one time. -/
def additions (mono : ℚ) (count : ℕ) : List (ℚ × Call) :=
  List.replicate count (mono, .tryAdd 1)

section

variable (bucket : LeakyBucketState) (interval : bucket.config.drainIntervalMs ≠ 0)
include interval

theorem fill_of_settled (settled : bucket.Settled mono)
    (fits : bucket.queue.length ≤ bucket.config.maxQueueDepth) (now : ℚ) (count : ℕ) :
    ∃ (last : ℚ) (queue : List ℚ),
      run step (now, bucket) (additions mono count) = (last, { bucket with queue }) ∧
        queue.length = min (bucket.queue.length + count : ℤ) bucket.config.maxQueueDepth := by
  induction count generalizing now bucket with
  | zero => exact ⟨now, bucket.queue, rfl, by simpa using fits⟩
  | succ count ih =>
    have added := perform_tryAdd interval mono 1
    rw [settle_of_settled settled] at added
    rw [additions, replicate_succ, run_cons, step, added]
    by_cases room : (bucket.queue.length : ℤ) < bucket.config.maxQueueDepth
    · rw [if_pos room]
      rcases ih { bucket with queue := bucket.queue ++ [1] } interval settled
        (by simpa using add_one_le_of_lt room) mono with ⟨last, queue, after, long⟩
      refine ⟨last, queue, after, ?_⟩
      simp only [length_append, length_singleton] at long
      omega
    · rw [if_neg room]
      rcases ih bucket interval settled fits mono with
        ⟨last, queue, after, long⟩
      refine ⟨last, queue, after, ?_⟩
      omega

theorem fill (fits : bucket.queue.length ≤ bucket.config.maxQueueDepth)
    (opened : 0 < bucket.config.maxQueueDepth) (now mono : ℚ) : ∃ (last : ℚ) (queue : List ℚ),
      run step (now, bucket) (additions mono bucket.config.maxQueueDepth.toNat) =
        (last, { bucket.settle mono with queue }) ∧
      (queue.length : ℤ) = bucket.config.maxQueueDepth := by
  obtain ⟨count, isCount⟩ := Nat.exists_eq_succ_of_ne_zero
    (by omega : bucket.config.maxQueueDepth.toNat ≠ 0)
  have same := config_settle interval mono
  have interval' : (bucket.settle mono).config.drainIntervalMs ≠ 0 := by rw [same]; exact interval
  have settled := settled_settle interval mono
  have fewer := length_settle_le interval mono
  have drained : step (now, bucket) (mono, .tryAdd 1) =
      step (now, bucket.settle mono) (mono, .tryAdd 1) := by
    rw [step, step, perform_tryAdd interval, perform_tryAdd interval', settle_of_settled settled,
      same]
  rcases fill_of_settled (bucket.settle mono) interval' settled (by rw [same]; omega) now
    (count + 1) with ⟨last, queue, after, long⟩
  rw [isCount]
  refine ⟨last, queue, ?_, ?_⟩
  · rw [← after, additions, replicate_succ, run_cons, run_cons, drained]
  · rw [same] at long
    omega

end

theorem along_inOrder {state : Timed} {calls : List (ℚ × Call)}
    (sorted : (state.1 :: calls.map Prod.fst).Pairwise (· ≤ ·)) :
    Along step InOrder state calls := by
  induction calls generalizing state with
  | nil => trivial
  | cons call calls ih =>
    rw [map_cons, pairwise_cons] at sorted
    exact ⟨sorted.1 call.1 mem_cons_self, ih sorted.2⟩

theorem not_readsSilently (calls : List (ℚ × Call)) (last : ℚ × Call)
    (along : Along step InOrder (start config 0) (calls ++ [last])) (isAdd : adds last = true)
    (differ : answer (run step (start config 0) calls) last ≠
      answer (run step (start config 0) (calls.filter adds)) last) : ¬ ReadsSilently config := by
  intro silent
  have same := congrArg List.getLast? (silent 0 (calls ++ [last]) along)
  simp [answers_append, answers_cons, isAdd] at same
  exact differ same

theorem filter_additions (mono : ℚ) (count : ℕ) :
    (additions mono count).filter adds = additions mono count := by
  rw [filter_eq_self]
  intro call member
  rw [eq_of_mem_replicate member]
  rfl

theorem answer_tryAdd {state : Timed} (interval : state.2.config.drainIntervalMs ≠ 0)
    (mono size : ℚ) : answer state (mono, .tryAdd size) =
      .ok (.added (((state.2.settle mono).queue.length : ℤ) < state.2.config.maxQueueDepth)) := by
  rw [answer, perform_tryAdd interval]
  split
  next room => simp [room]
  next full => simp [full]

theorem fill_start (interval : config.drainIntervalMs ≠ 0) (opened : 0 < config.maxQueueDepth) :
    ∃ (last : ℚ) (queue : List ℚ),
      run step (start config 0) (additions 0 config.maxQueueDepth.toNat) =
        (last, { config, queue, lastDrain := 0 }) ∧ (queue.length : ℤ) = config.maxQueueDepth := by
  have settled : (create config 0).Settled 0 := .inr ⟨rfl, interval⟩
  rcases fill (create config 0) interval opened.le opened 0 0 with ⟨last, queue, after, full⟩
  rw [settle_of_settled settled] at after
  exact ⟨last, queue, after, full⟩

theorem queue_settle_of_short (interval : bucket.config.drainIntervalMs ≠ 0)
    (nonneg : 0 ≤ (mono - bucket.lastDrain) * 1000 * bucket.config.rate)
    (short : (mono - bucket.lastDrain) * 1000 * bucket.config.rate < 1) :
    (bucket.settle mono).queue = bucket.queue := by
  rcases le_or_gt bucket.config.drainIntervalMs ((mono - bucket.lastDrain) * 1000) with
    due | early
  · rw [settle_of_due interval due, truncate_of_small nonneg short]
    rfl
  · rw [settle_of_early early]

theorem length_settle_lt (interval : bucket.config.drainIntervalMs ≠ 0)
    (due : bucket.config.drainIntervalMs ≤ (mono - bucket.lastDrain) * 1000)
    (long : 1 ≤ (mono - bucket.lastDrain) * 1000 * bucket.config.rate)
    (filled : 0 < bucket.queue.length) :
    (bucket.settle mono).queue.length < bucket.queue.length := by
  have amount : 1 ≤ truncate ((mono - bucket.lastDrain) * 1000 * bucket.config.rate) := by
    rw [truncate, if_neg (by linarith)]
    exact le_floor.mpr (by exact_mod_cast long)
  rw [settle_of_due interval due, length_drop]
  omega

/-- An addition after a read that has come too early for an entry to leave: the time until then
does not count. -/
theorem not_readsSilently_of_early (interval : config.drainIntervalMs ≠ 0)
    (opened : 0 < config.maxQueueDepth) (pays : 0 < config.rate)
    (slow : config.drainIntervalMs < 1 / config.rate) : ¬ ReadsSilently config := by
  rcases fill_start interval opened with ⟨last, queue, filled, full⟩
  obtain ⟨pause, due, positive, early⟩ :
      ∃ pause, config.drainIntervalMs ≤ pause ∧ 0 < pause ∧ pause < 1 / config.rate := by
    have wait : 0 < 1 / config.rate := by positivity
    refine ⟨max config.drainIntervalMs (1 / config.rate / 2), le_max_left _ _, ?_, ?_⟩
    · exact lt_max_of_lt_right (by linarith)
    · exact max_lt slow (by linarith)
  obtain ⟨wait, isWait⟩ : ∃ wait, wait = 1 / config.rate := ⟨_, rfl⟩
  have whole : wait * config.rate = 1 := by rw [isWait, one_div_mul_cancel pays.ne']
  rw [← isWait] at early slow
  have part : pause * config.rate < 1 := by
    rw [← whole]
    exact mul_lt_mul_of_pos_right early pays
  have rest : (wait - pause) * config.rate < 1 := by linarith [mul_pos positive pays]
  have read : step (last, ⟨config, queue, 0⟩) (pause / 1000, .queueDepth) =
      (pause / 1000, ⟨config, queue, pause / 1000⟩) := by
    rw [step, perform_queueDepth interval, settle_of_due interval (by simpa using due),
      truncate_of_small]
    · rfl
    · simpa using (mul_pos positive pays).le
    · simpa using part
  have leaves : ((⟨config, queue, 0⟩ : LeakyBucketState).settle (wait / 1000)).queue.length <
      queue.length := by
    apply length_settle_lt interval
    · simpa using slow.le
    · simp [whole]
    · show 0 < queue.length
      omega
  apply not_readsSilently
    (additions 0 config.maxQueueDepth.toNat ++ [(pause / 1000, .queueDepth)])
    (wait / 1000, .tryAdd 1)
  · apply along_inOrder
    have first : 0 ≤ pause / 1000 := by positivity
    have second : pause / 1000 ≤ wait / 1000 := by gcongr
    simp [additions, start, pairwise_append, first, second, first.trans second, or_imp, forall_and]
  · rfl
  · rw [filter_append, filter_additions, run_append, run_append, filled]
    change answer (step _ _) _ ≠ answer (last, _) _
    rw [read, answer_tryAdd interval, answer_tryAdd interval, queue_settle_of_short interval]
    · have stays : ¬ (queue.length : ℤ) < config.maxQueueDepth := by omega
      have goes :
          (((⟨config, queue, 0⟩ : LeakyBucketState).settle (wait / 1000)).queue.length : ℤ) <
            config.maxQueueDepth := by omega
      simp [stays, goes]
    · have nonneg : 0 ≤ (wait - pause) * config.rate :=
        mul_nonneg (sub_nonneg.mpr early.le) pays.le
      simpa [← sub_div] using nonneg
    · simpa [← sub_div] using rest

theorem not_readsSilently_of_late (opened : 0 < config.maxQueueDepth) (pays : 0 < config.rate)
    (fast : 1 / config.rate ≤ config.drainIntervalMs) : ¬ ReadsSilently config := by
  have positive : 0 < config.drainIntervalMs := by
    have wait : 0 < 1 / config.rate := by positivity
    linarith
  have interval := positive.ne'
  have whole : 1 ≤ config.drainIntervalMs * config.rate := by
    rw [div_le_iff₀ pays] at fast
    exact fast
  obtain ⟨reading, adding, ending, forward, next, final, atReading, early, due, atEnding, late⟩ :
      ∃ reading adding ending : ℚ, 0 ≤ reading ∧ reading ≤ adding ∧ adding ≤ ending ∧
        reading * 1000 = config.drainIntervalMs ∧
        (adding - reading) * 1000 < config.drainIntervalMs ∧
        config.drainIntervalMs ≤ adding * 1000 ∧
        (ending - reading) * 1000 = config.drainIntervalMs ∧
        (ending - adding) * 1000 < config.drainIntervalMs := by
    refine ⟨config.drainIntervalMs / 1000, 3 * config.drainIntervalMs / 2000,
      config.drainIntervalMs / 500, ?_, ?_, ?_, ?_, ?_, ?_, ?_, ?_⟩ <;> linarith
  rcases fill_start interval opened with ⟨last, queue, filled, full⟩
  -- With the read the clock of the bucket is at the end of the first interval.
  obtain ⟨rest, fewer, read⟩ : ∃ rest : List ℚ, rest.length ≤ queue.length ∧
      step (last, ⟨config, queue, 0⟩) (reading, .queueDepth) =
        (reading, ⟨config, rest, reading⟩) := by
    refine ⟨queue.drop (truncate ((reading - 0) * 1000 * config.rate)).toNat, by simp, ?_⟩
    rw [step, perform_queueDepth interval, settle_of_due interval]
    rw [sub_zero, atReading]
  have fits : (rest.length : ℤ) ≤ config.maxQueueDepth := by omega
  rcases fill ⟨config, rest, reading⟩ interval fits opened reading adding with
    ⟨after, refilled, refills, isFull⟩
  have waits : (⟨config, rest, reading⟩ : LeakyBucketState).settle adding =
      ⟨config, rest, reading⟩ :=
    settle_of_early early
  rw [waits] at refills
  -- Without it the clock is at the later additions.
  rcases fill ⟨config, queue, 0⟩ interval full.le opened last adding with
    ⟨after', refilled', refills', isFull'⟩
  rw [settle_of_due interval (by rw [sub_zero]; exact due)] at refills'
  have leaves : ((⟨config, refilled, reading⟩ : LeakyBucketState).settle ending).queue.length <
      refilled.length := by
    apply length_settle_lt interval
    · exact atEnding.ge
    · show 1 ≤ (ending - reading) * 1000 * config.rate
      rw [atEnding]
      exact whole
    · show 0 < refilled.length
      dsimp only at isFull
      omega
  have stays : (⟨config, refilled', adding⟩ : LeakyBucketState).settle ending =
      ⟨config, refilled', adding⟩ :=
    settle_of_early late
  apply not_readsSilently
    (additions 0 config.maxQueueDepth.toNat ++ (reading, .queueDepth) ::
      additions adding config.maxQueueDepth.toNat)
    (ending, .tryAdd 1)
  · apply along_inOrder
    have second := forward.trans next
    simp [additions, start, pairwise_append, forward, next, final, second, second.trans final,
      next.trans final, or_imp, forall_and]
  · rfl
  · rw [filter_append, filter_additions, run_append, run_append, filled, run_cons, read]
    change answer (run _ _ (additions _ _)) _ ≠
      answer (run step (last, _) (.filter adds (additions _ _))) _
    have room : ((((⟨config, refilled, reading⟩ : LeakyBucketState).settle ending).queue.length :
        ℕ) : ℤ) < config.maxQueueDepth := by
      dsimp only at isFull
      omega
    have filledUp : ¬ (refilled'.length : ℤ) < config.maxQueueDepth := by
      dsimp only at isFull'
      omega
    rw [filter_additions, refills, refills', answer_tryAdd interval, answer_tryAdd interval, stays]
    simp [room, filledUp]

/-- One place, and an entry leaves every two seconds. -/
def slowBucket : LeakyBucket where
  drainRate := 1 / 2
  drainIntervalMs := 1000
  maxQueueDepth := 1

end LeakyBucketState

end AgenticOS.OmniRoute
