import Mathlib.Data.List.DropRight
import AgenticOS.OmniRoute.CircuitBreaker.Recovery

/-!
# The failure rate at which a circuit opens

The rate is computed from two windows that hold ten times each, whatever the configured size of
the window is. A window that has dropped failures shows a rate that is too low. One that has
dropped successes of the last minute shows one that is too high, so that a provider which is
called often opens its circuit at any rate of failures.
-/

namespace AgenticOS.OmniRoute

open AgenticOS.Transition List

namespace SlidingWindow

theorem add_rtake (times : List ℚ) (value : ℚ) :
    add (times.rtake maxSize) value = (times ++ [value]).rtake maxSize := by
  simp only [add, List.rtake, length_drop, length_append, length_singleton]
  by_cases full : maxSize ≤ times.length
  · have dropped : times.length - (times.length - maxSize) + 1 - maxSize = 1 := by omega
    have later : times.length + 1 - maxSize = times.length - maxSize + 1 := by omega
    have kept : (times ++ [value]).drop (times.length - maxSize) =
        times.drop (times.length - maxSize) ++ [value] :=
      drop_append_of_le_length (Nat.sub_le _ _)
    rw [dropped, later, ← drop_drop, kept]
  · have none : times.length - maxSize = 0 := by omega
    have short : times.length - 0 + 1 - maxSize = 0 := by omega
    have kept : times.length + 1 - maxSize = 0 := by omega
    simp only [none, short, kept, drop_zero]

theorem length_rtake_le (times : List ℚ) : (times.rtake maxSize).length ≤ 10 := by
  simp only [List.rtake, length_drop, maxSize]
  omega

/-- Of the entries that satisfy a property which the later ones keep, the last `n` entries hold
`n` unless there are fewer. -/
theorem countP_rtake {α : Type*} {p : α → Bool} {entries : List α} (n : ℕ)
    (keeps : entries.Pairwise fun before after => p before = true → p after = true) :
    (entries.rtake n).countP p = min n (entries.countP p) := by
  have split : entries.take (entries.length - n) ++ entries.rtake n = entries :=
    take_append_drop _ entries
  have parts : entries.countP p =
      (entries.take (entries.length - n)).countP p + (entries.rtake n).countP p := by
    rw [← countP_append, split]
  have length : (entries.rtake n).length = min n entries.length := by
    simp only [List.rtake, length_drop]
    omega
  have bounded : (entries.rtake n).countP p ≤ (entries.rtake n).length := countP_le_length
  by_cases early : (entries.take (entries.length - n)).countP p = 0
  · omega
  · rcases countP_pos_iff.mp (Nat.pos_of_ne_zero early) with ⟨entry, member, holds⟩
    have long := length_pos_of_mem member
    rw [length_take] at long
    rw [← split, pairwise_append] at keeps
    have all : (entries.rtake n).countP p = (entries.rtake n).length :=
      countP_eq_length.mpr fun later isLater => keeps.2.2 entry member later isLater holds
    omega

theorem add_replicate (count : ℕ) (value : ℚ) : add (List.replicate (min 10 count) value) value =
      List.replicate (min 10 (count + 1)) value := by
  rw [add, ← replicate_succ', drop_replicate, length_replicate, maxSize]
  congr 1
  omega

theorem countInWindow_replicate (count : ℕ) (value : ℚ) :
    countInWindow (List.replicate count value) value 60 = count := by
  simp [countInWindow, countP_replicate]

end SlidingWindow

open SlidingWindow

namespace ProviderState

variable {circuit : ProviderState} {instant : Instant} {now : Timestamp}
  {operation : Operation} {toState : FailoverState}

section

variable (circuit : ProviderState) (now : Timestamp)

@[simp]
theorem successesWindow_moveTo (toState : FailoverState) :
    (circuit.moveTo now toState).successesWindow = circuit.successesWindow := by
  rw [moveTo]
  split
  · rfl
  · cases toState with
    | closed | idle | retrying | failingOver | circuitOpen | circuitHalfOpen | recovered => rfl

theorem failuresWindow_moveTo (toState : FailoverState) :
    (circuit.moveTo now toState).failuresWindow =
      if circuit.state ≠ .closed ∧ toState = .closed then [] else circuit.failuresWindow := by
  rw [moveTo]
  by_cases same : circuit.state = toState
  · rw [if_pos same, if_neg fun both => both.1 (same.trans both.2)]
  · rw [if_neg same]
    cases toState with
    | closed => exact (if_pos ⟨same, rfl⟩).symm
    | idle | retrying | failingOver | circuitOpen | circuitHalfOpen | recovered => simp

theorem consecutiveFailures_trip :
    (circuit.moveTo now .circuitOpen).consecutiveFailures = circuit.consecutiveFailures := by
  rw [moveTo]
  split
  · rfl
  · rfl

theorem windows_asked : (circuit.asked now).successesWindow = circuit.successesWindow ∧
      (circuit.asked now).failuresWindow = circuit.failuresWindow := by
  by_cases admitted : circuit.admits now
  · by_cases isOpen : circuit.state = .circuitOpen
    · rw [asked_of_open isOpen admitted, failuresWindow_moveTo]
      simp
    · by_cases half : circuit.state = .circuitHalfOpen
      · rw [asked_of_halfOpen half admitted]
        exact ⟨rfl, rfl⟩
      · rw [asked_of_other isOpen half]
        exact ⟨rfl, rfl⟩
  · rw [asked_of_refused admitted]
    exact ⟨rfl, rfl⟩

end

def closes (circuit : ProviderState) (instant : Instant) (operation : Operation) : Prop :=
  operation = .reset ∨ circuit.state ≠ .closed ∧ (circuit.perform instant operation).state = .closed
deriving Decidable

section

variable (circuit : ProviderState) (instant : Instant)

theorem not_closes_allowRequest : ¬ circuit.closes instant .allowRequest := by
  rintro (reset | ⟨before, after⟩)
  · cases reset
  · change (circuit.asked instant.now).state = .closed at after
    rcases changes_asked circuit instant with
      ⟨same, -⟩ | ⟨-, -, -, state, -⟩ | ⟨-, state, -⟩ | ⟨-, state, -⟩ | ⟨-, cause⟩
    · exact before (same.symm.trans after)
    · rw [after] at state
      cases state
    · rw [after] at state
      cases state
    · rw [after] at state
      cases state
    · simp at cause

theorem failuresWindow_perform (operation : Operation) :
    (circuit.perform instant operation).failuresWindow =
      if circuit.closes instant operation then []
      else if operation = .recordFailure then circuit.failuresWindow.add instant.mono
      else circuit.failuresWindow := by
  cases operation with
  | allowRequest =>
    rw [if_neg (not_closes_allowRequest circuit instant)]
    exact (windows_asked circuit instant.now).2
  | recordSuccess =>
    simp only [closes, perform]
    split
    next enough =>
      have half : circuit.state = .circuitHalfOpen := enough.1
      simp [failuresWindow_moveTo, succeeded, half]
    · simp [succeeded]
  | recordFailure =>
    simp only [closes, perform]
    split
    · simp [failuresWindow_moveTo, failed]
    · simp [failed]
  | reset => simp [closes, perform]
  | trip | halfOpen | close => simp [closes, perform, failuresWindow_moveTo]

theorem successesWindow_perform (operation : Operation) :
    (circuit.perform instant operation).successesWindow =
      if operation = .reset then []
      else if operation = .recordSuccess then circuit.successesWindow.add instant.mono
      else circuit.successesWindow := by
  cases operation with
  | allowRequest => exact (windows_asked circuit instant.now).1
  | recordSuccess =>
    simp only [perform]
    split
    · simp [succeeded]
    · simp [succeeded]
  | recordFailure =>
    simp only [perform]
    split
    · simp [failed]
    · simp [failed]
  | reset | trip | halfOpen | close => simp [perform]

end

theorem rate_of_shouldTrip {mono : ℚ} (trips : circuit.shouldTrip mono = true)
    (few : (circuit.consecutiveFailures : ℤ) < circuit.config.failureThreshold) :
    circuit.failuresWindow.full = true ∧
      circuit.config.minimumRequestCount ≤ circuit.failuresWindow.countInWindow mono 60 +
          circuit.successesWindow.countInWindow mono 60 ∧
      (circuit.config.failureThreshold : ℚ) / max circuit.config.slidingWindowSize 1 ≤
        circuit.failuresWindow.countInWindow mono 60 /
          max ((circuit.failuresWindow.countInWindow mono 60 +
            circuit.successesWindow.countInWindow mono 60 : ℕ) : ℚ) 1 ∧
      circuit.config.failureThreshold ≤ circuit.failuresWindow.countInWindow mono 60 := by
  unfold shouldTrip at trips
  rw [if_neg (not_le.mpr few)] at trips
  split at trips
  · cases trips
  · split at trips
    next isFull => simpa [isFull] using trips
    · cases trips

theorem shouldTrip_of_opens (closed : circuit.state = .closed)
    (opens : (circuit.perform instant .recordFailure).state = .circuitOpen) :
    (circuit.failed instant).shouldTrip instant.mono = true ∧
      (circuit.perform instant .recordFailure).consecutiveFailures =
        circuit.consecutiveFailures + 1 := by
  have counted : (circuit.failed instant).state = .closed := closed
  by_cases trips : (circuit.failed instant).shouldTrip instant.mono = true
  · have cause : circuit.TripsOn instant := .inl ⟨counted, trips⟩
    refine ⟨trips, ?_⟩
    simp only [perform]
    rw [if_pos cause, consecutiveFailures_trip]
    rfl
  · simp [perform, TripsOn, counted, trips] at opens

end ProviderState

open ProviderState

/-- The outcome of a request, with the time on the monotonic clock at which it is recorded. -/
structure CircuitOutcome where
  mono : ℚ
  failed : Bool

namespace CircuitOutcome

/-- The times of the failures, or of the successes. -/
def times (failed : Bool) (outcomes : List CircuitOutcome) : List ℚ :=
  (outcomes.filter fun outcome => outcome.failed = failed).map mono

/-- The outcomes of the last minute. -/
def recent (now : ℚ) (outcomes : List CircuitOutcome) : List CircuitOutcome :=
  outcomes.filter fun outcome => now - outcome.mono < 60

/-- The ratio of the failures to all outcomes of the last minute. -/
def failureRate (now : ℚ) (outcomes : List CircuitOutcome) : ℚ :=
  ((recent now outcomes).countP fun outcome => outcome.failed) / (recent now outcomes).length

@[simp]
theorem times_nil (failed : Bool) : times failed [] = [] :=
  rfl

@[simp]
theorem times_append (failed : Bool) (first second : List CircuitOutcome) :
    times failed (first ++ second) = times failed first ++ times failed second := by
  simp [times]

theorem times_singleton (failed : Bool) (outcome : CircuitOutcome) :
    times failed [outcome] = if outcome.failed = failed then [outcome.mono] else [] := by
  by_cases same : outcome.failed = failed
  · simp [times, same]
  · simp [times, same]

theorem failureRate_eq (now : ℚ) (outcomes : List CircuitOutcome) : failureRate now outcomes =
      SlidingWindow.countInWindow (times true outcomes) now 60 /
        (SlidingWindow.countInWindow (times true outcomes) now 60 +
          SlidingWindow.countInWindow (times false outcomes) now 60 : ℕ) := by
  have failures : SlidingWindow.countInWindow (times true outcomes) now 60 =
      (recent now outcomes).countP fun outcome => outcome.failed := by
    simp [SlidingWindow.countInWindow, times, recent, countP_map, countP_filter,
      Function.comp_def, Bool.and_comm]
  have successes : SlidingWindow.countInWindow (times false outcomes) now 60 =
      (recent now outcomes).countP fun outcome => ¬ outcome.failed := by
    simp [SlidingWindow.countInWindow, times, recent, countP_map, countP_filter,
      Function.comp_def, Bool.and_comm]
  have all := length_eq_countP_add_countP (fun outcome : CircuitOutcome => outcome.failed)
    (l := recent now outcomes)
  rw [failureRate, failures, successes, ← all]

end CircuitOutcome

open CircuitOutcome

namespace CircuitBreakerEngineImpl

variable {engine : CircuitBreakerEngineImpl} {provider : String} {config : CircuitBreakerConfig}

/-- The time of a call on the monotonic clock. -/
def Call.mono? : Call → Option ℚ
  | .on call => some call.instant.mono
  | .start | .stop | .dispose => none

/-- The monotonic clock does not go back. -/
def Steady (calls : List Call) : Prop :=
  (calls.filterMap Call.mono?).Pairwise (· ≤ ·)

def recorded (provider : String) (engine : CircuitBreakerEngineImpl) : Call → List CircuitOutcome
  | .on call =>
    if call.provider = provider ∧ engine.Hears call then
      match call.operation with
      | .recordSuccess => [⟨call.instant.mono, false⟩]
      | .recordFailure => [⟨call.instant.mono, true⟩]
      | .allowRequest | .reset | .trip | .halfOpen | .close => []
    else []
  | .start | .stop | .dispose => []

def Closes (provider : String) (engine : CircuitBreakerEngineImpl) : Call → Prop
  | .on call => call.provider = provider ∧ engine.Hears call ∧
      (engine.circuit provider).closes call.instant call.operation
  | .dispose => True
  | .start | .stop => False

instance : (call : Call) → Decidable (Closes provider engine call)
  | .on _ => inferInstanceAs (Decidable (_ ∧ _ ∧ _))
  | .dispose => inferInstanceAs (Decidable True)
  | .start | .stop => inferInstanceAs (Decidable False)

end CircuitBreakerEngineImpl

/-- An engine, with the outcomes that were recorded for a provider since its circuit last
closed. -/
structure Watched where
  engine : CircuitBreakerEngineImpl
  outcomes : List CircuitOutcome := []

namespace Watched

open CircuitBreakerEngineImpl

variable {watched : Watched} {provider : String} {config : CircuitBreakerConfig} {before : List ℚ}

def step (provider : String) (watched : Watched) (call : Call) : Watched where
  engine := watched.engine.step call
  outcomes :=
    if Closes provider watched.engine call then []
    else watched.outcomes ++ recorded provider watched.engine call

/-- A failure that opens the closed circuit of the provider before there are enough failures in
a row. -/
def RateTrip (provider : String) (watched : Watched) (call : ProviderCall) : Prop :=
  let after := (watched.engine.perform call).circuit provider
  call.provider = provider ∧ call.operation = .recordFailure ∧
    (watched.engine.circuit provider).state = .closed ∧ after.state = .circuitOpen ∧
    after.consecutiveFailures < after.config.failureThreshold
deriving Decidable

/-- Where the circuit opens by the rate of its failures, it is this high among the outcomes of
the last minute since the circuit last closed. -/
def RateMet (provider : String) (watched : Watched) : Call → Prop
  | .on call => RateTrip provider watched call →
      let config := (watched.engine.circuit provider).config
      (config.failureThreshold : ℚ) / max config.slidingWindowSize 1 ≤
        CircuitOutcome.failureRate call.instant.mono
          (watched.outcomes ++ recorded provider watched.engine (.on call))
  | .start | .stop | .dispose => True

instance : (call : Call) → Decidable (RateMet provider watched call)
  | .on _ => inferInstanceAs (Decidable (_ → _))
  | .start | .stop | .dispose => inferInstanceAs (Decidable True)

/-- A failure finds the circuit closed, and no more successes in the last minute since it last
closed than the window holds. -/
def FewSuccesses (provider : String) (watched : Watched) : Call → Prop
  | .on call => call.provider = provider → call.operation = .recordFailure →
      (watched.engine.circuit provider).state = .closed →
      SlidingWindow.countInWindow (CircuitOutcome.times false watched.outcomes) call.instant.mono 60
        ≤ SlidingWindow.maxSize
  | .start | .stop | .dispose => True

instance : (call : Call) → Decidable (FewSuccesses provider watched call)
  | .on _ => inferInstanceAs (Decidable (_ → _ → _ → _))
  | .start | .stop | .dispose => inferInstanceAs (Decidable True)

/-- The windows of the circuit hold the last outcomes; the successes are not forgotten when the
circuit closes. -/
structure Tracks (config : CircuitBreakerConfig) (provider : String) (before : List ℚ)
    (watched : Watched) : Prop where
  configured : Configured config watched.engine
  failures : (watched.engine.circuit provider).failuresWindow =
    (CircuitOutcome.times true watched.outcomes).rtake SlidingWindow.maxSize
  successes : (watched.engine.circuit provider).successesWindow =
    (before ++ CircuitOutcome.times false watched.outcomes).rtake SlidingWindow.maxSize

theorem tracks_create (config : CircuitBreakerConfig) (provider : String) :
    Tracks config provider [] ⟨create config, []⟩ :=
  ⟨configured_create config, rfl, rfl⟩

variable {call : ProviderCall}

section

variable (reached : call.provider = provider ∧ watched.engine.Hears call)
include reached

theorem times_false_recorded :
    CircuitOutcome.times false (recorded provider watched.engine (.on call)) =
      if call.operation = .recordSuccess then [call.instant.mono] else [] := by
  rw [recorded, if_pos reached]
  cases call.operation with
  | recordSuccess | recordFailure => simp [times_singleton]
  | allowRequest | reset | trip | halfOpen | close => rfl

theorem times_true_recorded :
    CircuitOutcome.times true (recorded provider watched.engine (.on call)) =
      if call.operation = .recordFailure then [call.instant.mono] else [] := by
  rw [recorded, if_pos reached]
  cases call.operation with
  | recordSuccess | recordFailure => simp [times_singleton]
  | allowRequest | reset | trip | halfOpen | close => rfl

end

section

variable (tracks : Tracks config provider before watched)
  (reached : call.provider = provider ∧ watched.engine.Hears call)
include tracks reached

theorem Tracks.failures_step :
    ((watched.engine.step (.on call)).circuit provider).failuresWindow =
      if (watched.engine.circuit provider).closes call.instant call.operation then []
      else (CircuitOutcome.times true
        (watched.outcomes ++ recorded provider watched.engine (.on call))).rtake
          SlidingWindow.maxSize := by
  rw [circuit_step_on, if_pos reached, failuresWindow_perform, tracks.failures,
    add_rtake, times_append, times_true_recorded reached]
  by_cases failure : call.operation = .recordFailure
  · rw [if_pos failure, if_pos failure]
  · rw [if_neg failure, if_neg failure, append_nil]

theorem Tracks.successes_step :
    ((watched.engine.step (.on call)).circuit provider).successesWindow =
      if call.operation = .reset then []
      else (before ++ CircuitOutcome.times false
        (watched.outcomes ++ recorded provider watched.engine (.on call))).rtake
          SlidingWindow.maxSize := by
  rw [circuit_step_on, if_pos reached, successesWindow_perform, tracks.successes,
    add_rtake, times_append, times_false_recorded reached]
  by_cases success : call.operation = .recordSuccess
  · rw [if_pos success, if_pos success, append_assoc]
  · rw [if_neg success, if_neg success, append_nil]

end

theorem outcomes_step_of_not_reached
    (elsewhere : ¬ (call.provider = provider ∧ watched.engine.Hears call)) :
    (watched.step provider (.on call)).outcomes = watched.outcomes := by
  have stays : ¬ Closes provider watched.engine (.on call) :=
    fun closes => elsewhere ⟨closes.1, closes.2.1⟩
  simp [Watched.step, stays, recorded, elsewhere]

theorem Tracks.step (tracks : Tracks config provider before watched) (call : Call) :
    ∃ after, Tracks config provider after (watched.step provider call) ∧
      (after ++ CircuitOutcome.times false (watched.step provider call).outcomes).Sublist
        (before ++ CircuitOutcome.times false watched.outcomes ++ call.mono?.toList) := by
  have configured := tracks.configured.step call
  cases call with
  | on call =>
    by_cases reached : call.provider = provider ∧ watched.engine.Hears call
    · have failures := tracks.failures_step reached
      have successes := tracks.successes_step reached
      have grows : (before ++ CircuitOutcome.times false
          (watched.outcomes ++ recorded provider watched.engine (.on call))).Sublist
          (before ++ CircuitOutcome.times false watched.outcomes ++ [call.instant.mono]) := by
        rw [times_append, times_false_recorded reached, append_assoc]
        split
        · exact .refl _
        · simp
      by_cases closes : (watched.engine.circuit provider).closes call.instant call.operation
      · have next : watched.step provider (.on call) = ⟨watched.engine.step (.on call), []⟩ := by
          simp [Watched.step, Closes, reached, closes]
        rw [if_pos closes] at failures
        rw [next]
        by_cases reset : call.operation = .reset
        · rw [if_pos reset] at successes
          exact ⟨[], ⟨configured, failures, successes⟩, nil_sublist _⟩
        · rw [if_neg reset, ← append_nil (before ++ _)] at successes
          refine ⟨_, ⟨configured, failures, successes⟩, ?_⟩
          change (_ ++ []).Sublist _
          rw [append_nil]
          exact grows
      · have next : watched.step provider (.on call) = ⟨watched.engine.step (.on call),
            watched.outcomes ++ recorded provider watched.engine (.on call)⟩ := by
          simp [Watched.step, Closes, closes]
        rw [if_neg closes] at failures
        rw [if_neg fun reset => closes (.inl reset)] at successes
        rw [next]
        exact ⟨before, ⟨configured, failures, successes⟩, grows⟩
    · have same := outcomes_step_of_not_reached reached
      have circuit := circuit_step_on watched.engine call provider
      rw [if_neg reached] at circuit
      refine ⟨before, ⟨configured, ?_, ?_⟩, ?_⟩
      · rw [same, ← tracks.failures]
        exact congrArg ProviderState.failuresWindow circuit
      · rw [same, ← tracks.successes]
        exact congrArg ProviderState.successesWindow circuit
      · rw [same]
        exact sublist_append_left _ _
  | start | stop =>
    refine ⟨before, ⟨configured, ?_, ?_⟩, ?_⟩
    · simp only [Watched.step, Closes, recorded, if_false, append_nil]
      exact tracks.failures
    · simp only [Watched.step, Closes, recorded, if_false, append_nil]
      exact tracks.successes
    · simp [Watched.step, Closes, recorded, Call.mono?]
  | dispose => exact ⟨[], ⟨configured, rfl, rfl⟩, nil_sublist _⟩

/-- What the windows show when the circuit opens by the rate: they hold ten times each, and no
success of the last minute is missing unless there are more. -/
theorem Tracks.shown (tracks : Tracks config provider before watched)
    (sorted : (before ++ CircuitOutcome.times false watched.outcomes).Pairwise (· ≤ ·))
    (trip : RateTrip provider watched call) :
    ∃ failures successes : ℕ, failures ≤ 10 ∧ successes ≤ 10 ∧
      failures ≤ SlidingWindow.countInWindow (CircuitOutcome.times true
        (watched.outcomes ++ recorded provider watched.engine (.on call))) call.instant.mono 60 ∧
      min 10 (SlidingWindow.countInWindow (CircuitOutcome.times false
        (watched.outcomes ++ recorded provider watched.engine (.on call))) call.instant.mono 60) ≤
          successes ∧
      1 < config.failureThreshold ∧ config.failureThreshold ≤ failures ∧
      config.minimumRequestCount ≤ failures + successes ∧
      (config.failureThreshold : ℚ) / max config.slidingWindowSize 1 ≤
        failures / (failures + successes : ℕ) := by
  rcases trip with ⟨concerned, failure, closed, opens, few⟩
  have circuit := circuit_step_on watched.engine call provider
  by_cases reached : call.provider = provider ∧ watched.engine.Hears call
  · have configured := tracks.configured.config provider
    have heardFailure := times_true_recorded reached
    have heardSuccess := times_false_recorded reached
    rw [if_pos failure] at heardFailure
    rw [if_neg (by simp [failure])] at heardSuccess
    rw [if_pos reached, failure] at circuit
    change (watched.engine.perform call).circuit provider = _ at circuit
    rw [circuit] at opens few
    rcases shouldTrip_of_opens closed opens with ⟨trips, row⟩
    rw [row, config_perform] at few
    have shows := rate_of_shouldTrip trips few
    have failures : ((watched.engine.circuit provider).failed call.instant).failuresWindow =
        (CircuitOutcome.times true
          (watched.outcomes ++ recorded provider watched.engine (.on call))).rtake
            SlidingWindow.maxSize := by
      rw [times_append, heardFailure, ← add_rtake, ← tracks.failures]
      rfl
    have successes : ((watched.engine.circuit provider).failed call.instant).successesWindow =
        (before ++ CircuitOutcome.times false watched.outcomes).rtake SlidingWindow.maxSize :=
      tracks.successes
    have parameters : ((watched.engine.circuit provider).failed call.instant).config = config :=
      configured
    rw [failures, successes, parameters] at shows
    rw [configured] at few
    rw [times_append false, heardSuccess, append_nil]
    have keeps : (before ++ CircuitOutcome.times false watched.outcomes).Pairwise
        fun earlier later => decide (call.instant.mono - earlier < 60) = true →
          decide (call.instant.mono - later < 60) = true := by
      refine sorted.imp ?_
      intro earlier later ordered isRecent
      rw [decide_eq_true_eq] at isRecent ⊢
      linarith
    have kept := countP_rtake SlidingWindow.maxSize keeps
    rw [countP_append] at kept
    change SlidingWindow.countInWindow _ call.instant.mono 60 = min 10 (_ +
      SlidingWindow.countInWindow (CircuitOutcome.times false watched.outcomes) _ 60) at kept
    refine ⟨_, _, ?_, ?_, ?_, ?_, ?_, shows.2.2.2, shows.2.1, ?_⟩
    · exact countP_le_length.trans (length_rtake_le _)
    · exact countP_le_length.trans (length_rtake_le _)
    · exact (drop_sublist _ _).countP_le
    · omega
    · omega
    · have positive : (1 : ℚ) ≤ (SlidingWindow.countInWindow ((CircuitOutcome.times true
          (watched.outcomes ++ recorded provider watched.engine (.on call))).rtake
            SlidingWindow.maxSize) call.instant.mono 60 +
          SlidingWindow.countInWindow ((before ++ CircuitOutcome.times false
            watched.outcomes).rtake SlidingWindow.maxSize) call.instant.mono 60 : ℕ) := by
        rw [← Nat.cast_one, Nat.cast_le]
        omega
      have rate := shows.2.2.1
      rw [max_eq_left positive] at rate
      exact rate
  · rw [if_neg reached] at circuit
    change (watched.engine.perform call).circuit provider = _ at circuit
    rw [circuit, closed] at opens
    cases opens

theorem rate_le_rate {failures successes allFailures allSuccesses : ℕ} (some_ : 0 < failures)
    (more : failures ≤ allFailures) (fewer : allSuccesses ≤ successes) :
    (failures : ℚ) / (failures + successes : ℕ) ≤
      allFailures / (allFailures + allSuccesses : ℕ) := by
  have positive : (0 : ℚ) < (failures + successes : ℕ) := by
    rw [Nat.cast_pos]
    omega
  have allPositive : (0 : ℚ) < (allFailures + allSuccesses : ℕ) := by
    rw [Nat.cast_pos]
    omega
  have mixed := Nat.mul_le_mul more fewer
  rw [div_le_div_iff₀ positive allPositive]
  norm_cast
  rw [Nat.mul_add, Nat.mul_add, Nat.mul_comm allFailures failures]
  omega

theorem times_false_of_failure (failure : call.operation = .recordFailure) :
    CircuitOutcome.times false (watched.outcomes ++ recorded provider watched.engine (.on call)) =
      CircuitOutcome.times false watched.outcomes := by
  by_cases reached : call.provider = provider ∧ watched.engine.Hears call
  · rw [times_append, times_false_recorded reached, if_neg (by simp [failure]),
      append_nil]
  · simp [recorded, reached]

theorem Tracks.rateMet (tracks : Tracks config provider before watched)
    (sorted : (before ++ CircuitOutcome.times false watched.outcomes).Pairwise (· ≤ ·))
    {call : Call} (few : FewSuccesses provider watched call) : RateMet provider watched call := by
  cases call with
  | on call =>
    intro trip
    rcases tracks.shown sorted trip with
      ⟨failures, successes, -, -, more, fewer, several, many, -, rate⟩
    rw [tracks.configured.config provider, failureRate_eq]
    have kept := few trip.1 trip.2.1 trip.2.2.1
    rw [← times_false_of_failure trip.2.1, SlidingWindow.maxSize] at kept
    rw [min_eq_right kept] at fewer
    exact rate.trans (rate_le_rate (by omega) more fewer)
  | start | stop | dispose => trivial

/-- The parameters with which no circuit opens at a rate that is too low: the rate is never
used, or it is above one half. -/
def RateSafe (config : CircuitBreakerConfig) : Prop :=
  config.failureThreshold ≤ 1 ∨ 10 < config.failureThreshold ∨
    20 < config.minimumRequestCount ∨
    max config.slidingWindowSize 1 < 2 * config.failureThreshold
deriving Decidable

theorem Tracks.rateMet_of_safe (tracks : Tracks config provider before watched)
    (sorted : (before ++ CircuitOutcome.times false watched.outcomes).Pairwise (· ≤ ·))
    (safe : RateSafe config) (call : Call) : RateMet provider watched call := by
  cases call with
  | on call =>
    intro trip
    by_cases few : FewSuccesses provider watched (.on call)
    · exact tracks.rateMet sorted few trip
    · rcases tracks.shown sorted trip with
        ⟨failures, successes, least, most, -, fewer, several, many, enough, rate⟩
      have dropped : ¬ SlidingWindow.countInWindow (CircuitOutcome.times false watched.outcomes)
          call.instant.mono 60 ≤ 10 := fun kept => few fun _ _ _ => kept
      rw [times_false_of_failure trip.2.1, min_eq_left (le_of_not_ge dropped)] at fewer
      have full : successes = 10 := le_antisymm most fewer
      have size : (0 : ℚ) < max config.slidingWindowSize 1 := by
        rw [Int.cast_pos]
        omega
      have total : (0 : ℚ) < (failures + successes : ℕ) := by
        rw [Nat.cast_pos]
        omega
      rw [div_le_div_iff₀ size total, full] at rate
      have narrow : max config.slidingWindowSize 1 < 2 * config.failureThreshold := by
        rcases safe with small | large | hidden | narrow
        · omega
        · omega
        · omega
        · exact narrow
      have strict : config.failureThreshold * ((failures : ℤ) + 10) <
          config.failureThreshold * (2 * failures) := by
        calc config.failureThreshold * ((failures : ℤ) + 10)
            ≤ failures * max config.slidingWindowSize 1 := by exact_mod_cast rate
          _ < failures * (2 * config.failureThreshold) :=
              mul_lt_mul_of_pos_left narrow (by omega)
          _ = config.failureThreshold * (2 * failures) := by ring
      have above := lt_of_mul_lt_mul_left strict (by omega)
      omega
  | start | stop | dispose => trivial

theorem Tracks.along {guard : Watched → Call → Prop}
    (meets : ∀ {before watched call}, Tracks config provider before watched →
      (before ++ CircuitOutcome.times false watched.outcomes).Pairwise (· ≤ ·) →
      guard watched call → RateMet provider watched call)
    {calls : List Call} (tracks : Tracks config provider before watched)
    (steady : (before ++ CircuitOutcome.times false watched.outcomes ++
      calls.filterMap Call.mono?).Pairwise (· ≤ ·))
    (along : Along (Watched.step provider) guard watched calls) :
    Along (Watched.step provider) (RateMet provider) watched calls := by
  induction calls generalizing before watched with
  | nil => trivial
  | cons call calls ih =>
    have sorted := (pairwise_append.mp steady).1
    rcases tracks.step call with ⟨after, next, grows⟩
    refine ⟨meets tracks sorted along.1, ih next ?_ along.2⟩
    refine .sublist ?_ steady
    have split : (call :: calls).filterMap Call.mono? =
        call.mono?.toList ++ calls.filterMap Call.mono? := by
      cases clock : call.mono? with
      | none | some => simp [clock]
    rw [split, ← append_assoc]
    exact grows.append (List.Sublist.refl _)

/-! ## A provider that is called often -/

def atZero (provider : String) (operation : Operation) : Call :=
  .on ⟨operation, ⟨0, 0⟩, provider⟩

/-- The circuit is closed after outcomes at the time zero; `row` of them are failures at the
end. -/
structure Calm (config : CircuitBreakerConfig) (provider : String)
    (failures successes row : ℕ) (watched : Watched) : Prop where
  configured : Configured config watched.engine
  started : watched.engine.started
  closed : (watched.engine.circuit provider).state = .closed
  consecutive : (watched.engine.circuit provider).consecutiveFailures = row
  requests : (watched.engine.circuit provider).totalRequests = failures + successes
  failuresWindow : (watched.engine.circuit provider).failuresWindow =
    List.replicate (min 10 failures) 0
  successesWindow : (watched.engine.circuit provider).successesWindow =
    List.replicate (min 10 successes) 0
  failuresSeen : CircuitOutcome.times true watched.outcomes = List.replicate failures 0
  successesSeen : CircuitOutcome.times false watched.outcomes = List.replicate successes 0

variable {failures successes row : ℕ}

theorem calm_start (config : CircuitBreakerConfig) (provider : String) :
    Calm config provider 0 0 0 (step provider ⟨create config, []⟩ .start) :=
  ⟨(configured_create config).step .start, rfl, rfl, rfl, rfl, rfl, rfl, rfl, rfl⟩

section

variable (calm : Calm config provider failures successes row watched)
include calm

theorem Calm.reached (operation : Operation) :
    provider = provider ∧ watched.engine.Hears ⟨operation, ⟨0, 0⟩, provider⟩ := by
  refine ⟨rfl, ?_⟩
  cases operation with
  | allowRequest | recordSuccess | recordFailure => exact calm.started
  | reset | trip | halfOpen | close => trivial

theorem Calm.circuit_step (operation : Operation) :
    (watched.engine.step (atZero provider operation)).circuit provider =
      (watched.engine.circuit provider).perform ⟨0, 0⟩ operation :=
  (circuit_step_on watched.engine _ provider).trans (if_pos (calm.reached operation))

theorem Calm.started_step (operation : Operation) :
    (watched.engine.step (atZero provider operation)).started := by
  have acts := acts_of_hears (calm.reached operation).2
  exact acts.started.trans calm.started

theorem Calm.times_step (operation : Operation) (kept : operation ≠ .reset) (failed : Bool) :
    CircuitOutcome.times failed (watched.step provider (atZero provider operation)).outcomes =
      CircuitOutcome.times failed watched.outcomes ++
        CircuitOutcome.times failed
          (recorded provider watched.engine (atZero provider operation)) := by
  have stays : ¬ Closes provider watched.engine (atZero provider operation) := by
    rintro ⟨-, -, reset | ⟨before, -⟩⟩
    · exact kept reset
    · exact before calm.closed
  simp [Watched.step, stays]

theorem Calm.circuit_recordSuccess :
    (watched.engine.step (atZero provider .recordSuccess)).circuit provider =
      (watched.engine.circuit provider).succeeded ⟨0, 0⟩ := by
  rw [calm.circuit_step]
  simp [ProviderState.perform, ProviderState.succeeded, calm.closed]

theorem Calm.recordSuccess : Calm config provider failures (successes + 1) 0
      (watched.step provider (atZero provider .recordSuccess)) := by
  have circuit := calm.circuit_recordSuccess
  have reached := calm.reached .recordSuccess
  constructor
  case configured => exact calm.configured.step (atZero provider .recordSuccess)
  case started => exact calm.started_step .recordSuccess
  case closed => exact (congrArg ProviderState.state circuit).trans calm.closed
  case consecutive => exact congrArg consecutiveFailures circuit
  case requests =>
    refine (congrArg totalRequests circuit).trans ?_
    simp only [ProviderState.succeeded, calm.requests]
    omega
  case failuresWindow =>
    exact (congrArg ProviderState.failuresWindow circuit).trans calm.failuresWindow
  case successesWindow =>
    refine (congrArg ProviderState.successesWindow circuit).trans ?_
    simp only [ProviderState.succeeded, calm.successesWindow, add_replicate]
  case failuresSeen =>
    rw [calm.times_step .recordSuccess (by simp), calm.failuresSeen, atZero,
      times_true_recorded reached]
    simp
  case successesSeen =>
    rw [calm.times_step .recordSuccess (by simp), calm.successesSeen, atZero,
      times_false_recorded reached]
    simp [replicate_succ']

end

section

variable (calm : Calm config provider failures successes 0 watched)
include calm

theorem Calm.circuit_recordFailure (few : failures < 9) (many : 1 < config.failureThreshold) :
    (watched.engine.step (atZero provider .recordFailure)).circuit provider =
      (watched.engine.circuit provider).failed ⟨0, 0⟩ := by
  have stays : ((watched.engine.circuit provider).failed ⟨0, 0⟩).shouldTrip 0 = false := by
    have parameters := calm.configured.config provider
    have short : SlidingWindow.full (List.replicate (min 10 (failures + 1)) (0 : ℚ)) = false := by
      simp [SlidingWindow.full, SlidingWindow.maxSize]
      omega
    have window := add_replicate failures 0
    simp [ProviderState.shouldTrip, ProviderState.failed, parameters, calm.consecutive,
      calm.failuresWindow, window, short, many]
  rw [calm.circuit_step]
  have closed : ((watched.engine.circuit provider).failed ⟨0, 0⟩).state = .closed := calm.closed
  simp [ProviderState.perform, TripsOn, closed, stays]

theorem Calm.recordFailure (few : failures < 9) (many : 1 < config.failureThreshold) :
    Calm config provider (failures + 1) successes 1
      (watched.step provider (atZero provider .recordFailure)) := by
  have circuit := calm.circuit_recordFailure few many
  have reached := calm.reached .recordFailure
  constructor
  case configured => exact calm.configured.step (atZero provider .recordFailure)
  case started => exact calm.started_step .recordFailure
  case closed => exact (congrArg ProviderState.state circuit).trans calm.closed
  case consecutive =>
    refine (congrArg consecutiveFailures circuit).trans ?_
    simp only [ProviderState.failed, calm.consecutive]
  case requests =>
    refine (congrArg totalRequests circuit).trans ?_
    simp only [ProviderState.failed, calm.requests]
    omega
  case failuresWindow =>
    refine (congrArg ProviderState.failuresWindow circuit).trans ?_
    simp only [ProviderState.failed, calm.failuresWindow, add_replicate]
  case successesWindow =>
    exact (congrArg ProviderState.successesWindow circuit).trans calm.successesWindow
  case failuresSeen =>
    rw [calm.times_step .recordFailure (by simp), calm.failuresSeen, atZero,
      times_true_recorded reached]
    simp [replicate_succ']
  case successesSeen =>
    rw [calm.times_step .recordFailure (by simp), calm.successesSeen, atZero,
      times_false_recorded reached]
    simp

theorem Calm.run_successes (count : ℕ) : Calm config provider failures (successes + count) 0
      (run (Watched.step provider) watched
        (List.replicate count (atZero provider .recordSuccess))) := by
  induction count generalizing successes watched with
  | zero => exact calm
  | succ count ih =>
    rw [replicate_succ, run_cons, Nat.add_comm count, ← Nat.add_assoc]
    exact ih calm.recordSuccess

end

def alternating (provider : String) (rounds : ℕ) : List Call :=
  (List.replicate rounds [atZero provider .recordFailure, atZero provider .recordSuccess]).flatten

theorem Calm.run_alternating (calm : Calm config provider failures successes 0 watched)
    (rounds : ℕ) (few : failures + rounds ≤ 9) (many : 1 < config.failureThreshold) :
    Calm config provider (failures + rounds) (successes + rounds) 0
      (run (Watched.step provider) watched (alternating provider rounds)) := by
  induction rounds generalizing failures successes watched with
  | zero => exact calm
  | succ rounds ih =>
    have round := (calm.recordFailure (by omega) many).recordSuccess
    have later := ih round (by omega)
    rw [Nat.add_right_comm, Nat.add_right_comm successes] at later
    exact later

theorem Calm.rateTrip (calm : Calm config provider 9 successes 0 watched)
    (full : 10 ≤ successes) (loose : ¬ RateSafe config) :
    RateTrip provider watched ⟨.recordFailure, ⟨0, 0⟩, provider⟩ := by
  simp only [RateSafe, not_or, not_lt, not_le] at loose
  rcases loose with ⟨many, atMost, enough, wide⟩
  have parameters := calm.configured.config provider
  have circuit := calm.circuit_step .recordFailure
  change (watched.engine.perform ⟨.recordFailure, ⟨0, 0⟩, provider⟩).circuit provider = _ at circuit
  have closed : ((watched.engine.circuit provider).failed ⟨0, 0⟩).state = .closed := calm.closed
  have trips : ((watched.engine.circuit provider).failed ⟨0, 0⟩).shouldTrip 0 = true := by
    have window := add_replicate 9 0
    have isFull : SlidingWindow.full (List.replicate (min 10 (9 + 1)) (0 : ℚ)) = true := by
      simp [SlidingWindow.full, SlidingWindow.maxSize]
    have rate : (config.failureThreshold : ℚ) / max config.slidingWindowSize 1 ≤
        ((10 : ℕ) : ℚ) / (max (10 + 10) 1 : ℕ) := by
      have size : (0 : ℚ) < max config.slidingWindowSize 1 := by
        rw [Int.cast_pos]
        omega
      have double : (2 * config.failureThreshold : ℚ) ≤ max config.slidingWindowSize 1 := by
        exact_mod_cast wide
      have half : ((10 : ℕ) : ℚ) / (max (10 + 10) 1 : ℕ) = 1 / 2 := by norm_num
      rw [half, div_le_iff₀ size]
      linarith
    simp only [ProviderState.shouldTrip, ProviderState.failed, parameters, calm.consecutive,
      calm.requests, calm.failuresWindow, calm.successesWindow, window,
      countInWindow_replicate]
    rw [if_neg (by omega), if_neg (by omega), if_pos isFull, min_eq_left full, decide_eq_true_eq]
    exact ⟨enough, rate, atMost⟩
  have opens : (watched.engine.circuit provider).perform ⟨0, 0⟩ .recordFailure =
      ((watched.engine.circuit provider).failed ⟨0, 0⟩).moveTo 0 .circuitOpen := by
    simp [ProviderState.perform, TripsOn, closed, trips]
  refine ⟨rfl, rfl, calm.closed, ?_, ?_⟩
  · rw [circuit, opens, state_moveTo]
  · rw [circuit, opens, ProviderState.consecutiveFailures_trip, config_moveTo]
    simp [ProviderState.failed, calm.consecutive, parameters, many]

/-- Successes, and after them failures and successes in turn up to the tenth failure. -/
def oftenCalled (provider : String) (successes : ℕ) : List Call :=
  .start :: List.replicate successes (atZero provider .recordSuccess) ++ alternating provider 9 ++
    [atZero provider .recordFailure]

theorem steady_oftenCalled (provider : String) (successes : ℕ) :
    Steady (oftenCalled provider successes) := by
  have zero : ∀ mono ∈ (oftenCalled provider successes).filterMap Call.mono?, mono = 0 := by
    intro mono member
    rcases mem_filterMap.mp member with ⟨call, isCall, clock⟩
    simp only [oftenCalled, alternating, cons_append, mem_cons, mem_append,
      mem_replicate, mem_flatten, not_mem_nil, or_false] at isCall
    rcases isCall with rfl | (⟨-, rfl⟩ | ⟨round, ⟨-, rfl⟩, inRound⟩) | rfl
    · cases clock
    · exact (Option.some.inj clock).symm
    · simp only [mem_cons, not_mem_nil, or_false] at inRound
      rcases inRound with rfl | rfl
      · exact (Option.some.inj clock).symm
      · exact (Option.some.inj clock).symm
    · exact (Option.some.inj clock).symm
  refine pairwise_of_forall_mem_list fun earlier isEarlier later isLater => ?_
  rw [zero earlier isEarlier, zero later isLater]

theorem calm_oftenCalled (config : CircuitBreakerConfig) (many : 1 < config.failureThreshold)
    (provider : String) (successes : ℕ) : Calm config provider 9 (successes + 9) 0
      (run (Watched.step provider) ⟨create config, []⟩
        (.start :: List.replicate successes (atZero provider .recordSuccess) ++
          alternating provider 9)) := by
  have calm := ((calm_start config provider).run_successes successes).run_alternating 9
    (by omega) many
  rw [Nat.zero_add, Nat.zero_add] at calm
  rw [run_append]
  exact calm

theorem not_along_oftenCalled (loose : ¬ RateSafe config) (provider : String) :
    ¬ Along (Watched.step provider) (RateMet provider) ⟨create config, []⟩
      (oftenCalled provider (10 * (max config.slidingWindowSize 1).toNat)) := by
  intro along
  have bounds := loose
  simp only [RateSafe, not_or, not_lt, not_le] at bounds
  have calm := calm_oftenCalled config bounds.1 provider
    (10 * (max config.slidingWindowSize 1).toNat)
  have reached := calm.reached .recordFailure
  have low := along.at (calm.rateTrip (by omega) loose)
  rw [calm.configured.config provider, failureRate_eq,
    times_append, times_append, calm.failuresSeen,
    calm.successesSeen, times_true_recorded reached, times_false_recorded reached, if_pos rfl,
    if_neg (by simp), append_nil, ← replicate_succ',
    countInWindow_replicate, countInWindow_replicate] at low
  have size : (0 : ℚ) < max config.slidingWindowSize 1 := by
    rw [Int.cast_pos]
    omega
  have total : (0 : ℚ) <
      (9 + 1 + (10 * (max config.slidingWindowSize 1).toNat + 9) : ℕ) := by
    rw [Nat.cast_pos]
    omega
  have whole : ((max config.slidingWindowSize 1).toNat : ℤ) = max config.slidingWindowSize 1 :=
    Int.toNat_of_nonneg (by omega)
  rw [div_le_div_iff₀ size total] at low
  have bound : config.failureThreshold *
      ((9 + 1 + (10 * (max config.slidingWindowSize 1).toNat + 9) : ℕ) : ℤ) ≤
        (9 + 1 : ℕ) * max config.slidingWindowSize 1 := by exact_mod_cast low
  push_cast [whole] at bound
  have least := mul_le_mul_of_nonneg_right (show 2 ≤ config.failureThreshold by omega)
    (show 0 ≤ 10 + (10 * max config.slidingWindowSize 1 + 9) by omega)
  omega

/-- Along a run in which no success of the last minute since the circuit last closed is dropped
from its window, the circuit opens at the true rate only. Without this it does so along all runs
exactly for the parameters with which the rate is not used or is above one half. -/
theorem along_rateMet (config : CircuitBreakerConfig) (provider : String) : (∀ calls, Steady calls →
      Along (Watched.step provider) (FewSuccesses provider) ⟨create config, []⟩ calls →
      Along (Watched.step provider) (RateMet provider) ⟨create config, []⟩ calls) ∧
    ((∀ calls, Steady calls →
      Along (Watched.step provider) (RateMet provider) ⟨create config, []⟩ calls) ↔
        RateSafe config) := by
  have start := tracks_create config provider
  refine ⟨?_, ?_, ?_⟩
  · intro calls steady few
    exact start.along (fun tracks sorted kept => tracks.rateMet sorted kept) steady few
  · intro always
    by_contra loose
    exact not_along_oftenCalled loose provider (always _ (steady_oftenCalled provider _))
  · intro safe calls steady
    exact start.along (fun tracks sorted _ => tracks.rateMet_of_safe sorted safe _) steady
      (.of_forall (fun _ _ => trivial) _ calls)

/-- Ten failures and nine successes open the circuit, and the rate is above one half. -/
theorem rateMet_oftenCalled :
    Along (Watched.step "p") (RateMet "p") ⟨create {}, []⟩ (oftenCalled "p" 0) ∧
      ((run CircuitBreakerEngineImpl.step (create {}) (oftenCalled "p" 0)).circuit "p").state =
        .circuitOpen :=
  ⟨(along_rateMet {} "p").1 _ (steady_oftenCalled "p" 0) (by decide +kernel), by decide +kernel⟩

/-- Ten failures among twenty-one outcomes open it, too. -/
theorem not_rateMet_oftenCalled : Steady (oftenCalled "p" 2) ∧
      ¬ Along (Watched.step "p") (RateMet "p") ⟨create {}, []⟩ (oftenCalled "p" 2) :=
  ⟨steady_oftenCalled "p" 2, by decide +kernel⟩

end Watched

end AgenticOS.OmniRoute
