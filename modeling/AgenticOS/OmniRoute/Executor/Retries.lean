import AgenticOS.OmniRoute.Executor.Cancellation

/-!
# The attempts of an execution

The loop over the attempts invokes the adapter once in each, unless the hard timeout is up before.
What an execution stands at shows how often either has been, and the results that it returns say
it: all but the one of an engine that has not been started, which speaks of one attempt.
-/

namespace AgenticOS.OmniRoute

open AgenticOS.Transition CancellationStore RetryCalculator

namespace Phase

/-- The token of an attempt whose result is not known yet. -/
def token? : Phase → Option Nat
  | .entering _ token | .invoking _ token => some token
  | .called | .starting | .backingOff _ _ | .checking _ | .registering _ | .reporting _
  | .leaving _ _ | .finishing _ _ | .closing _ | .returned _ | .raised _ => none

theorem attempting_of_invoking {phase : Phase} (invoking : phase.Invoking) : phase.Attempting := by
  cases phase with
  | invoking attempt token => trivial
  | _ => exact invoking.elim

theorem token?_of_not_attempting {phase : Phase} (idle : ¬ phase.Attempting) :
    phase.token? = none := by
  cases phase with
  | entering | invoking => exact absurd trivial idle
  | _ => rfl

/-- The result is one after which no further attempt is made. -/
def Settled : Phase → Prop
  | .leaving _ (.ok result) => result.state = .completed ∨ result.state = .timedOut
  | .reporting _ | .finishing _ _ | .closing _ | .returned _ => True
  | .called | .starting | .backingOff _ _ | .checking _ | .registering _ | .entering _ _
  | .invoking _ _ | .leaving _ (.error _) | .raised _ => False

end Phase

namespace Execution

variable {execution : Execution} {request : ExecutionRequest} {entered : ℕ}

def allowedRetries (request : ExecutionRequest) : ℤ :=
  maxRetriesForPolicy request.retryPolicy request.maxRetries

theorem allowedRetries_nonneg (nonneg : 0 ≤ request.maxRetries) : 0 ≤ allowedRetries request := by
  rw [allowedRetries, maxRetriesForPolicy.eq_def]
  split <;> omega

/-- An attempt goes on to its invocation, or the hard timeout is up before. -/
def Enters (execution : Execution) : Action → Prop
  | .resume _ | .timeOut => (execution.phase matches .entering _ _) = true
  | .answer _ | .cancel _ | .register _ | .unregister _ => False

instance (execution : Execution) : (action : Action) → Decidable (Enters execution action)
  | .resume _ | .timeOut => inferInstanceAs (Decidable (_ = _))
  | .answer _ | .cancel _ | .register _ | .unregister _ => .isFalse id

/-- The hard timeout of an attempt is up before the adapter is invoked. -/
def Expires (execution : Execution) (action : Action) : Prop :=
  execution.phase matches .entering _ _ ∧ (step execution action).phase matches .reporting _
deriving Decidable

/-- How many attempts have entered, by what the execution stands at. -/
def Shows (request : ExecutionRequest) (phase : Phase) (entered : ℕ) : Prop :=
  match phase with
  | .called | .starting => entered = 0
  | .backingOff attempt _ | .checking attempt | .registering attempt | .entering attempt _ =>
    attempt = entered + 1 ∧ (entered : ℤ) ≤ allowedRetries request
  | .invoking attempt _ | .reporting attempt | .leaving attempt _ =>
    attempt = entered ∧ (entered : ℤ) ≤ allowedRetries request + 1
  | .finishing result _ | .closing result | .returned result =>
    result.attempts = entered ∧ (entered : ℤ) ≤ allowedRetries request + 1
  | .raised _ => (entered : ℤ) ≤ allowedRetries request + 1

theorem Shows.few {phase : Phase} (shows : Shows request phase entered)
    (allowed : 0 ≤ allowedRetries request) : (entered : ℤ) ≤ allowedRetries request + 1 := by
  cases phase with
  | called | starting =>
    rw [show entered = 0 from shows]
    omega
  | backingOff | checking | registering | entering => exact shows.2.trans (by omega)
  | raised error => exact shows
  | _ => exact shows.2

structure Counted (request : ExecutionRequest) (execution : Execution) (entered : ℕ) : Prop where
  running : execution.running = true
  asked : execution.request = request
  shows : Shows request execution.phase entered

section

variable (execution : Execution) (asked : execution.request = request)
  (few : (entered : ℤ) ≤ allowedRetries request + 1) (draw : ℚ)
include asked few

theorem shows_beginAttempt :
    Shows request (execution.beginAttempt (entered + 1) draw).phase entered := by
  subst asked
  by_cases more : (entered : ℤ) ≤ allowedRetries execution.request
  · have next : ((entered + 1 : ℕ) : ℤ) <
        maxRetriesForPolicy execution.request.retryPolicy
          execution.request.maxRetries + 2 := by
      rw [allowedRetries] at more
      omega
    rw [beginAttempt]
    simp only [if_pos next]
    split
    · split
      · exact few
      · exact ⟨rfl, more⟩
    · exact ⟨rfl, more⟩
  · have last : ¬ ((entered + 1 : ℕ) : ℤ) <
        maxRetriesForPolicy execution.request.retryPolicy
          execution.request.maxRetries + 2 := by
      rw [allowedRetries] at more
      omega
    rw [beginAttempt]
    simp only [if_neg last]
    exact ⟨by push_cast; omega, few⟩

theorem shows_failAttempt (error : String) {exhausted : ExecutionResult}
    (attempts : exhausted.attempts = entered) :
    Shows request (execution.failAttempt entered draw error exhausted).phase entered := by
  rw [failAttempt]
  split
  · exact shows_beginAttempt { execution with lastError := error } asked few draw
  · exact ⟨attempts, few⟩

theorem shows_endAttempt (outcome : Except String ExecutionResult) :
    Shows request (execution.endAttempt entered draw outcome).phase entered := by
  rw [endAttempt.eq_def]
  cases outcome with
  | error error => exact shows_failAttempt execution asked few draw error rfl
  | ok result =>
    dsimp only
    split
    · exact ⟨rfl, few⟩
    · exact ⟨rfl, few⟩
    all_goals exact shows_failAttempt execution asked few draw _ rfl

end

section

variable (execution : Execution) (attempt : ℕ) (draw : ℚ)

@[simp]
theorem running_beginAttempt :
    (execution.beginAttempt attempt draw).running = execution.running := by
  rw [beginAttempt]
  split
  · split
    · split
      · rfl
      · rfl
    · rfl
  · rfl

@[simp]
theorem running_failAttempt (error : String) (exhausted : ExecutionResult) :
    (execution.failAttempt attempt draw error exhausted).running = execution.running := by
  rw [failAttempt]
  split
  · simp
  · rfl

@[simp]
theorem running_endAttempt (outcome : Except String ExecutionResult) :
    (execution.endAttempt attempt draw outcome).running = execution.running := by
  rw [endAttempt.eq_def]
  cases outcome with
  | error error => simp
  | ok result =>
    dsimp only
    split
    · rfl
    · rfl
    all_goals simp

end

theorem running_resume (execution : Execution) (draw : ℚ) :
    (execution.resume draw).running = execution.running := by
  rw [resume]
  cases execution.phase with
  | called | checking => dsimp only; split <;> rfl
  | starting | leaving => simp
  | entering attempt token =>
    dsimp only
    split
    · rfl
    · split <;> rfl
  | _ => rfl

/-- Nobody cancels the request. -/
def Undisturbed (execution : Execution) (action : Action) : Prop :=
  action ≠ .cancel execution.request.requestId

/-- The token of the running attempt is registered. -/
def HoldsToken (execution : Execution) : Prop :=
  ∀ token, execution.phase.token? = some token →
    execution.cancellations.tokens.get? execution.request.requestId = some token

theorem holdsToken_of_none (none : execution.phase.token? = none) : HoldsToken execution := by
  intro token some
  rw [none] at some
  cases some

theorem HoldsToken.resume (holds : HoldsToken execution) (draw : ℚ) :
    HoldsToken (execution.resume draw) := by
  rw [Execution.resume]
  cases phase : execution.phase with
  | starting =>
    exact holdsToken_of_none
      (Phase.token?_of_not_attempting (between_beginAttempt execution 1 draw).idle)
  | backingOff | reporting | closing => exact holdsToken_of_none rfl
  | registering attempt =>
    intro token isToken
    cases isToken
    exact (get?_register _ _ _).trans (if_pos rfl)
  | entering attempt token =>
    dsimp only
    split
    · exact holdsToken_of_none rfl
    · split
      · exact holdsToken_of_none rfl
      · intro other isToken
        cases isToken
        exact holds token (by rw [phase]; rfl)
  | invoking | returned | raised => exact holds
  | leaving attempt outcome =>
    exact holdsToken_of_none (Phase.token?_of_not_attempting (between_endAttempt _ _ _ _).idle)
  | _ =>
    dsimp only
    split
    · exact holdsToken_of_none rfl
    · exact holdsToken_of_none rfl

theorem HoldsToken.step (holds : HoldsToken execution) {action : Action}
    (undisturbed : Undisturbed execution action) : HoldsToken (step execution action) := by
  have others : ∀ {cancellations : CancellationStore},
      cancellations.tokens.get? execution.request.requestId =
        execution.cancellations.tokens.get? execution.request.requestId →
      HoldsToken { execution with cancellations } := by
    intro cancellations same token isToken
    exact same.trans (holds token isToken)
  unfold Execution.step
  cases action with
  | resume draw => exact holds.resume draw
  | answer outcome =>
    dsimp only
    split
    · exact holdsToken_of_none rfl
    · exact holds
  | timeOut =>
    dsimp only
    split
    · exact holdsToken_of_none rfl
    · exact holdsToken_of_none rfl
    · exact holds
  | cancel requestId =>
    have other : execution.request.requestId ≠ requestId := by
      rintro rfl
      exact undisturbed rfl
    exact others ((get?_cancel _ _ _).trans (if_neg other))
  | register requestId =>
    dsimp only
    split
    · exact holds
    next other =>
      exact others ((get?_register _ _ _).trans (if_neg (Ne.symm other)))
  | unregister requestId =>
    dsimp only
    split
    · exact holds
    next other =>
      exact others ((get?_unregister _ _ _).trans (if_neg (Ne.symm other)))

section

variable (counted : Counted request execution entered) (store : execution.cancellations.Sound)
  (holds : HoldsToken execution) (allowed : 0 ≤ allowedRetries request)
include counted store holds allowed

theorem shows_resume (draw : ℚ) : Shows request (execution.resume draw).phase
      (entered + if Enters execution (.resume draw) then 1 else 0) := by
  have shows := counted.shows
  rw [resume]
  cases phase : execution.phase with
  | called => simpa [Enters, phase, counted.running, Shows] using shows
  | starting =>
    rw [phase] at shows
    have none : entered = 0 := shows
    subst none
    have few : ((0 : ℕ) : ℤ) ≤ allowedRetries request + 1 := by push_cast; omega
    simpa [Enters, phase] using shows_beginAttempt execution counted.asked few draw
  | checking attempt =>
    have absent := store.isCancelled execution.request.requestId
    simpa [Enters, phase, Shows, absent] using shows
  | entering attempt token =>
    rw [phase] at shows
    rcases shows with ⟨rfl, few⟩
    have unset := store.unset _ token (holds token (by rw [phase]; rfl))
    simp only [Enters, phase, unset, if_true, Bool.false_eq_true, if_false]
    split
    · exact ⟨rfl, by push_cast; omega⟩
    · exact ⟨rfl, by push_cast; omega⟩
  | invoking | returned | raised => simpa [Enters, phase] using shows
  | leaving attempt outcome =>
    rw [phase] at shows
    rcases shows with ⟨rfl, few⟩
    have ended := shows_endAttempt
      { execution with
        cancellations := execution.cancellations.unregister execution.request.requestId }
      counted.asked few draw outcome
    simpa [Enters, phase] using ended
  | finishing result announced => cases announced <;> simpa [Enters, phase, Shows] using shows
  | _ => simpa [Enters, phase, Shows] using shows

theorem Counted.step (action : Action) : Counted request (step execution action)
      (entered + if Enters execution action then 1 else 0) := by
  cases action with
  | resume draw =>
    exact ⟨(running_resume execution draw).trans counted.running,
      (advances_resume execution draw).request.trans counted.asked,
      shows_resume counted store holds allowed draw⟩
  | answer outcome =>
    have shows := counted.shows
    unfold Execution.step
    dsimp only
    split
    next attempt token phase =>
      rw [phase] at shows
      exact ⟨counted.running, counted.asked, by simpa [Enters, Shows] using shows⟩
    · exact counted
  | timeOut =>
    have shows := counted.shows
    refine ⟨?_, ?_, ?_⟩
    · rw [Execution.step]
      split
      all_goals exact counted.running
    · rw [Execution.step]
      split
      all_goals exact counted.asked
    · cases phase : execution.phase with
      | entering attempt token =>
        rw [phase] at shows
        rcases shows with ⟨rfl, few⟩
        simp only [Enters, Execution.step, phase, if_true]
        exact ⟨rfl, by push_cast; omega⟩
      | _ => simpa [Enters, Execution.step, phase, Shows] using shows
  | cancel requestId => exact ⟨counted.running, counted.asked, counted.shows⟩
  | register | unregister =>
    unfold Execution.step
    dsimp only
    split
    · exact counted
    · exact ⟨counted.running, counted.asked, counted.shows⟩

end

theorem counted_run (nonneg : 0 ≤ request.maxRetries) {actions : List Action}
    (undisturbed : Along Execution.step Undisturbed (create true request) actions) :
    Counted request (run Execution.step (create true request) actions)
      (occurrences Execution.step Enters (create true request) actions) := by
  have allowed := allowedRetries_nonneg nonneg
  have counts := undisturbed.counted Enters
    (fun execution entered =>
      Counted request execution entered ∧ execution.Sound ∧ HoldsToken execution)
    (fun {_ action _} shows undisturbed =>
      ⟨shows.1.step shows.2.1.store shows.2.2 allowed action, shows.2.1.step action,
        shows.2.2.step undisturbed⟩)
    ⟨⟨rfl, rfl, rfl⟩, sound_create true request, holdsToken_of_none rfl⟩
  rw [Nat.zero_add] at counts
  exact counts.1

/-! ## Invocations -/

theorem entering_of_invokes {action : Action} (invokes : Invokes execution action) :
    execution.phase matches .entering _ _ := by
  obtain ⟨idle, invoking⟩ := invokes
  rw [step.eq_def] at invoking
  cases action with
  | resume draw =>
    dsimp only at invoking
    rw [resume] at invoking
    cases phase : execution.phase with
    | entering attempt token => rfl
    | starting =>
      rw [phase] at invoking
      exact absurd (Phase.attempting_of_invoking invoking)
        (between_beginAttempt execution 1 draw).idle
    | leaving attempt outcome =>
      rw [phase] at invoking
      exact absurd (Phase.attempting_of_invoking invoking) (between_endAttempt _ _ _ _).idle
    | _ => grind [Phase.Invoking]
  | _ => grind [Phase.Invoking]

theorem enters_eq (sound : execution.Sound) (holds : HoldsToken execution) (action : Action) :
    (if Enters execution action then 1 else 0) =
      (if Invokes execution action then 1 else 0) + if Expires execution action then 1 else 0 := by
  cases phase : execution.phase with
  | entering attempt token =>
    have unset := sound.store.unset _ token (holds token (by rw [phase]; rfl))
    cases action with
    | resume draw =>
      by_cases late : execution.request.hardTimeoutS ≤ 0
      · simp [Enters, Invokes, Expires, step, resume, phase, Phase.Invoking, late]
      · simp [Enters, Invokes, Expires, step, resume, phase, Phase.Invoking, late, unset]
    | register requestId =>
      have same : (step execution (.register requestId)).phase = execution.phase := by
        rw [step]
        split <;> rfl
      simp [Enters, Invokes, Expires, same, phase, Phase.Invoking]
    | unregister requestId =>
      have same : (step execution (.unregister requestId)).phase = execution.phase := by
        rw [step]
        split <;> rfl
      simp [Enters, Invokes, Expires, same, phase, Phase.Invoking]
    | _ => simp [Enters, Invokes, Expires, step, phase, Phase.Invoking]
  | _ =>
    have idle : ¬ Invokes execution action := by
      intro invokes
      have entering := entering_of_invokes invokes
      rw [phase] at entering
      cases entering
    cases action with
    | _ => simp [Enters, Expires, phase, idle]

theorem occurrences_enters (sound : execution.Sound) (holds : HoldsToken execution)
    {actions : List Action} (undisturbed : Along Execution.step Undisturbed execution actions) :
    occurrences Execution.step Enters execution actions =
      occurrences Execution.step Invokes execution actions +
        occurrences Execution.step Expires execution actions := by
  induction actions generalizing execution with
  | nil => rfl
  | cons action actions ih =>
    have here := enters_eq sound holds action
    have later := ih (sound.step action) (holds.step undisturbed.1) undisturbed.2
    rw [occurrences_cons, occurrences_cons, occurrences_cons]
    omega

/-! ## After a result -/

/-- The outcome of an attempt is completed or timed out: the adapter answers so, or the hard
timeout is up. -/
def Settles (execution : Execution) (action : Action) : Prop :=
  (execution.phase.Invoking ∧ ∃ result, action = .answer (.ok result) ∧
    (result.state = .completed ∨ result.state = .timedOut)) ∨
  ∃ attempt, (step execution action).phase = .reporting attempt

theorem settled_of_settles (sound : execution.Sound) (holds : HoldsToken execution)
    {action : Action} (settles : Settles execution action) :
    (step execution action).phase.Settled := by
  rcases settles with ⟨invoking, result, rfl, ended⟩ | ⟨attempt, reporting⟩
  · cases phase : execution.phase with
    | invoking attempt token =>
      have unset := sound.store.unset _ token (holds token (by rw [phase]; rfl))
      simp only [step, phase, Except.map, unset]
      exact ended
    | _ =>
      rw [phase] at invoking
      exact invoking.elim
  · rw [reporting]
    trivial

theorem settled_endAttempt (execution : Execution) (attempt : ℕ) (draw : ℚ)
    {result : ExecutionResult} (ended : result.state = .completed ∨ result.state = .timedOut) :
    (execution.endAttempt attempt draw (.ok result)).phase.Settled := by
  have same : (attempted execution.request attempt result).state = result.state := rfl
  rw [endAttempt.eq_def]
  dsimp only
  rcases ended with completed | timedOut
  · rw [same, completed]
    trivial
  · rw [same, timedOut]
    trivial

section

variable (settled : execution.phase.Settled)
include settled

theorem settled_resume (draw : ℚ) : (execution.resume draw).phase.Settled := by
  rw [resume]
  cases phase : execution.phase with
  | reporting attempt => exact .inr rfl
  | leaving attempt outcome =>
    rw [phase] at settled
    cases outcome with
    | error error => exact settled.elim
    | ok result => exact settled_endAttempt _ attempt draw settled
  | finishing result announced =>
    dsimp only
    split
    · trivial
    · trivial
  | closing result => trivial
  | returned result => exact settled
  | _ =>
    rw [phase] at settled
    exact settled.elim

theorem settled_step (action : Action) : (step execution action).phase.Settled := by
  unfold Execution.step
  cases action with
  | resume draw => exact settled_resume settled draw
  | answer outcome =>
    dsimp only
    split
    next attempt token phase =>
      rw [phase] at settled
      exact settled.elim
    · exact settled
  | timeOut =>
    dsimp only
    split
    · trivial
    · trivial
    · exact settled
  | cancel requestId => exact settled
  | register | unregister =>
    dsimp only
    split
    · exact settled
    · exact settled

theorem not_entering_of_settled : (execution.phase matches .entering _ _) = false := by
  cases phase : execution.phase with
  | entering attempt token =>
    rw [phase] at settled
    exact settled.elim
  | _ => rfl

/-- What happens only as an attempt is entered does not happen any more. -/
theorem not_occurs_of_settled {event : Execution → Action → Prop}
    (enters : ∀ {execution action}, event execution action → execution.phase matches .entering _ _)
    (actions : List Action) : ¬ Occurs Execution.step event execution actions := by
  have along : Along .step (fun _ _ => True) execution actions :=
    .of_forall (fun _ _ => trivial) execution actions
  have never : ∀ execution action, execution.phase.Settled → ¬ event execution action := by
    intro execution action settled occurs
    have entering := enters occurs
    rw [not_entering_of_settled settled] at entering
    cases entering
  exact along.not_occurs
    (fun _ action (settled : Phase.Settled _) _ => settled_step settled action) never settled

end

/-- The hard timeout of an attempt ends the execution, so that it is up early at most once. -/
theorem expires_once (execution : Execution) (actions : List Action) :
    occurrences Execution.step Expires execution actions ≤ 1 := by
  induction actions generalizing execution with
  | nil => exact Nat.zero_le 1
  | cons action actions ih =>
    rw [occurrences_cons]
    split
    next expires =>
      have settled : (step execution action).phase.Settled := by
        have reporting := expires.2
        grind [Phase.Settled]
      have never := (occurrences_eq_zero_iff .step Expires _ actions).mpr
        (not_occurs_of_settled settled (fun both => both.1) actions)
      rw [never]
    · rw [Nat.zero_add]
      exact ih _

/-! ## An engine that has not been started -/

structure Refused (execution : Execution) : Prop where
  running : execution.running = false
  phase : execution.phase = .called ∨
    ∃ result : ExecutionResult, execution.phase = .returned result ∧ result.attempts = 1

theorem Refused.step (refused : Refused execution) (action : Action) :
    Refused (step execution action) := by
  have running := refused.running
  rcases refused.phase with phase | ⟨result, phase, one⟩
  · cases action with
    | resume draw =>
      simp only [Execution.step, resume, phase, running, Bool.false_eq_true, if_false]
      exact ⟨rfl, .inr ⟨_, rfl, rfl⟩⟩
    | answer | timeOut =>
      simp only [Execution.step, phase]
      exact refused
    | cancel requestId => exact ⟨running, .inl phase⟩
    | register | unregister =>
      unfold Execution.step
      dsimp only
      split
      · exact refused
      · exact ⟨running, .inl phase⟩
  · cases action with
    | resume draw =>
      simp only [Execution.step, resume, phase]
      exact refused
    | answer | timeOut =>
      simp only [Execution.step, phase]
      exact refused
    | cancel requestId => exact ⟨running, .inr ⟨result, phase, one⟩⟩
    | register | unregister =>
      unfold Execution.step
      dsimp only
      split
      · exact refused
      · exact ⟨running, .inr ⟨result, phase, one⟩⟩

theorem Refused.not_enters (refused : Refused execution) (action : Action) :
    ¬ Enters execution action := by
  rcases refused.phase with phase | ⟨result, phase, -⟩
  · cases action with
    | _ => simp [Enters, phase]
  · cases action with
    | _ => simp [Enters, phase]

theorem refused_run (request : ExecutionRequest) (actions : List Action) :
    Refused (run Execution.step (create false request) actions) ∧
      occurrences Execution.step Enters (create false request) actions = 0 := by
  have start : Refused (create false request) := ⟨rfl, .inl rfl⟩
  have along : Along .step (fun _ _ => True) (create false request) actions :=
    .of_forall (fun _ _ => trivial) _ _
  have kept : ∀ execution action, Refused execution → True → Refused (step execution action) :=
    fun _ action refused _ => refused.step action
  exact ⟨along.invariant kept start, (occurrences_eq_zero_iff _ _ _ _).mpr
    (along.not_occurs kept (fun _ action refused => refused.not_enters action) start)⟩

/-- In every run without a cancellation the adapter is invoked once more than the policy allows
retries, at most, and not again after an outcome that is completed or timed out. The result that is
returned counts the invocations, and one more attempt if the hard timeout is up before the last one
has invoked. Only the refusal of an engine that has not been started speaks of an attempt that has
not begun. -/
theorem execute_bounded (running : Bool) (request : ExecutionRequest)
    (nonneg : 0 ≤ request.maxRetries) (actions : List Action)
    (undisturbed : Along Execution.step Undisturbed (create running request) actions) :
    (occurrences Execution.step Invokes (create running request) actions : ℤ) ≤
        allowedRetries request + 1 ∧
      (∀ before action after, actions = before ++ action :: after →
        Settles (run Execution.step (create running request) before) action →
        ¬ Occurs Execution.step Invokes
          (run Execution.step (create running request) (before ++ [action])) after) ∧
      occurrences Execution.step Expires (create running request) actions ≤ 1 ∧
      ∀ result, (run Execution.step (create running request) actions).phase = .returned result →
        if running then
          result.attempts = occurrences Execution.step Invokes (create running request) actions +
            occurrences Execution.step Expires (create running request) actions
        else
          result.attempts = 1 ∧
            occurrences Execution.step Invokes (create running request) actions = 0 := by
  have allowed := allowedRetries_nonneg nonneg
  have entered := occurrences_enters (sound_create running request) (holdsToken_of_none rfl)
    undisturbed
  refine ⟨?_, ?_, expires_once _ _, ?_⟩
  · have few : (occurrences .step Enters (create running request) actions : ℤ) ≤
        allowedRetries request + 1 := by
      cases running with
      | true => exact (counted_run nonneg undisturbed).shows.few allowed
      | false =>
        rw [(refused_run request actions).2]
        omega
    omega
  · rintro before action after rfl settles
    have kept : ∀ execution action, Execution.Sound execution ∧ HoldsToken execution →
        Undisturbed execution action →
        (step execution action).Sound ∧ HoldsToken (step execution action) :=
      fun execution action holds undisturbed =>
        ⟨holds.1.step action, holds.2.step undisturbed⟩
    have here := (undisturbed.of_prefix (List.prefix_append before _)).invariant kept
      ⟨sound_create running request, holdsToken_of_none rfl⟩
    rw [run_append]
    exact not_occurs_of_settled (settled_of_settles here.1 here.2 settles)
      entering_of_invokes after
  · intro result returned
    cases running with
    | true =>
      have shows := (counted_run nonneg undisturbed).shows
      rw [returned] at shows
      rw [if_pos rfl, shows.1, entered]
      rfl
    | false =>
      rcases refused_run request actions with ⟨refused, none⟩
      refine ⟨?_, by omega⟩
      rcases refused.phase with called | ⟨refusal, phase, one⟩
      · rw [returned] at called
        cases called
      · rw [returned] at phase
        cases phase
        exact one

/-- A first attempt fails and a second one completes. -/
def retriesOnce : List Action :=
  [.resume 0, .resume 0, .resume 0, .resume 0, .resume 0, .answer (.error "refused"), .resume 0,
    .resume 0, .resume 0, .resume 0, .resume 0, .answer (.ok { state := .completed }), .resume 0,
    .resume 0, .resume 0]

theorem retriesOnce_bounded :
    ∃ result, (run Execution.step (create true {}) retriesOnce).phase = .returned result ∧
      result.attempts = 2 ∧
      occurrences Execution.step Invokes (create true {}) retriesOnce = 2 := by
  have undisturbed : Along .step Undisturbed (create true {}) retriesOnce := by
    simp [retriesOnce, Undisturbed]
  have bounded := execute_bounded true {} (by decide) retriesOnce undisturbed
  refine ⟨_, rfl, rfl, ?_⟩
  have attempts := bounded.2.2.2 _ rfl
  rw [if_pos rfl, show occurrences Execution.step Expires (create true {}) retriesOnce = 0 by
    decide +kernel] at attempts
  exact (Nat.cast_inj (R := ℤ)).mp attempts.symm

/-- An engine that has not been started invokes no adapter and returns a result with one attempt,
and so does an execution without any time. -/
theorem notStarted_attempts :
    (∃ result, (run Execution.step (create false {}) [.resume 0]).phase = .returned result ∧
      result.attempts ≠ occurrences Execution.step Invokes (create false {}) [.resume 0]) ∧
    ∃ result,
      (run Execution.step (create true { hardTimeoutS := 0 })
        (List.replicate 8 (.resume 0))).phase = .returned result ∧
      result.attempts ≠ occurrences Execution.step Invokes (create true { hardTimeoutS := 0 })
        (List.replicate 8 (.resume 0)) :=
  ⟨⟨_, rfl, by decide⟩, _, rfl, by decide +kernel⟩

end Execution

end AgenticOS.OmniRoute
