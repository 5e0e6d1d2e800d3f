import AgenticOS.Data.Dict
import Mathlib.Data.Rat.Floor

/-!
# The execution of one request

`execute` is a sequence of pieces that run without interruption. Between two pieces the
other tasks of the event loop run: a call of `cancel`, other executions, the adapter. A phase
says which `await` the execution stands at. Where several of them follow each other without
an effect on the tokens in between, one phase stands for all.

Published events, contexts and statistics are left out: nothing that `execute` decides
depends on them.
-/

namespace AgenticOS.OmniRoute

inductive ExecutionState
  | pending | queued | running | streaming | retrying | completed | cancelled | timedOut | failed
  | aborted | partialSuccess
  deriving DecidableEq

/-- The retry policies. The older names of the first, the fourth and the fifth are aliases. -/
inductive RetryPolicyType
  | immediateRetry | fixedDelay | exponentialBackoff | linearBackoff | jitteredBackoff
  | decorrelatedJitter | noRetry | adaptive | budgetAware | providerAware | circuitBreakerAware
  | deadlineAware
  deriving DecidableEq

/-- A request to a provider. The adapter alone reads what is left out here. -/
structure ExecutionRequest where
  requestId : String := ""
  provider : String := ""
  model : String := ""
  retryPolicy : RetryPolicyType := .exponentialBackoff
  maxRetries : ℤ := 3
  hardTimeoutS : ℚ := 60
  /-- The hard timeout as it is printed. -/
  hardTimeoutText : String := "60.0"

structure ExecutionResult where
  requestId : String := ""
  provider : String := ""
  model : String := ""
  state : ExecutionState := .pending
  output : String := ""
  content : String := ""
  finishReason : String := ""
  tokensIn : ℤ := 0
  tokensOut : ℤ := 0
  totalTokens : ℤ := 0
  latencyMs : ℚ := 0
  ttfbMs : ℚ := 0
  attempts : ℤ := 1
  retries : ℤ := 0
  error : String := ""
  deriving DecidableEq

namespace RetryCalculator

/-- `0.5 * 2 ** (attempt - 1)`. The power is an integer that may be too large for a float. -/
def doubled (attempt : Nat) : Except String ℚ :=
  if attempt ≤ 1024 then .ok (1 / 2 * 2 ^ (attempt - 1))
  else .error "int too large to convert to float"

/-- The delay before an attempt. The random draw lies between 0 and 1. -/
def computeDelay (attempt : Nat) (policy : RetryPolicyType) (draw : ℚ) : Except String ℚ :=
  match policy with
  | .immediateRetry => .ok 0
  | .linearBackoff => .ok (min (1 / 2 * attempt) 30)
  | .jitteredBackoff => (doubled attempt).map fun delay => min (delay + delay / 2 * draw) 30
  | .adaptive | .budgetAware | .providerAware | .circuitBreakerAware | .deadlineAware =>
    (doubled attempt).map fun delay => min (delay * (1 + attempt / 10)) 30
  | .fixedDelay | .exponentialBackoff | .decorrelatedJitter | .noRetry =>
    (doubled attempt).map fun delay => min delay 30

def maxRetriesForPolicy (policy : RetryPolicyType) (default : ℤ) : ℤ :=
  match policy with
  | .immediateRetry | .jitteredBackoff => min default 2
  | .fixedDelay | .exponentialBackoff | .linearBackoff | .decorrelatedJitter | .noRetry
  | .adaptive | .budgetAware | .providerAware | .circuitBreakerAware | .deadlineAware => default

end RetryCalculator

/-- The tokens of the running attempts. A token is the number of an event, and the events
say which of them have been set. -/
structure CancellationStore where
  tokens : Dict String Nat := Dict.empty
  events : List Bool := []

namespace CancellationStore

variable (store : CancellationStore)

/-- `event.is_set()`. -/
def isSet (token : Nat) : Bool :=
  store.events.getD token false

def register (requestId : String) : Nat × CancellationStore :=
  (store.events.length,
    { tokens := store.tokens.set requestId store.events.length
      events := store.events ++ [false] })

/-- The registered event is set, and it is registered no longer. -/
def cancel (requestId : String) : Bool × CancellationStore :=
  match store.tokens.get? requestId with
  | none => (false, store)
  | some token =>
    (true,
      { tokens := store.tokens.erase requestId
        events := store.events.set token true })

def isCancelled (requestId : String) : Bool :=
  match store.tokens.get? requestId with
  | none => false
  | some token => store.isSet token

def unregister (requestId : String) : CancellationStore :=
  { store with tokens := store.tokens.erase requestId }

end CancellationStore

/-- Where an execution stands. -/
inductive Phase
  /-- Nothing has been done yet. -/
  | called
  /-- The start is published and the context created. -/
  | starting
  /-- The delay before a further attempt passes, and the retry is published. -/
  | backingOff (attempt : Nat) (delay : ℚ)
  /-- The cancellation is about to be looked up. -/
  | checking (attempt : Nat)
  /-- A token is about to be registered. -/
  | registering (attempt : Nat)
  /-- The token is registered, the invocation has not begun. -/
  | entering (attempt : Nat) (token : Nat)
  /-- The adapter works on the request. -/
  | invoking (attempt : Nat) (token : Nat)
  /-- A hard timeout is published. -/
  | reporting (attempt : Nat)
  /-- The token is about to be given back. -/
  | leaving (attempt : Nat) (outcome : Except String ExecutionResult)
  /-- The result is recorded and the context about to be removed. -/
  | finishing (result : ExecutionResult) (announced : Bool)
  /-- The outcome is published. -/
  | closing (result : ExecutionResult)
  | returned (result : ExecutionResult)
  | raised (error : String)
  deriving DecidableEq

structure Execution where
  running : Bool
  request : ExecutionRequest
  cancellations : CancellationStore := {}
  lastError : String := ""
  phase : Phase := .called

namespace Execution

/-- The call of `execute`. -/
def create (running : Bool) (request : ExecutionRequest) : Execution where
  running := running
  request := request

variable (execution : Execution)

/-- The head of the loop over the attempts. -/
def beginAttempt (attempt : Nat) (draw : ℚ) : Execution :=
  let request := execution.request
  let maxRetries := RetryCalculator.maxRetriesForPolicy request.retryPolicy request.maxRetries
  if attempt < maxRetries + 2 then
    if 1 < attempt then
      match RetryCalculator.computeDelay attempt request.retryPolicy draw with
      | .error error => { execution with phase := .raised error }
      | .ok delay => { execution with phase := .backingOff attempt delay }
    else { execution with phase := .checking attempt }
  else
    { execution with
      phase := .finishing
        { requestId := request.requestId
          state := .failed
          error := "Unexpected execution path"
          attempts := attempt - 1 } false }

def attempted (request : ExecutionRequest) (attempt : Nat) (result : ExecutionResult) :
    ExecutionResult :=
  { result with
    provider := if result.provider = "" then request.provider else result.provider
    model := if result.model = "" then request.model else result.model
    attempts := attempt
    retries := attempt - 1 }

/-- A failed attempt is followed by another one while retries are left. -/
def failAttempt (attempt : Nat) (draw : ℚ) (error : String)
    (exhausted : ExecutionResult) : Execution :=
  let request := execution.request
  let maxRetries := RetryCalculator.maxRetriesForPolicy request.retryPolicy request.maxRetries
  let execution := { execution with lastError := error }
  if attempt ≤ maxRetries then execution.beginAttempt (attempt + 1) draw
  else { execution with phase := .finishing exhausted true }

def endAttempt (attempt : Nat) (draw : ℚ) :
    Except String ExecutionResult → Execution
  | .ok result =>
    let result := attempted execution.request attempt result
    match result.state with
    | .timedOut => { execution with phase := .finishing result false }
    | .completed => { execution with phase := .finishing result true }
    | .cancelled | .pending | .queued | .running | .streaming | .retrying | .failed | .aborted
    | .partialSuccess =>
      let error := if result.error = "" then "Unknown error" else result.error
      execution.failAttempt attempt draw error
        { requestId := result.requestId
          provider := result.provider
          model := result.model
          state := .failed
          error := "All retries exhausted: " ++ error
          attempts := attempt
          retries := attempt - 1
          latencyMs := result.latencyMs }
  | .error error =>
    execution.failAttempt attempt draw error
      { requestId := execution.request.requestId
        provider := execution.request.provider
        model := execution.request.model
        state := .failed
        error := "Exception: " ++ error
        attempts := attempt
        retries := attempt - 1 }

/-- The result of an attempt whose token is set when the adapter has answered. -/
def cancelledAfter (request : ExecutionRequest) (result : ExecutionResult) : ExecutionResult where
  requestId := request.requestId
  provider := result.provider
  model := result.model
  state := .cancelled
  output := result.output
  content := result.content
  tokensIn := result.tokensIn
  tokensOut := result.tokensOut
  latencyMs := result.latencyMs
  ttfbMs := result.ttfbMs
  error := "Cancelled after execution"

/-- The execution goes on with the piece that follows its phase. -/
def resume (draw : ℚ) : Execution :=
  let request := execution.request
  match execution.phase with
  | .called =>
    if execution.running then { execution with phase := .starting }
    else
      { execution with
        phase := .returned
          { requestId := request.requestId
            state := .failed
            error := "Execution engine not started" } }
  | .starting => execution.beginAttempt 1 draw
  | .backingOff attempt _ => { execution with phase := .checking attempt }
  | .checking attempt =>
    if execution.cancellations.isCancelled request.requestId then
      { execution with
        phase := .finishing
          { requestId := request.requestId
            provider := request.provider
            model := request.model
            state := .cancelled
            error := "Cancelled during execution"
            attempts := attempt } true }
    else { execution with phase := .registering attempt }
  | .registering attempt =>
    let (token, cancellations) := execution.cancellations.register request.requestId
    { execution with cancellations, phase := .entering attempt token }
  | .entering attempt token =>
    -- `wait_for` does not begin at all without time.
    if request.hardTimeoutS ≤ 0 then { execution with phase := .reporting attempt }
    else if execution.cancellations.isSet token then
      { execution with
        phase := .leaving attempt <| .ok
          { requestId := request.requestId
            provider := request.provider
            model := request.model
            state := .cancelled
            error := "Cancelled before execution" } }
    else { execution with phase := .invoking attempt token }
  | .reporting attempt =>
    { execution with
      phase := .leaving attempt <| .ok
        { requestId := request.requestId
          provider := request.provider
          model := request.model
          state := .timedOut
          error := "Hard timeout after " ++ request.hardTimeoutText ++ "s"
          latencyMs := request.hardTimeoutS * 1000 } }
  | .leaving attempt outcome =>
    { execution with
      cancellations := execution.cancellations.unregister request.requestId }.endAttempt
        attempt draw outcome
  | .finishing result announced =>
    { execution with
      cancellations := execution.cancellations.unregister request.requestId
      phase := if announced then .closing result else .returned result }
  | .closing result => { execution with phase := .returned result }
  | .invoking _ _ | .returned _ | .raised _ => execution

/-- What can happen next. -/
inductive Action
  /-- The execution goes on. The draw is for the delay of a further attempt. -/
  | resume (draw : ℚ)
  /-- The adapter returns a result or raises an exception. -/
  | answer (outcome : Except String ExecutionResult)
  /-- The hard timeout passes, or the adapter raises `TimeoutError`. -/
  | timeOut
  /-- A call of `cancel`. -/
  | cancel (requestId : String)
  /-- Another execution registers a token. -/
  | register (requestId : String)
  /-- Another execution gives its token back. -/
  | unregister (requestId : String)

def step : Action → Execution
  | .resume draw => execution.resume draw
  | .answer outcome =>
    match execution.phase with
    | .invoking attempt token =>
      { execution with
        phase := .leaving attempt <| outcome.map fun result =>
          if execution.cancellations.isSet token then
            cancelledAfter execution.request result
          else result }
    | _ => execution
  | .timeOut =>
    match execution.phase with
    | .entering attempt _ | .invoking attempt _ => { execution with phase := .reporting attempt }
    | _ => execution
  | .cancel requestId =>
    { execution with cancellations := (execution.cancellations.cancel requestId).2 }
  | .register requestId =>
    if requestId = execution.request.requestId then execution
    else { execution with cancellations := (execution.cancellations.register requestId).2 }
  | .unregister requestId =>
    if requestId = execution.request.requestId then execution
    else { execution with cancellations := execution.cancellations.unregister requestId }

end Execution

end AgenticOS.OmniRoute
