import AgenticOS.OmniRoute.Domain

/-!
# The circuit breaker

Each provider has a circuit with three states in use. An open circuit lets a request
through once its recovery time has passed, and becomes half-open by it; a half-open one
admits a bounded number of further probes. Enough successes close it, a failure opens it
again. A closed circuit opens by failures in a row, or by the failures among the last ones.
-/

namespace AgenticOS.OmniRoute

/-- The states of a circuit; the engine uses `closed`, `circuitOpen` and
`circuitHalfOpen`. -/
inductive FailoverState
  | closed | idle | retrying | failingOver | circuitOpen | circuitHalfOpen | recovered
  deriving DecidableEq

def FailoverState.value : FailoverState → String
  | .closed => "closed"
  | .idle => "idle"
  | .retrying => "retrying"
  | .failingOver => "failing_over"
  | .circuitOpen => "circuit_open"
  | .circuitHalfOpen => "circuit_half_open"
  | .recovered => "recovered"

structure CircuitBreakerConfig where
  failureThreshold : ℤ := 5
  minimumRequestCount : ℤ := 3
  recoveryTimeoutSeconds : ℚ := 30
  halfOpenProbeCount : ℤ := 2
  slidingWindowSize : ℤ := 10

/-- The times of the last events on the monotonic clock, oldest first. -/
abbrev SlidingWindow := List ℚ

namespace SlidingWindow

def maxSize : Nat := 10

/-- Append a time and drop the oldest one where there are more than ten. -/
def add (window : SlidingWindow) (value : ℚ) : SlidingWindow :=
  (window ++ [value]).drop (window.length + 1 - maxSize)

/-- The events of the last `since` seconds. -/
def countInWindow (window : SlidingWindow) (now since : ℚ) : Nat :=
  window.countP fun time => now - time < since

def full (window : SlidingWindow) : Bool :=
  maxSize ≤ window.length

end SlidingWindow

structure ProviderState where
  config : CircuitBreakerConfig := {}
  state : FailoverState := .closed
  successCount : Nat := 0
  failureCount : Nat := 0
  consecutiveFailures : Nat := 0
  totalRequests : Nat := 0
  circuitOpenUntil : Option Timestamp := none
  halfOpenAttempts : ℤ := 0
  halfOpenProbeSuccesses : ℤ := 0
  failuresWindow : SlidingWindow := []
  successesWindow : SlidingWindow := []
  totalTripCount : Nat := 0
  totalRecoveryCount : Nat := 0

/-- A closed circuit should open: there were enough requests, and too many failures in a row
or in the last minute. -/
def ProviderState.shouldTrip (circuit : ProviderState) (mono : ℚ) : Bool :=
  if circuit.totalRequests < circuit.config.minimumRequestCount then false
  else if circuit.config.failureThreshold ≤ circuit.consecutiveFailures then true
  else if circuit.failuresWindow.full then
    let recentFailures := circuit.failuresWindow.countInWindow mono 60
    let recentSuccesses := circuit.successesWindow.countInWindow mono 60
    let totalRecent := recentFailures + recentSuccesses
    circuit.config.minimumRequestCount ≤ totalRecent ∧
      (circuit.config.failureThreshold : ℚ) / max circuit.config.slidingWindowSize 1 ≤
        (recentFailures : ℚ) / max totalRecent 1 ∧
      circuit.config.failureThreshold ≤ recentFailures
  else false

structure CircuitBreakerEngineImpl where
  globalConfig : CircuitBreakerConfig := {}
  started : Bool := false
  providers : Dict String ProviderState := Dict.empty
  tripCountTotal : Nat := 0
  recoveryCountTotal : Nat := 0
  stateTransitions : Dict String Nat := Dict.empty

namespace CircuitBreakerEngineImpl

variable (engine : CircuitBreakerEngineImpl)

def getOrCreate (provider : String) : ProviderState × CircuitBreakerEngineImpl :=
  match engine.providers.get? provider with
  | some state => (state, engine)
  | none =>
    let state : ProviderState := { config := engine.globalConfig }
    (state, { engine with providers := engine.providers.set provider state })

/-- Opening the circuit raises: its recovery would end beyond the calendar. -/
def overflows (now : Timestamp) (provider : String) : Bool :=
  let circuit := (engine.getOrCreate provider).1
  circuit.state ≠ .circuitOpen ∧ (now.after? circuit.config.recoveryTimeoutSeconds).isNone

/-- Move a circuit to a state. The new state stands before the end of the recovery is computed:
where that raises, the circuit keeps the end it had. -/
def transition (now : Timestamp) (provider : String)
    (toState : FailoverState) : CircuitBreakerEngineImpl :=
  let (circuit, engine) := engine.getOrCreate provider
  if circuit.state = toState then engine
  else
    let key := circuit.state.value ++ "→" ++ toState.value
    let counted :=
      { engine with
        stateTransitions :=
          engine.stateTransitions.set key ((engine.stateTransitions.get? key).getD 0 + 1) }
    let moved := { circuit with state := toState }
    match toState with
    | .circuitOpen =>
      { counted with
        tripCountTotal := counted.tripCountTotal + 1
        providers := counted.providers.set provider
          { moved with
            totalTripCount := moved.totalTripCount + 1
            circuitOpenUntil :=
              (now.after? moved.config.recoveryTimeoutSeconds).or moved.circuitOpenUntil } }
    | .circuitHalfOpen =>
      { counted with
        providers := counted.providers.set provider
          { moved with halfOpenAttempts := 0, halfOpenProbeSuccesses := 0 } }
    | .closed =>
      let recovered : Nat := if circuit.state = .circuitHalfOpen then 1 else 0
      { counted with
        recoveryCountTotal := counted.recoveryCountTotal + recovered
        providers := counted.providers.set provider
          { moved with
            totalRecoveryCount := moved.totalRecoveryCount + recovered
            consecutiveFailures := 0
            halfOpenAttempts := 0
            halfOpenProbeSuccesses := 0
            failuresWindow := [] } }
    | .idle | .retrying | .failingOver | .recovered =>
      { counted with providers := counted.providers.set provider moved }

def allowRequest (now : Timestamp) (provider : String) : Bool × CircuitBreakerEngineImpl :=
  if ¬ engine.started then (true, engine)
  else
    let (circuit, engine) := engine.getOrCreate provider
    match circuit.state with
    | .circuitOpen =>
      if circuit.circuitOpenUntil.any fun reopens => reopens ≤ now then
        (true, engine.transition now provider .circuitHalfOpen)
      else (false, engine)
    | .circuitHalfOpen =>
      if circuit.halfOpenAttempts < circuit.config.halfOpenProbeCount then
        (true,
          { engine with
            providers := engine.providers.set provider
              { circuit with halfOpenAttempts := circuit.halfOpenAttempts + 1 } })
      else (false, engine)
    | .closed | .idle | .retrying | .failingOver | .recovered => (true, engine)

/-- Record the outcome of a request: a success. Enough successes close a half-open circuit. -/
def recordSuccess (instant : Instant) (provider : String) : CircuitBreakerEngineImpl :=
  if ¬ engine.started then engine
  else
    let (circuit, engine) := engine.getOrCreate provider
    let circuit :=
      { circuit with
        successCount := circuit.successCount + 1
        totalRequests := circuit.totalRequests + 1
        consecutiveFailures := 0
        successesWindow := circuit.successesWindow.add instant.mono }
    if circuit.state = .circuitHalfOpen then
      let circuit :=
        { circuit with halfOpenProbeSuccesses := circuit.halfOpenProbeSuccesses + 1 }
      let engine := { engine with providers := engine.providers.set provider circuit }
      if circuit.config.halfOpenProbeCount ≤ circuit.halfOpenProbeSuccesses then
        engine.transition instant.now provider .closed
      else engine
    else { engine with providers := engine.providers.set provider circuit }

def recordFailure (instant : Instant) (provider : String) : CircuitBreakerEngineImpl :=
  if ¬ engine.started then engine
  else
    let (circuit, engine) := engine.getOrCreate provider
    let circuit :=
      { circuit with
        failureCount := circuit.failureCount + 1
        totalRequests := circuit.totalRequests + 1
        consecutiveFailures := circuit.consecutiveFailures + 1
        failuresWindow := circuit.failuresWindow.add instant.mono }
    let engine := { engine with providers := engine.providers.set provider circuit }
    if circuit.state = .closed ∧ circuit.shouldTrip instant.mono then
      engine.transition instant.now provider .circuitOpen
    else if circuit.state = .circuitHalfOpen then
      engine.transition instant.now provider .circuitOpen
    else engine

def start : CircuitBreakerEngineImpl :=
  { engine with started := true }

def stop : CircuitBreakerEngineImpl :=
  { engine with started := false }

def dispose : CircuitBreakerEngineImpl :=
  { engine.stop with
    providers := Dict.empty
    tripCountTotal := 0
    recoveryCountTotal := 0 }

def reset (provider : String) : Bool × CircuitBreakerEngineImpl :=
  match engine.providers.get? provider with
  | none => (false, engine)
  | some circuit =>
    (true,
      { engine with
        providers := engine.providers.set provider { config := circuit.config }
        recoveryCountTotal :=
          engine.recoveryCountTotal + if circuit.state = .circuitOpen then 1 else 0 })

def trip (now : Timestamp) (provider : String) : Option Bool × CircuitBreakerEngineImpl :=
  (if engine.overflows now provider then none else some true,
    (engine.getOrCreate provider).2.transition now provider .circuitOpen)

def halfOpen (now : Timestamp) (provider : String) : Bool × CircuitBreakerEngineImpl :=
  (true, (engine.getOrCreate provider).2.transition now provider .circuitHalfOpen)

def close (now : Timestamp) (provider : String) : Bool × CircuitBreakerEngineImpl :=
  (true, (engine.getOrCreate provider).2.transition now provider .closed)

variable {provider : String} (engine : CircuitBreakerEngineImpl)

theorem get?_getOrCreate {other : String} (different : other ≠ provider) :
    (engine.getOrCreate provider).2.providers.get? other = engine.providers.get? other := by
  unfold getOrCreate
  split
  · rfl
  · exact Dict.get?_set_ne _ different _

theorem get?_transition (now : Timestamp) {other : String} (toState : FailoverState)
    (different : other ≠ provider) : (engine.transition now provider toState).providers.get? other =
      engine.providers.get? other := by
  have created := engine.get?_getOrCreate different
  unfold transition
  dsimp only
  split
  · exact created
  · split
    all_goals
      rw [Dict.get?_set_ne _ different]
      exact created

theorem get?_allowRequest (now : Timestamp) {other : String} (different : other ≠ provider) :
    (engine.allowRequest now provider).2.providers.get? other = engine.providers.get? other := by
  have created := engine.get?_getOrCreate different
  unfold allowRequest
  split
  · rfl
  · dsimp only
    split
    · split
      · rw [get?_transition _ _ _ different]
        exact created
      · exact created
    · split
      · rw [Dict.get?_set_ne _ different]
        exact created
      · exact created
    all_goals exact created

theorem allowRequest_of_refused {engine : CircuitBreakerEngineImpl} {now : Timestamp}
    (refused : (engine.allowRequest now provider).1 = false) :
    (engine.allowRequest now provider).2 = engine := by
  unfold allowRequest getOrCreate at refused ⊢
  split
  · rfl
  next started =>
    rw [if_neg started] at refused
    cases known : engine.providers.get? provider with
    | none =>
      simp only [known] at refused
      contradiction
    | some circuit =>
      simp only [known] at refused ⊢
      split at refused
      · split at refused
        · contradiction
        next closed => simp [closed]
      · split at refused
        · contradiction
        next exhausted => simp [exhausted]
      all_goals contradiction

end CircuitBreakerEngineImpl

end AgenticOS.OmniRoute
