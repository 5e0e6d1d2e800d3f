import AgenticOS.Transition.Run
import AgenticOS.OmniRoute.CircuitBreaker

/-!
# One circuit of the breaker

Each call that concerns a provider acts on the circuit of this provider only. Here the
circuit is a machine of its own, without the dictionary and the totals of the engine, and
every call on a started engine is a step of the machine of its provider.
-/

namespace AgenticOS.OmniRoute

/-- What is done to the circuit of a provider. -/
inductive Operation
  | allowRequest | recordSuccess | recordFailure
  | reset | trip | halfOpen | close
  deriving DecidableEq

structure ProviderCall where
  operation : Operation
  instant : Instant
  provider : String

namespace ProviderState

variable (circuit : ProviderState)

def moveTo (now : Timestamp) (toState : FailoverState) : ProviderState :=
  if circuit.state = toState then circuit
  else
    let moved := { circuit with state := toState }
    match toState with
    | .circuitOpen =>
      { moved with
        totalTripCount := moved.totalTripCount + 1
        circuitOpenUntil :=
          (now.after? moved.config.recoveryTimeoutSeconds).or moved.circuitOpenUntil }
    | .circuitHalfOpen => { moved with halfOpenAttempts := 0, halfOpenProbeSuccesses := 0 }
    | .closed =>
      { moved with
        totalRecoveryCount :=
          moved.totalRecoveryCount + if circuit.state = .circuitHalfOpen then 1 else 0
        consecutiveFailures := 0
        halfOpenAttempts := 0
        halfOpenProbeSuccesses := 0
        failuresWindow := [] }
    | .idle | .retrying | .failingOver | .recovered => moved

/-- The circuit lets a request through. -/
def admits (now : Timestamp) : Bool :=
  match circuit.state with
  | .circuitOpen => circuit.circuitOpenUntil.any fun reopens => reopens ≤ now
  | .circuitHalfOpen => circuit.halfOpenAttempts < circuit.config.halfOpenProbeCount
  | .closed | .idle | .retrying | .failingOver | .recovered => true

def asked (now : Timestamp) : ProviderState :=
  if ¬ circuit.admits now then circuit
  else
    match circuit.state with
    | .circuitOpen => circuit.moveTo now .circuitHalfOpen
    | .circuitHalfOpen => { circuit with halfOpenAttempts := circuit.halfOpenAttempts + 1 }
    | .closed | .idle | .retrying | .failingOver | .recovered => circuit

def succeeded (instant : Instant) : ProviderState :=
  { circuit with
    successCount := circuit.successCount + 1
    totalRequests := circuit.totalRequests + 1
    consecutiveFailures := 0
    successesWindow := circuit.successesWindow.add instant.mono
    halfOpenProbeSuccesses :=
      circuit.halfOpenProbeSuccesses + if circuit.state = .circuitHalfOpen then 1 else 0 }

def failed (instant : Instant) : ProviderState :=
  { circuit with
    failureCount := circuit.failureCount + 1
    totalRequests := circuit.totalRequests + 1
    consecutiveFailures := circuit.consecutiveFailures + 1
    failuresWindow := circuit.failuresWindow.add instant.mono }

/-- A failure opens the circuit: too many failures close by, or a failed probe. -/
def TripsOn (instant : Instant) : Prop :=
  let counted := circuit.failed instant
  (counted.state = .closed ∧ counted.shouldTrip instant.mono) ∨ counted.state = .circuitHalfOpen
deriving Decidable

/-- The circuit after a call. -/
def perform (instant : Instant) : Operation → ProviderState
  | .allowRequest => circuit.asked instant.now
  | .recordSuccess =>
    let counted := circuit.succeeded instant
    if counted.state = .circuitHalfOpen ∧
        counted.config.halfOpenProbeCount ≤ counted.halfOpenProbeSuccesses then
      counted.moveTo instant.now .closed
    else counted
  | .recordFailure =>
    let counted := circuit.failed instant
    if circuit.TripsOn instant then counted.moveTo instant.now .circuitOpen else counted
  | .reset => { config := circuit.config }
  | .trip => circuit.moveTo instant.now .circuitOpen
  | .halfOpen => circuit.moveTo instant.now .circuitHalfOpen
  | .close => circuit.moveTo instant.now .closed

variable {circuit : ProviderState} {instant : Instant} {now : Timestamp}
  {operation : Operation} {toState : FailoverState}

section

variable (circuit : ProviderState) (now : Timestamp) (toState : FailoverState)

@[simp]
theorem config_moveTo : (circuit.moveTo now toState).config = circuit.config := by
  rw [moveTo]
  split
  · rfl
  · cases toState with
    | closed | idle | retrying | failingOver | circuitOpen | circuitHalfOpen | recovered => rfl

@[simp]
theorem state_moveTo : (circuit.moveTo now toState).state = toState := by
  rw [moveTo]
  split
  · assumption
  · cases toState with
    | closed | idle | retrying | failingOver | circuitOpen | circuitHalfOpen | recovered => rfl

end

theorem moveTo_of_state (same : circuit.state = toState) : circuit.moveTo now toState = circuit :=
  if_pos same

theorem halfOpenAttempts_moveTo (before : circuit.state ≠ .circuitHalfOpen) :
    (circuit.moveTo now .circuitHalfOpen).halfOpenAttempts = 0 := by
  rw [moveTo, if_neg before]

theorem circuitOpenUntil_moveTo (before : circuit.state ≠ .circuitOpen) :
    (circuit.moveTo now .circuitOpen).circuitOpenUntil =
      (now.after? circuit.config.recoveryTimeoutSeconds).or circuit.circuitOpenUntil := by
  rw [moveTo, if_neg before]

theorem asked_of_refused (refused : ¬ circuit.admits now) : circuit.asked now = circuit :=
  if_pos refused

theorem asked_of_open (state : circuit.state = .circuitOpen) (admitted : circuit.admits now) :
    circuit.asked now = circuit.moveTo now .circuitHalfOpen := by
  rw [asked, if_neg (not_not.mpr admitted), state]

theorem asked_of_halfOpen (state : circuit.state = .circuitHalfOpen)
    (admitted : circuit.admits now) :
    circuit.asked now = { circuit with halfOpenAttempts := circuit.halfOpenAttempts + 1 } := by
  rw [asked, if_neg (not_not.mpr admitted), state]

theorem asked_of_other (notOpen : circuit.state ≠ .circuitOpen)
    (notHalf : circuit.state ≠ .circuitHalfOpen) : circuit.asked now = circuit := by
  rw [asked]
  cases state : circuit.state with
  | circuitOpen => exact absurd state notOpen
  | circuitHalfOpen => exact absurd state notHalf
  | closed | idle | retrying | failingOver | recovered => exact ite_self circuit

/-- What a call can do to a circuit, as far as the admission of requests is concerned. -/
inductive Changes (circuit : ProviderState) (instant : Instant) (operation : Operation)
    (after : ProviderState) : Prop
  | stays (state : after.state = circuit.state)
      (attempts : after.halfOpenAttempts = circuit.halfOpenAttempts)
      (reopens : after.circuitOpenUntil = circuit.circuitOpenUntil)
      (uncounted : operation = .allowRequest → circuit.state = .circuitHalfOpen →
        ¬ circuit.admits instant.now)
  | probes (asked : operation = .allowRequest) (before : circuit.state = .circuitHalfOpen)
      (admitted : circuit.admits instant.now) (state : after.state = .circuitHalfOpen)
      (attempts : after.halfOpenAttempts = circuit.halfOpenAttempts + 1)
  | opens (before : circuit.state ≠ .circuitOpen) (state : after.state = .circuitOpen)
      (reopens : after.circuitOpenUntil =
        (instant.now.after? circuit.config.recoveryTimeoutSeconds).or circuit.circuitOpenUntil)
      (cause : operation = .trip ∨ operation = .recordFailure ∧ circuit.TripsOn instant)
  | halfOpens (before : circuit.state ≠ .circuitHalfOpen)
      (state : after.state = .circuitHalfOpen) (attempts : after.halfOpenAttempts = 0)
      (cause : operation = .halfOpen ∨ operation = .allowRequest ∧
        circuit.state = .circuitOpen ∧ circuit.admits instant.now)
  | closes (state : after.state = .closed)
      (cause : operation = .reset ∨ operation = .close ∨
        operation = .recordSuccess ∧ circuit.state = .circuitHalfOpen)

section

variable (circuit : ProviderState)

theorem changes_asked (instant : Instant) :
    Changes circuit instant .allowRequest (circuit.asked instant.now) := by
  by_cases admitted : circuit.admits instant.now
  · by_cases isOpen : circuit.state = .circuitOpen
    · have notHalf : circuit.state ≠ .circuitHalfOpen := by simp [isOpen]
      rw [asked_of_open isOpen admitted]
      exact .halfOpens notHalf (state_moveTo ..) (halfOpenAttempts_moveTo notHalf)
        (.inr ⟨rfl, isOpen, admitted⟩)
    · by_cases half : circuit.state = .circuitHalfOpen
      · rw [asked_of_halfOpen half admitted]
        exact .probes rfl half admitted half rfl
      · rw [asked_of_other isOpen half]
        exact .stays rfl rfl rfl fun _ isHalf => absurd isHalf half
  · rw [asked_of_refused admitted]
    exact .stays rfl rfl rfl fun _ _ => admitted

theorem changes_perform (instant : Instant) (operation : Operation) :
    Changes circuit instant operation (circuit.perform instant operation) := by
  unfold perform
  cases operation with
  | allowRequest => exact changes_asked circuit instant
  | recordSuccess =>
    dsimp only
    split
    next enough => exact .closes (state_moveTo ..) (.inr (.inr ⟨rfl, enough.1⟩))
    · exact .stays rfl rfl rfl fun impossible => by cases impossible
  | recordFailure =>
    dsimp only
    split
    next opens =>
      have before : (circuit.failed instant).state ≠ .circuitOpen := by
        rcases opens with ⟨closed, -⟩ | half
        · simp [closed]
        · simp [half]
      exact .opens before (state_moveTo ..) (circuitOpenUntil_moveTo before) (.inr ⟨rfl, opens⟩)
    · exact .stays rfl rfl rfl fun impossible => by cases impossible
  | reset => exact .closes rfl (.inl rfl)
  | trip =>
    by_cases isOpen : circuit.state = .circuitOpen
    · rw [moveTo_of_state isOpen]
      exact .stays rfl rfl rfl fun impossible => by cases impossible
    · exact .opens isOpen (state_moveTo ..) (circuitOpenUntil_moveTo isOpen) (.inl rfl)
  | halfOpen =>
    by_cases half : circuit.state = .circuitHalfOpen
    · rw [moveTo_of_state half]
      exact .stays rfl rfl rfl fun impossible => by cases impossible
    · exact .halfOpens half (state_moveTo ..) (halfOpenAttempts_moveTo half) (.inl rfl)
  | close => exact .closes (state_moveTo ..) (.inr (.inl rfl))

theorem config_asked (now : Timestamp) : (circuit.asked now).config = circuit.config := by
  by_cases admitted : circuit.admits now
  · by_cases isOpen : circuit.state = .circuitOpen
    · rw [asked_of_open isOpen admitted, config_moveTo]
    · by_cases half : circuit.state = .circuitHalfOpen
      · rw [asked_of_halfOpen half admitted]
      · rw [asked_of_other isOpen half]
  · rw [asked_of_refused admitted]

theorem config_perform (instant : Instant) (operation : Operation) :
    (circuit.perform instant operation).config = circuit.config := by
  unfold perform
  cases operation with
  | allowRequest => exact config_asked circuit instant.now
  | recordSuccess | recordFailure =>
    dsimp only
    split
    · exact config_moveTo _ instant.now _
    · rfl
  | reset => rfl
  | trip | halfOpen | close => exact config_moveTo circuit instant.now _

end

end ProviderState

namespace CircuitBreakerEngineImpl

variable {engine : CircuitBreakerEngineImpl} {provider other : String}

/-- An engine with the given configuration. -/
def create (globalConfig : CircuitBreakerConfig) : CircuitBreakerEngineImpl where
  globalConfig := globalConfig

def perform (engine : CircuitBreakerEngineImpl) (call : ProviderCall) : CircuitBreakerEngineImpl :=
  match call.operation with
  | .allowRequest => (engine.allowRequest call.instant.now call.provider).2
  | .recordSuccess => engine.recordSuccess call.instant call.provider
  | .recordFailure => engine.recordFailure call.instant call.provider
  | .reset => (engine.reset call.provider).2
  | .trip => (engine.trip call.instant.now call.provider).2
  | .halfOpen => (engine.halfOpen call.instant.now call.provider).2
  | .close => (engine.close call.instant.now call.provider).2

def circuit (engine : CircuitBreakerEngineImpl) (provider : String) : ProviderState :=
  (engine.providers.get? provider).getD { config := engine.globalConfig }

structure Acts (engine : CircuitBreakerEngineImpl) (provider : String) (next : ProviderState)
    (after : CircuitBreakerEngineImpl) : Prop where
  circuit : after.circuit = Function.update engine.circuit provider next
  globalConfig : after.globalConfig = engine.globalConfig
  started : after.started = engine.started

open Function

section

variable (engine : CircuitBreakerEngineImpl) (provider : String)

theorem acts_set (next : ProviderState) : Acts engine provider next
      { engine with providers := engine.providers.set provider next } where
  circuit := by
    funext asked
    unfold circuit
    rw [Dict.get?_set]
    by_cases same : asked = provider
    · simp [same]
    · simp [same]
  globalConfig := rfl
  started := rfl

theorem acts_refl : Acts engine provider (engine.circuit provider) engine :=
  ⟨(update_eq_self provider engine.circuit).symm, rfl, rfl⟩

end

variable {after : CircuitBreakerEngineImpl}

theorem Acts.trans {middle : CircuitBreakerEngineImpl} {first second : ProviderState}
    (acts : Acts engine provider first middle) (later : Acts middle provider second after) :
    Acts engine provider second after where
  circuit := by rw [later.circuit, acts.circuit, update_idem]
  globalConfig := later.globalConfig.trans acts.globalConfig
  started := later.started.trans acts.started

theorem Acts.self {next : ProviderState} (acts : Acts engine provider next after) :
    after.circuit provider = next := by
  rw [acts.circuit, update_self]

theorem getOrCreate_spec (engine : CircuitBreakerEngineImpl) (provider : String) :
    (engine.getOrCreate provider).1 = engine.circuit provider ∧
      Acts engine provider (engine.circuit provider) (engine.getOrCreate provider).2 := by
  rw [getOrCreate]
  cases known : engine.providers.get? provider with
  | some state =>
    refine ⟨?_, acts_refl engine provider⟩
    simp [circuit, known]
  | none =>
    have new : engine.circuit provider = { config := engine.globalConfig } := by
      simp [circuit, known]
    rw [new]
    exact ⟨rfl, acts_set engine provider _⟩

theorem acts_transition (engine : CircuitBreakerEngineImpl) (now : Timestamp)
    (provider : String) (toState : FailoverState) :
    Acts engine provider ((engine.circuit provider).moveTo now toState)
      (engine.transition now provider toState) := by
  rcases getOrCreate_spec engine provider with ⟨found, acts⟩
  rw [transition]
  dsimp only
  rw [found, ProviderState.moveTo]
  split
  · exact acts
  · cases toState with
    | closed | idle | retrying | failingOver | circuitOpen | circuitHalfOpen | recovered =>
      have stored := acts_set (engine.getOrCreate provider).2 provider
      exact acts.trans ⟨(stored _).circuit, rfl, rfl⟩

theorem Acts.move {next : ProviderState} (acts : Acts engine provider next after)
    (now : Timestamp) (toState : FailoverState) :
    Acts engine provider (next.moveTo now toState) (after.transition now provider toState) := by
  have moved := acts_transition after now provider toState
  rw [acts.self] at moved
  exact acts.trans moved

theorem acts_allowRequest (started : engine.started) (now : Timestamp) :
    (engine.allowRequest now provider).1 = (engine.circuit provider).admits now ∧
      Acts engine provider ((engine.circuit provider).asked now)
        (engine.allowRequest now provider).2 := by
  rcases getOrCreate_spec engine provider with ⟨found, acts⟩
  rw [allowRequest, ProviderState.asked, ProviderState.admits, if_neg (not_not.mpr started)]
  dsimp only
  rw [found]
  cases state : (engine.circuit provider).state with
  | circuitOpen =>
    by_cases reopens : (engine.circuit provider).circuitOpenUntil.any fun reopens => reopens ≤ now
    · rw [if_pos reopens, if_neg (not_not.mpr reopens)]
      exact ⟨reopens.symm, acts.move now .circuitHalfOpen⟩
    · rw [if_neg reopens, if_pos reopens]
      exact ⟨(Bool.eq_false_iff.mpr reopens).symm, acts⟩
  | circuitHalfOpen =>
    dsimp only
    by_cases free : (engine.circuit provider).halfOpenAttempts <
        (engine.circuit provider).config.halfOpenProbeCount
    · rw [if_pos free, if_neg (not_not.mpr (decide_eq_true free))]
      exact ⟨(decide_eq_true free).symm, acts.trans (acts_set _ _ _)⟩
    · rw [if_neg free, if_pos (by simpa using free)]
      exact ⟨(decide_eq_false free).symm, acts⟩
  | closed | idle | retrying | failingOver | recovered => exact ⟨rfl, acts⟩

theorem acts_recordSuccess (started : engine.started) (instant : Instant) :
    Acts engine provider ((engine.circuit provider).perform instant .recordSuccess)
      (engine.recordSuccess instant provider) := by
  rcases getOrCreate_spec engine provider with ⟨found, acts⟩
  have stored := fun next => acts.trans (acts_set (engine.getOrCreate provider).2 provider next)
  rw [recordSuccess, ProviderState.perform, ProviderState.succeeded, if_neg (not_not.mpr started)]
  dsimp only
  rw [found]
  by_cases half : (engine.circuit provider).state = .circuitHalfOpen
  · simp only [if_pos half]
    by_cases enough : (engine.circuit provider).config.halfOpenProbeCount ≤
        (engine.circuit provider).halfOpenProbeSuccesses + 1
    · rw [if_pos enough, if_pos ⟨half, enough⟩]
      exact (stored _).move instant.now .closed
    · rw [if_neg enough, if_neg fun both => enough both.2]
      exact stored _
  · simp only [if_neg half, add_zero]
    rw [if_neg fun both => half both.1]
    exact stored _

theorem acts_recordFailure (started : engine.started) (instant : Instant) :
    Acts engine provider ((engine.circuit provider).perform instant .recordFailure)
      (engine.recordFailure instant provider) := by
  rcases getOrCreate_spec engine provider with ⟨found, acts⟩
  have stored := fun next => acts.trans (acts_set (engine.getOrCreate provider).2 provider next)
  rw [recordFailure, ProviderState.perform, ProviderState.failed, if_neg (not_not.mpr started)]
  dsimp only
  rw [found]
  by_cases opens : (engine.circuit provider).TripsOn instant
  · rw [if_pos opens]
    split
    · exact (stored _).move instant.now .circuitOpen
    split
    · exact (stored _).move instant.now .circuitOpen
    next calm closed => exact absurd opens (not_or.mpr ⟨calm, closed⟩)
  · rw [if_neg opens]
    split
    next trips => exact absurd (.inl trips) opens
    split
    next half => exact absurd (.inr half) opens
    exact stored _

theorem acts_move (engine : CircuitBreakerEngineImpl) (now : Timestamp) (provider : String)
    (toState : FailoverState) : Acts engine provider ((engine.circuit provider).moveTo now toState)
      ((engine.getOrCreate provider).2.transition now provider toState) :=
  (getOrCreate_spec engine provider).2.move now toState

theorem acts_reset (engine : CircuitBreakerEngineImpl) (provider : String) :
    Acts engine provider { config := (engine.circuit provider).config }
      (engine.reset provider).2 := by
  rw [reset]
  cases known : engine.providers.get? provider with
  | none =>
    have new : engine.circuit provider = { config := engine.globalConfig } := by
      simp [circuit, known]
    have acts := acts_refl engine provider
    rw [new] at acts ⊢
    exact acts
  | some state =>
    have found : engine.circuit provider = state := by simp [circuit, known]
    rw [found]
    have stored := acts_set engine provider { config := state.config }
    exact ⟨stored.circuit, rfl, rfl⟩

theorem acts_perform (started : engine.started) (call : ProviderCall) : Acts engine call.provider
      ((engine.circuit call.provider).perform call.instant call.operation)
      (engine.perform call) := by
  rw [perform]
  cases call.operation with
  | allowRequest => exact (acts_allowRequest started call.instant.now).2
  | recordSuccess => exact acts_recordSuccess started call.instant
  | recordFailure => exact acts_recordFailure started call.instant
  | reset => exact acts_reset engine call.provider
  | trip => exact acts_move engine call.instant.now call.provider .circuitOpen
  | halfOpen => exact acts_move engine call.instant.now call.provider .circuitHalfOpen
  | close => exact acts_move engine call.instant.now call.provider .closed

theorem circuit_perform (started : engine.started) (call : ProviderCall) (provider : String) :
    (engine.perform call).circuit provider =
      if provider = call.provider then
        (engine.circuit provider).perform call.instant call.operation
      else engine.circuit provider := by
  rw [(acts_perform started call).circuit]
  split
  next same => rw [same, update_self]
  next other => exact update_of_ne other _ _

end CircuitBreakerEngineImpl

end AgenticOS.OmniRoute
