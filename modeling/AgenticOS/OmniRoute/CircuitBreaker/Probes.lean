import AgenticOS.OmniRoute.CircuitBreaker.Circuit

/-!
# The probes of a half-open circuit

The request that finds an open circuit recovered is let through without being counted as a
probe. A half-open circuit whose probes have all been admitted lets nothing through until an
outcome is recorded.
-/

namespace AgenticOS.OmniRoute

open AgenticOS.Transition ProviderState

namespace CircuitBreakerEngineImpl

variable {engine : CircuitBreakerEngineImpl} {provider : String}

def HalfOpen (engine : CircuitBreakerEngineImpl) (provider : String) : Prop :=
  (engine.circuit provider).state = .circuitHalfOpen
deriving Decidable

def Admits (provider : String) (engine : CircuitBreakerEngineImpl) (call : ProviderCall) : Prop :=
  call.operation = .allowRequest ∧ call.provider = provider ∧
    (engine.allowRequest call.instant.now call.provider).1 = true
deriving Decidable

/-- The number of requests to the provider that are let through along a run. -/
def admissions (provider : String) : CircuitBreakerEngineImpl → List ProviderCall → Nat
  | _, [] => 0
  | engine, call :: calls =>
    (if Admits provider engine call then 1 else 0) +
      admissions provider (engine.perform call) calls

/-- A half-open period of the provider's circuit: its first call makes the circuit half-open,
the others leave it so. -/
def Period (provider : String) (engine : CircuitBreakerEngineImpl) (calls : List ProviderCall) :
    Prop :=
  ¬ engine.HalfOpen provider ∧
    Along perform (fun engine call => (engine.perform call).HalfOpen provider) engine calls
deriving Decidable

structure Sound (config : CircuitBreakerConfig) (engine : CircuitBreakerEngineImpl) : Prop where
  started : engine.started
  global : engine.globalConfig = config
  config : ∀ provider, (engine.circuit provider).config = config

variable {config : CircuitBreakerConfig}

theorem sound_start (config : CircuitBreakerConfig) : Sound config (create config).start :=
  ⟨rfl, rfl, fun _ => rfl⟩

theorem Sound.perform (sound : Sound config engine) (call : ProviderCall) :
    Sound config (engine.perform call) := by
  have acts := acts_perform sound.started call
  refine ⟨acts.started.trans sound.started, acts.globalConfig.trans sound.global, ?_⟩
  intro provider
  rw [circuit_perform sound.started call]
  split
  · rw [config_perform]
    exact sound.config provider
  · exact sound.config provider

theorem admits_iff (sound : Sound config engine) (call : ProviderCall) :
    Admits provider engine call ↔ call.operation = .allowRequest ∧ call.provider = provider ∧
      (engine.circuit provider).admits call.instant.now = true := by
  unfold Admits
  rw [(acts_allowRequest sound.started call.instant.now).1]
  constructor
  · rintro ⟨asked, rfl, admitted⟩
    exact ⟨asked, rfl, admitted⟩
  · rintro ⟨asked, rfl, admitted⟩
    exact ⟨asked, rfl, admitted⟩

theorem admits_halfOpen_iff {circuit : ProviderState} {now : Timestamp}
    (halfOpen : circuit.state = .circuitHalfOpen) :
    circuit.admits now = true ↔ circuit.halfOpenAttempts < circuit.config.halfOpenProbeCount := by
  unfold ProviderState.admits
  rw [halfOpen]
  exact decide_eq_true_iff

theorem attempts_of_stays (sound : Sound config engine) (call : ProviderCall)
    (before : engine.HalfOpen provider) (after : (engine.perform call).HalfOpen provider) :
    ((engine.perform call).circuit provider).halfOpenAttempts =
        (engine.circuit provider).halfOpenAttempts +
          (if Admits provider engine call then 1 else 0) ∧
      (Admits provider engine call →
        (engine.circuit provider).halfOpenAttempts < config.halfOpenProbeCount) := by
  have room : Admits provider engine call →
      (engine.circuit provider).halfOpenAttempts < config.halfOpenProbeCount := by
    intro admits
    have admitted := ((admits_iff sound call).mp admits).2.2
    rw [admits_halfOpen_iff before, sound.config provider] at admitted
    exact admitted
  refine ⟨?_, room⟩
  unfold HalfOpen at before after
  rw [circuit_perform sound.started call] at after ⊢
  by_cases concerned : provider = call.provider
  · rw [if_pos concerned] at after ⊢
    rcases changes_perform (engine.circuit provider) call.instant call.operation
      with ⟨-, attempts, -, uncounted⟩ | ⟨asked, -, admitted, -, attempts⟩ | ⟨-, state, -⟩ |
        ⟨outside, -⟩ | ⟨state, -⟩
    · rw [attempts, if_neg, add_zero]
      intro admits
      rcases (admits_iff sound call).mp admits with ⟨asked, -, admitted⟩
      exact uncounted asked before admitted
    · rw [attempts, if_pos]
      exact (admits_iff sound call).mpr ⟨asked, concerned.symm, admitted⟩
    · rw [state] at after
      cases after
    · exact absurd before outside
    · rw [state] at after
      cases after
  · rw [if_neg concerned, if_neg fun admits => concerned admits.2.1.symm, add_zero]

theorem attempts_of_becomes (sound : Sound config engine) (call : ProviderCall)
    (before : ¬ engine.HalfOpen provider) (after : (engine.perform call).HalfOpen provider) :
    ((engine.perform call).circuit provider).halfOpenAttempts = 0 := by
  unfold HalfOpen at before after
  rw [circuit_perform sound.started call] at after ⊢
  by_cases concerned : provider = call.provider
  · rw [if_pos concerned] at after ⊢
    rcases changes_perform (engine.circuit provider) call.instant call.operation
      with ⟨state, -⟩ | ⟨-, inside, -⟩ | ⟨-, state, -⟩ | ⟨-, -, attempts, -⟩ | ⟨state, -⟩
    · exact absurd (state.symm.trans after) before
    · exact absurd inside before
    · rw [state] at after
      cases after
    · exact attempts
    · rw [state] at after
      cases after
  · rw [if_neg concerned] at after
    exact absurd after before

theorem admissions_le_of_stays (calls : List ProviderCall) (sound : Sound config engine)
    (halfOpen : engine.HalfOpen provider)
    (stays : Along perform (fun engine call => (engine.perform call).HalfOpen provider)
      engine calls) : (admissions provider engine calls : ℤ) ≤
      max 0 (config.halfOpenProbeCount - (engine.circuit provider).halfOpenAttempts) := by
  induction calls generalizing engine with
  | nil => exact le_max_left 0 _
  | cons call calls ih =>
    have later := ih (sound.perform call) stays.1 stays.2
    rcases attempts_of_stays sound call halfOpen stays.1 with ⟨attempts, room⟩
    rw [attempts] at later
    unfold admissions
    by_cases admitted : Admits provider engine call
    · have left := room admitted
      push_cast
      omega
    · rw [if_neg admitted] at later ⊢
      omega

/-- In a half-open period at most one request more is let through than the circuit has
probes: the one that makes the circuit half-open is free. -/
theorem admissions_le_of_period (config : CircuitBreakerConfig) (before period : List ProviderCall)
    (provider : String) (is_ : Period provider (run perform (create config).start before) period) :
    (admissions provider (run perform (create config).start before) period : ℤ) ≤
      max 0 config.halfOpenProbeCount + 1 := by
  have sound : Sound config (run perform (create config).start before) :=
    run_invariant (Sound config) (fun _ call sound => sound.perform call) (sound_start config)
      before
  rcases is_ with ⟨outside, inside⟩
  cases period with
  | nil =>
    change (0 : ℤ) ≤ _
    have nonneg := le_max_left 0 config.halfOpenProbeCount
    omega
  | cons call calls =>
    have none := attempts_of_becomes sound call outside inside.1
    have later := admissions_le_of_stays calls (sound.perform call) inside.1 inside.2
    unfold admissions
    split
    · omega
    · omega

/-- A call at a time on both clocks. -/
def callAt (operation : Operation) (seconds : ℚ) : ProviderCall where
  operation
  instant := ⟨seconds, seconds⟩
  provider := "p"

/-- Five failures, which open the circuit for thirty seconds. -/
def failures : List ProviderCall :=
  List.replicate 5 (callAt .recordFailure 0)

/-- Three requests as soon as the circuit has recovered. -/
def requests : List ProviderCall :=
  List.replicate 3 (callAt .allowRequest 30)

/-- With two probes three requests are let through. -/
theorem period_admits_more : Period "p" (run perform (create {}).start failures) requests ∧
      ¬ (admissions "p" (run perform (create {}).start failures) requests : ℤ) ≤
        ({} : CircuitBreakerConfig).halfOpenProbeCount := by
  decide +kernel

theorem requests_le :
    (admissions "p" (run perform (create {}).start failures) requests : ℤ) ≤ max 0 2 + 1 :=
  admissions_le_of_period {} failures requests "p" (by decide +kernel)

end CircuitBreakerEngineImpl

/-!
## Circuits that never let a request through again

An open circuit recovers by time, if the end of its recovery could be computed: a circuit opened
for longer than the calendar has no such end. A half-open one does not recover by time: once its
probes are admitted it waits for an outcome, and where none is recorded it stays closed to all
requests.
-/

namespace CircuitBreakerEngineImpl

variable {engine : CircuitBreakerEngineImpl} {provider : String} {config : CircuitBreakerConfig}

/-- Left alone, the circuit lets a request through at some later time. -/
def Alive (engine : CircuitBreakerEngineImpl) (provider : String) : Prop :=
  ∀ present : Timestamp, ∃ now, present ≤ now ∧ (engine.allowRequest now provider).1 = true

/-- The end of a recovery that begins now can be computed, or there is one from before. -/
def Reopens (circuit : ProviderState) (now : Timestamp) : Prop :=
  (now.after? circuit.config.recoveryTimeoutSeconds).isSome ∨ circuit.circuitOpenUntil.isSome

/-- The call leaves a half-open circuit with a probe: it neither makes a circuit without
probes half-open nor takes the last probe. And it opens no circuit without an end. -/
def Spares (engine : CircuitBreakerEngineImpl) (call : ProviderCall) : Prop :=
  let circuit := engine.circuit call.provider
  match call.operation with
  | .allowRequest =>
    (circuit.state = .circuitOpen → circuit.admits call.instant.now →
      0 < circuit.config.halfOpenProbeCount) ∧
    (circuit.state = .circuitHalfOpen →
      circuit.halfOpenAttempts + 1 < circuit.config.halfOpenProbeCount)
  | .halfOpen => circuit.state ≠ .circuitHalfOpen → 0 < circuit.config.halfOpenProbeCount
  | .recordFailure => circuit.TripsOn call.instant → Reopens circuit call.instant.now
  | .trip => circuit.state ≠ .circuitOpen → Reopens circuit call.instant.now
  | .recordSuccess | .reset | .close => True

/-- A half-open circuit has a probe left, and an open one a time at which it is tried again. -/
def Probing (config : CircuitBreakerConfig) (circuit : ProviderState) : Prop :=
  (circuit.state = .circuitHalfOpen → circuit.halfOpenAttempts < config.halfOpenProbeCount) ∧
    (circuit.state = .circuitOpen → circuit.circuitOpenUntil.isSome)

theorem alive_iff (sound : Sound config engine) :
    engine.Alive provider ↔ Probing config (engine.circuit provider) := by
  have answer : ∀ now, (engine.allowRequest now provider).1 =
      (engine.circuit provider).admits now :=
    fun now => (acts_allowRequest sound.started now).1
  constructor
  · intro alive
    rcases alive 0 with ⟨now, -, admitted⟩
    rw [answer] at admitted
    constructor
    · intro halfOpen
      rw [admits_halfOpen_iff halfOpen, sound.config provider] at admitted
      exact admitted
    · intro isOpen
      unfold ProviderState.admits at admitted
      rw [isOpen] at admitted
      exact Option.isSome_of_any admitted
  · intro probing present
    by_cases isOpen : (engine.circuit provider).state = .circuitOpen
    · rcases Option.isSome_iff_exists.mp (probing.2 isOpen) with ⟨reopens, recovery⟩
      refine ⟨max present reopens, le_max_left present reopens, ?_⟩
      rw [answer]
      simp [ProviderState.admits, isOpen, recovery]
    · refine ⟨present, le_refl present, ?_⟩
      rw [answer]
      cases state : (engine.circuit provider).state with
      | circuitOpen => exact absurd state isOpen
      | circuitHalfOpen =>
        have room := probing.1 state
        rw [admits_halfOpen_iff state, sound.config provider]
        exact room
      | closed | idle | retrying | failingOver | recovered => simp [ProviderState.admits, state]

theorem Probing.perform (sound : Sound config engine) {call : ProviderCall}
    (probing : Probing config (engine.circuit call.provider)) (spares : engine.Spares call) :
    Probing config ((engine.circuit call.provider).perform call.instant call.operation) := by
  unfold Spares at spares
  rcases changes_perform (engine.circuit call.provider) call.instant
      call.operation with
    ⟨state, attempts, reopens, -⟩ | ⟨asked, before, -, state, attempts⟩ |
      ⟨before, state, reopens, cause⟩ | ⟨before, state, attempts, cause⟩ | ⟨state, -⟩
  · rwa [Probing, state, attempts, reopens]
  · rw [asked] at spares
    rw [Probing, state, attempts, ← sound.config call.provider]
    exact ⟨fun _ => spares.2 before, nofun⟩
  · refine ⟨by rw [state]; nofun, fun _ => ?_⟩
    rw [reopens, Option.isSome_or, Bool.or_eq_true]
    rcases cause with tripped | ⟨failed, trips⟩
    · rw [tripped] at spares
      exact spares before
    · rw [failed] at spares
      exact spares trips
  · rw [Probing, state, attempts, ← sound.config call.provider]
    refine ⟨fun _ => ?_, nofun⟩
    rcases cause with byHand | ⟨asked, isOpen, admitted⟩
    · rw [byHand] at spares
      exact spares before
    · rw [asked] at spares
      exact spares.1 isOpen admitted
  · rw [Probing, state]
    exact ⟨nofun, nofun⟩

theorem spares_of_probing (sound : Sound config engine) {call : ProviderCall}
    (probing : Probing config (engine.circuit call.provider))
    (later : Probing config
      ((engine.circuit call.provider).perform call.instant call.operation)) :
    engine.Spares call := by
  -- A circuit that opens is open afterwards, with an end.
  have ends : ∀ circuit : ProviderState, circuit.state ≠ .circuitOpen →
      Probing config (circuit.moveTo call.instant.now .circuitOpen) →
        Reopens circuit call.instant.now := by
    intro circuit before opened
    have isSome := opened.2 (state_moveTo ..)
    rwa [circuitOpenUntil_moveTo before, Option.isSome_or,
      Bool.or_eq_true] at isSome
  unfold Spares
  dsimp only
  rw [sound.config call.provider]
  cases operation : call.operation with
  | allowRequest =>
    rw [operation] at later
    unfold ProviderState.perform at later
    constructor
    · intro isOpen admitted
      have notHalf : (engine.circuit call.provider).state ≠ .circuitHalfOpen := by simp [isOpen]
      rw [asked_of_open isOpen admitted, Probing,
        halfOpenAttempts_moveTo notHalf] at later
      exact later.1 (state_moveTo ..)
    · intro halfOpen
      have admitted : (engine.circuit call.provider).admits call.instant.now := by
        rw [admits_halfOpen_iff halfOpen, sound.config call.provider]
        exact probing.1 halfOpen
      rw [asked_of_halfOpen halfOpen admitted] at later
      exact later.1 halfOpen
  | halfOpen =>
    rw [operation] at later
    intro before
    unfold ProviderState.perform at later
    rw [Probing, halfOpenAttempts_moveTo before] at later
    exact later.1 (state_moveTo ..)
  | recordFailure =>
    intro trips
    have before : ((engine.circuit call.provider).failed call.instant).state ≠ .circuitOpen := by
      rcases trips with ⟨closed, -⟩ | half
      · simp [closed]
      · simp [half]
    rw [operation, ProviderState.perform, if_pos trips] at later
    exact ends ((engine.circuit call.provider).failed call.instant) before later
  | trip =>
    intro before
    rw [operation] at later
    exact ends _ before later
  | recordSuccess | reset | close => trivial

/-- In every run of a started engine, all circuits stay alive exactly if every call spares a
probe and opens no circuit for ever. -/
theorem always_alive_iff (config : CircuitBreakerConfig) (calls : List ProviderCall) :
    Always perform (fun engine => ∀ provider, engine.Alive provider) (create config).start calls ↔
      Along perform Spares (create config).start calls := by
  have same : ∀ engine, Sound config engine → ((∀ provider, engine.Alive provider) ↔
      ∀ provider, Probing config (engine.circuit provider)) :=
    fun engine sound => forall_congr' fun provider => alive_iff sound
  apply always_iff_along (Sound config)
  · exact fun engine call sound _ _ => sound.perform call
  · intro engine call sound alive
    have probing := (same engine sound).mp alive
    rw [same _ (sound.perform call)]
    constructor
    · intro after
      have later := after call.provider
      rw [circuit_perform sound.started call, if_pos rfl] at later
      exact spares_of_probing sound (probing _) later
    · intro spares provider
      rw [circuit_perform sound.started call]
      split
      next concerned =>
        rw [concerned]
        exact .perform sound (probing _) spares
      · exact probing provider
  · exact sound_start config
  · exact (same _ (sound_start config)).mpr fun provider => ⟨nofun, nofun⟩

/-- After three requests without an outcome the circuit never lets one through again. -/
theorem lost_probes_are_final :
    (∀ now, ((run perform (create {}).start (failures ++ requests)).allowRequest now "p").1 =
      false) ∧
      ¬ Always perform (fun engine => ∀ provider, engine.Alive provider) (create {}).start
        (failures ++ requests) := by
  have sound : Sound {} (run perform (create {}).start (failures ++ requests)) :=
    run_invariant (Sound {}) (fun _ call sound => sound.perform call) (sound_start {}) _
  have halfOpen : (run perform (create {}).start (failures ++ requests)).HalfOpen "p" := by
    decide +kernel
  have refused : ∀ now,
      ((run perform (create {}).start (failures ++ requests)).allowRequest now "p").1 = false := by
    intro now
    rw [(acts_allowRequest sound.started now).1, Bool.eq_false_iff, Ne,
      admits_halfOpen_iff halfOpen]
    decide +kernel
  refine ⟨refused, ?_⟩
  intro always
  rcases always.last "p" 0 with ⟨now, -, admitted⟩
  rw [refused now] at admitted
  cases admitted

end CircuitBreakerEngineImpl

end AgenticOS.OmniRoute
