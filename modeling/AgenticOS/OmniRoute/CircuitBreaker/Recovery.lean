import AgenticOS.OmniRoute.CircuitBreaker.Circuit

/-!
# The recovery time of an open circuit

An open circuit keeps the time at which it may be tried again, in whole microseconds. Outcomes
that come late and further trips leave it alone, so that no request is let through before that
time, unless the circuit is closed, reset or half-opened by hand or the engine is stopped.
-/

namespace AgenticOS.OmniRoute

open AgenticOS.Transition List ProviderState

namespace CircuitBreakerEngineImpl

/-- The calls on the engine that may change a circuit. -/
inductive Call
  | on (call : ProviderCall)
  | start
  | stop
  | dispose

namespace Call

def time? : Call → Option Timestamp
  | .on call => some call.instant.now
  | .start | .stop | .dispose => none

/-- The call ends the recovery of the provider's circuit ahead of time. -/
def Disturbs (provider : String) : Call → Prop
  | .on call => call.provider = provider ∧
      (call.operation = .close ∨ call.operation = .reset ∨ call.operation = .halfOpen)
  | .start => False
  | .stop | .dispose => True

instance (provider : String) : (call : Call) → Decidable (call.Disturbs provider)
  | .on _ => inferInstanceAs (Decidable (_ ∧ _))
  | .start => inferInstanceAs (Decidable False)
  | .stop | .dispose => inferInstanceAs (Decidable True)

end Call

def step (engine : CircuitBreakerEngineImpl) : Call → CircuitBreakerEngineImpl
  | .on call => engine.perform call
  | .start => engine.start
  | .stop => engine.stop
  | .dispose => engine.dispose

/-- The clock does not go back. -/
def Chronological (calls : List Call) : Prop :=
  (calls.filterMap Call.time?).Pairwise (· ≤ ·)

instance (calls : List Call) : Decidable (Chronological calls) :=
  inferInstanceAs (Decidable (List.Pairwise _ _))

variable {engine : CircuitBreakerEngineImpl} {provider : String} {config : CircuitBreakerConfig}

structure Configured (config : CircuitBreakerConfig) (engine : CircuitBreakerEngineImpl) :
    Prop where
  global : engine.globalConfig = config
  config : ∀ provider, (engine.circuit provider).config = config

/-- The call reaches the circuit of its provider: a stopped engine only moves circuits by
hand. -/
def Hears (engine : CircuitBreakerEngineImpl) (call : ProviderCall) : Prop :=
  match call.operation with
  | .allowRequest | .recordSuccess | .recordFailure => engine.started
  | .reset | .trip | .halfOpen | .close => True

instance (call : ProviderCall) : Decidable (engine.Hears call) := by
  unfold Hears
  cases call.operation with
  | allowRequest | recordSuccess | recordFailure =>
    exact inferInstanceAs (Decidable (engine.started = true))
  | reset | trip | halfOpen | close => exact inferInstanceAs (Decidable True)

theorem acts_of_hears {call : ProviderCall} (hears : engine.Hears call) : Acts engine call.provider
      ((engine.circuit call.provider).perform call.instant call.operation)
      (engine.perform call) := by
  unfold Hears at hears
  cases operation : call.operation with
  | allowRequest | recordSuccess | recordFailure =>
    rw [← operation]
    simp only [operation] at hears
    exact acts_perform hears call
  | reset =>
    simp only [perform, operation]
    exact acts_reset engine call.provider
  | trip =>
    simp only [perform, operation]
    exact acts_move engine call.instant.now call.provider .circuitOpen
  | halfOpen =>
    simp only [perform, operation]
    exact acts_move engine call.instant.now call.provider .circuitHalfOpen
  | close =>
    simp only [perform, operation]
    exact acts_move engine call.instant.now call.provider .closed

theorem perform_of_not_hears {call : ProviderCall} (deaf : ¬ engine.Hears call) :
    engine.perform call = engine := by
  unfold Hears at deaf
  cases operation : call.operation with
  | allowRequest => simp_all [perform, allowRequest]
  | recordSuccess => simp_all [perform, recordSuccess]
  | recordFailure => simp_all [perform, recordFailure]
  | reset | trip | halfOpen | close => simp [operation] at deaf

theorem circuit_step_on (engine : CircuitBreakerEngineImpl) (call : ProviderCall)
    (provider : String) :
    (engine.step (.on call)).circuit provider =
      if call.provider = provider ∧ engine.Hears call then
        (engine.circuit provider).perform call.instant call.operation
      else engine.circuit provider := by
  change (engine.perform call).circuit provider = _
  by_cases hears : engine.Hears call
  · rw [(acts_of_hears hears).circuit]
    by_cases concerned : call.provider = provider
    · rw [if_pos ⟨concerned, hears⟩, ← concerned, Function.update_self]
    · rw [if_neg fun both => concerned both.1]
      exact Function.update_of_ne (Ne.symm concerned) _ _
  · rw [perform_of_not_hears hears, if_neg fun both => hears both.2]

theorem Configured.step (configured : Configured config engine) (call : Call) :
    Configured config (engine.step call) := by
  cases call with
  | on call =>
    constructor
    · by_cases hears : engine.Hears call
      · exact (acts_of_hears hears).globalConfig.trans configured.global
      · change (engine.perform call).globalConfig = config
        rw [perform_of_not_hears hears]
        exact configured.global
    · intro provider
      rw [circuit_step_on]
      split
      · rw [config_perform]
        exact configured.config provider
      · exact configured.config provider
  | start | stop => exact ⟨configured.global, configured.config⟩
  | dispose => exact ⟨configured.global, fun _ => configured.global⟩

theorem configured_create (config : CircuitBreakerConfig) : Configured config (create config) :=
  ⟨rfl, fun _ => rfl⟩

structure Recovering (provider : String) (reopens : Timestamp)
    (engine : CircuitBreakerEngineImpl) : Prop where
  started : engine.started
  state : (engine.circuit provider).state = .circuitOpen
  reopens : (engine.circuit provider).circuitOpenUntil = some reopens

variable {reopens : Timestamp}

theorem Recovering.refuses (recovering : Recovering provider reopens engine) {now : Timestamp}
    (early : now < reopens) : (engine.allowRequest now provider).1 = false := by
  rw [(acts_allowRequest recovering.started now).1]
  unfold admits
  rw [recovering.state, recovering.reopens]
  simpa using early

theorem Recovering.step (recovering : Recovering provider reopens engine) {call : Call}
    (undisturbed : ¬ call.Disturbs provider) (early : ∀ time ∈ call.time?, time < reopens) :
    Recovering provider reopens (engine.step call) := by
  cases call with
  | start => exact ⟨rfl, recovering.state, recovering.reopens⟩
  | stop | dispose => exact absurd trivial undisturbed
  | on call =>
    have circuit := circuit_perform recovering.started call provider
    have started := (acts_perform recovering.started call).started.trans recovering.started
    by_cases concerned : provider = call.provider
    · rw [if_pos concerned] at circuit
      have byHand : ¬ (call.operation = .close ∨ call.operation = .reset ∨
          call.operation = .halfOpen) := fun cause => undisturbed ⟨concerned.symm, cause⟩
      rcases changes_perform (engine.circuit provider) call.instant call.operation
        with ⟨state, -, same, -⟩ | ⟨-, half, -⟩ | ⟨before, -⟩ | ⟨-, -, -, cause⟩ | ⟨-, cause⟩
      · exact ⟨started, circuit.symm ▸ state.trans recovering.state,
          circuit.symm ▸ same.trans recovering.reopens⟩
      · rw [recovering.state] at half
        cases half
      · exact absurd recovering.state before
      · rcases cause with halfOpened | ⟨-, -, admitted⟩
        · exact absurd (.inr (.inr halfOpened)) byHand
        · have refused := recovering.refuses (early call.instant.now rfl)
          rw [(acts_allowRequest recovering.started call.instant.now).1, admitted] at refused
          cases refused
      · rcases cause with reset | closed | ⟨-, half⟩
        · exact absurd (.inr (.inl reset)) byHand
        · exact absurd (.inl closed) byHand
        · rw [recovering.state] at half
          cases half
    · rw [if_neg concerned] at circuit
      exact ⟨started, circuit.symm ▸ recovering.state, circuit.symm ▸ recovering.reopens⟩

theorem recovering_of_opens (configured : Configured config engine) (started : engine.started)
    (opening : ProviderCall) (before : (engine.circuit provider).state ≠ .circuitOpen)
    (after : ((engine.perform opening).circuit provider).state = .circuitOpen)
    (ends : opening.instant.now.after? config.recoveryTimeoutSeconds = some reopens) :
    Recovering provider reopens (engine.perform opening) := by
  have circuit := circuit_perform started opening provider
  refine ⟨(acts_perform started opening).started.trans started, after, ?_⟩
  by_cases concerned : provider = opening.provider
  · rw [if_pos concerned] at circuit
    rw [circuit] at after ⊢
    rcases changes_perform (engine.circuit provider) opening.instant
        opening.operation with
      ⟨state, -⟩ | ⟨-, -, -, state, -⟩ | ⟨-, -, reopens, -⟩ | ⟨-, state, -⟩ | ⟨state, -⟩
    · exact absurd (state.symm.trans after) before
    · rw [after] at state
      cases state
    · rw [reopens, configured.config provider, ends, Option.some_or]
    · rw [after] at state
      cases state
    · rw [after] at state
      cases state
  · rw [if_neg concerned] at circuit
    rw [circuit] at after
    exact absurd after before

/-- From the opening of a circuit at a time on, no request is let through before the recovery
time, rounded to microseconds, has passed, whatever calls come in between that do not end the
recovery by hand. -/
theorem refused_until_recovered (config : CircuitBreakerConfig) (before between : List Call)
    (opening : ProviderCall) (provider : String) (instant : Instant) {reopens : Timestamp}
    (ends : opening.instant.now.after? config.recoveryTimeoutSeconds = some reopens)
    (chronological : Chronological
      (before ++ .on opening :: between ++ [.on ⟨.allowRequest, instant, provider⟩]))
    (started : (run step (create config) before).started)
    (closed : ((run step (create config) before).circuit provider).state ≠ .circuitOpen)
    (opened : ((run step (create config) (before ++ [.on opening])).circuit provider).state =
      .circuitOpen) (undisturbed : ∀ call ∈ between, ¬ call.Disturbs provider)
    (early : instant.now < reopens) :
    ((run step (create config) (before ++ .on opening :: between)).allowRequest instant.now
      provider).1 = false := by
  have configured : Configured config (run step (create config) before) :=
    run_invariant (Configured config) (fun _ call configured => configured.step call)
      (configured_create config) before
  rw [run_append] at opened
  have recovering := recovering_of_opens configured started opening closed opened ends
  -- All calls in between come before the end of the recovery.
  have earlier : ∀ call ∈ between, ∀ time ∈ call.time?, time < reopens := by
    intro call member time isTime
    unfold Chronological at chronological
    rw [filterMap_append, pairwise_append] at chronological
    have inFront : time ∈ (before ++ .on opening :: between).filterMap Call.time? := by
      apply mem_filterMap.mpr
      exact ⟨call, mem_append_right _ (mem_cons_of_mem _ member), isTime⟩
    have notLater := chronological.2.2 time inFront instant.now mem_cons_self
    exact notLater.trans_lt early
  have along : Along step
      (fun _ call => ¬ call.Disturbs provider ∧ ∀ time ∈ call.time?, time < reopens)
      ((run step (create config) before).perform opening) between :=
    .of_forall_mem (fun call member _ => ⟨undisturbed call member, earlier call member⟩) _
  have still := along.invariant
    (fun _ _ recovering guarded => recovering.step guarded.1 guarded.2) recovering
  rw [run_append]
  exact still.refuses early

/-- Late outcomes and a further trip while the circuit is open. -/
def lateCalls : List Call :=
  [.on ⟨.recordSuccess, ⟨5, 5⟩, "p"⟩, .on ⟨.recordFailure, ⟨6, 6⟩, "p"⟩, .on ⟨.trip, ⟨7, 7⟩, "p"⟩]

theorem refused_after_lateCalls :
    ((run step (create {}) ([.start] ++ .on ⟨.trip, ⟨0, 0⟩, "p"⟩ :: lateCalls)).allowRequest 29
      "p").1 = false :=
  refused_until_recovered {} [.start] lateCalls ⟨.trip, ⟨0, 0⟩, "p"⟩ "p" ⟨29, 29⟩
    (show _ = some 30 by decide +kernel) (by decide +kernel) (by decide +kernel) (by decide +kernel)
    (by decide +kernel)
    (by decide +kernel) (by decide +kernel)

/-- A fraction of a microsecond is not waited for. -/
theorem admitted_before_timeout :
    let config : CircuitBreakerConfig := { recoveryTimeoutSeconds := 30 + 4 / 10 ^ 7 }
    let opened := run step (create config) [.start, .on ⟨.trip, ⟨0, 0⟩, "p"⟩]
    (opened.circuit "p").state = .circuitOpen ∧ 30 < 0 + config.recoveryTimeoutSeconds ∧
      (opened.allowRequest 30 "p").1 = true := by
  decide +kernel

end CircuitBreakerEngineImpl

end AgenticOS.OmniRoute
