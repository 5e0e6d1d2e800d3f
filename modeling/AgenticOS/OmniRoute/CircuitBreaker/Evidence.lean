import AgenticOS.OmniRoute.CircuitBreaker.Probes
import AgenticOS.OmniRoute.CircuitBreaker.Recovery

/-!
# The evidence for a recovery

A half-open circuit closes by the successes that are recorded while it is half-open. A success
does not say which request it is of, so that a request which was let through before the circuit
opened counts as a probe when its success comes late.
-/

namespace AgenticOS.OmniRoute

open AgenticOS.Transition List

namespace ProviderState

variable {circuit : ProviderState} {instant : Instant} {operation : Operation}

theorem probeSuccesses_moveTo (before : circuit.state ≠ .circuitHalfOpen) (now : Timestamp) :
    (circuit.moveTo now .circuitHalfOpen).halfOpenProbeSuccesses = 0 := by
  rw [moveTo, if_neg before]

theorem probeSuccesses_of_becomes (before : circuit.state ≠ .circuitHalfOpen)
    (after : (circuit.perform instant operation).state = .circuitHalfOpen) :
    (circuit.perform instant operation).halfOpenProbeSuccesses = 0 := by
  cases operation with
  | allowRequest =>
    change (circuit.asked instant.now).state = _ at after
    change (circuit.asked instant.now).halfOpenProbeSuccesses = 0
    by_cases admitted : circuit.admits instant.now
    · by_cases isOpen : circuit.state = .circuitOpen
      · rw [asked_of_open isOpen admitted]
        exact probeSuccesses_moveTo before instant.now
      · rw [asked_of_other isOpen before] at after
        exact absurd after before
    · rw [asked_of_refused admitted] at after
      exact absurd after before
  | recordSuccess =>
    have counted : (circuit.succeeded instant).state ≠ .circuitHalfOpen := before
    simp only [perform, counted, false_and, if_false] at after
  | recordFailure =>
    simp only [perform] at after
    split at after
    · rw [state_moveTo] at after
      cases after
    · exact absurd after before
  | reset => cases after
  | trip | close =>
    simp only [perform, state_moveTo] at after
    cases after
  | halfOpen => exact probeSuccesses_moveTo before instant.now

section

variable (before : circuit.state = .circuitHalfOpen)
include before

theorem succeeded_of_halfOpen (instant : Instant) :
    (circuit.succeeded instant).state = .circuitHalfOpen ∧
      (circuit.succeeded instant).config = circuit.config ∧
      (circuit.succeeded instant).halfOpenProbeSuccesses =
        circuit.halfOpenProbeSuccesses + 1 := by
  simp [succeeded, before]

theorem closed_of_success_iff : (circuit.perform instant .recordSuccess).state = .closed ↔
      circuit.config.halfOpenProbeCount ≤ circuit.halfOpenProbeSuccesses + 1 := by
  rcases succeeded_of_halfOpen before instant with ⟨state, config, successes⟩
  simp only [perform, state, config, successes, true_and]
  split
  next enough => simp [enough]
  next few => simp [few, state]

theorem probeSuccesses_of_stays
    (after : (circuit.perform instant operation).state = .circuitHalfOpen) :
    (circuit.perform instant operation).halfOpenProbeSuccesses =
        circuit.halfOpenProbeSuccesses + (if operation = .recordSuccess then 1 else 0) ∧
      (operation = .recordSuccess →
        circuit.halfOpenProbeSuccesses + 1 < circuit.config.halfOpenProbeCount) := by
  cases operation with
  | allowRequest =>
    change (circuit.asked instant.now).halfOpenProbeSuccesses = _ ∧ _
    by_cases admitted : circuit.admits instant.now
    · rw [asked_of_halfOpen before admitted]
      simp
    · rw [asked_of_refused admitted]
      simp
  | recordSuccess =>
    rcases succeeded_of_halfOpen before instant with ⟨state, config, successes⟩
    simp only [perform, state, config, successes, true_and] at after ⊢
    split at after
    · rw [state_moveTo] at after
      cases after
    next few =>
      rw [if_neg few, successes]
      simpa using few
  | recordFailure =>
    have trips : circuit.TripsOn instant := .inr before
    simp only [perform, trips, if_true, state_moveTo] at after
    cases after
  | reset => cases after
  | trip | close =>
    simp only [perform, state_moveTo] at after
    cases after
  | halfOpen =>
    simp only [perform, moveTo_of_state before]
    simp

end

end ProviderState

namespace CircuitBreakerEngineImpl

variable {engine : CircuitBreakerEngineImpl} {provider : String} {config : CircuitBreakerConfig}

def LetsThrough (provider : String) (engine : CircuitBreakerEngineImpl) : Call → Prop
  | .on call => Admits provider engine call
  | .start | .stop | .dispose => False

def CountsProbe (provider : String) (engine : CircuitBreakerEngineImpl) : Call → Prop
  | .on call => call.operation = .recordSuccess ∧ call.provider = provider ∧ engine.started ∧
      engine.HalfOpen provider
  | .start | .stop | .dispose => False

instance : (call : Call) → Decidable (LetsThrough provider engine call)
  | .on call => inferInstanceAs (Decidable (Admits provider engine call))
  | .start | .stop | .dispose => inferInstanceAs (Decidable False)

instance : (call : Call) → Decidable (CountsProbe provider engine call)
  | .on _ => inferInstanceAs (Decidable (_ ∧ _ ∧ _ ∧ _))
  | .start | .stop | .dispose => inferInstanceAs (Decidable False)

theorem countsProbe_iff (before : engine.HalfOpen provider) (call : ProviderCall) :
    CountsProbe provider engine (.on call) ↔
      call.operation = .recordSuccess ∧ call.provider = provider ∧ engine.Hears call := by
  constructor
  · rintro ⟨success, concerned, started, -⟩
    exact ⟨success, concerned, by simp [Hears, success, started]⟩
  · rintro ⟨success, concerned, hears⟩
    exact ⟨success, concerned, by simpa [Hears, success] using hears, before⟩

theorem CountsProbe.halfOpen {call : Call} (success : CountsProbe provider engine call) :
    engine.HalfOpen provider := by
  cases call with
  | on call => exact success.2.2.2
  | start | stop | dispose => exact success.elim

theorem CountsProbe.not_letsThrough {call : Call} (success : CountsProbe provider engine call) :
    ¬ LetsThrough provider engine call := by
  cases call with
  | on call =>
    intro admits
    have request := admits.1.symm.trans success.1
    cases request
  | start | stop | dispose => exact success.elim

theorem probeSuccesses_step_of_stays (configured : Configured config engine) (call : Call)
    (before : engine.HalfOpen provider) (after : (engine.step call).HalfOpen provider) :
    ((engine.step call).circuit provider).halfOpenProbeSuccesses =
        (engine.circuit provider).halfOpenProbeSuccesses +
          (if CountsProbe provider engine call then 1 else 0) ∧
      (CountsProbe provider engine call →
        (engine.circuit provider).halfOpenProbeSuccesses + 1 < config.halfOpenProbeCount) := by
  cases call with
  | on call =>
    have circuit := circuit_step_on engine call provider
    have counted := countsProbe_iff before call
    unfold HalfOpen at before after
    by_cases reached : call.provider = provider ∧ engine.Hears call
    · have isSuccess : CountsProbe provider engine (.on call) ↔
          call.operation = .recordSuccess := counted.trans (and_iff_left reached)
      rw [if_pos reached] at circuit
      rw [circuit] at after ⊢
      have counts := ProviderState.probeSuccesses_of_stays before after
      rw [configured.config provider] at counts
      simp only [isSuccess]
      exact counts
    · have silent : ¬ CountsProbe provider engine (.on call) :=
        fun counts => reached (counted.mp counts).2
      rw [if_neg reached] at circuit
      rw [circuit, if_neg silent, add_zero]
      exact ⟨rfl, fun counts => absurd counts silent⟩
  | start | stop => exact ⟨(add_zero _).symm, False.elim⟩
  | dispose => cases after

theorem probeSuccesses_step_of_becomes (call : Call) (before : ¬ engine.HalfOpen provider)
    (after : (engine.step call).HalfOpen provider) :
    ((engine.step call).circuit provider).halfOpenProbeSuccesses = 0 := by
  cases call with
  | on call =>
    have circuit := circuit_step_on engine call provider
    unfold HalfOpen at before after
    by_cases reached : call.provider = provider ∧ engine.Hears call
    · rw [if_pos reached] at circuit
      rw [circuit] at after ⊢
      exact ProviderState.probeSuccesses_of_becomes before after
    · rw [if_neg reached] at circuit
      rw [circuit] at after
      exact absurd after before
  | start | stop => exact absurd after before
  | dispose => cases after

end CircuitBreakerEngineImpl

structure Report where
  call : CircuitBreakerEngineImpl.Call
  request : ℕ := 0

/-- An engine, with the requests that it lets through to a provider. Half-open periods and
requests are numbered as they come. -/
structure Attended where
  engine : CircuitBreakerEngineImpl
  /-- The number of half-open periods that have begun. -/
  period : ℕ := 0
  /-- For each request the half-open period in which it was let through, if it was in one. -/
  admitted : List (Option ℕ) := []
  /-- The requests whose successes were recorded in the half-open period. -/
  successes : List ℕ := []

namespace Attended

open CircuitBreakerEngineImpl

variable {attended : Attended} {provider : String} {config : CircuitBreakerConfig}

def Begins (provider : String) (attended : Attended) (report : Report) : Prop :=
  ¬ attended.engine.HalfOpen provider ∧ (attended.engine.step report.call).HalfOpen provider
deriving Decidable

def step (provider : String) (attended : Attended) (report : Report) : Attended :=
  let engine := attended.engine.step report.call
  let period := attended.period + if Begins provider attended report then 1 else 0
  { engine
    period
    admitted :=
      if LetsThrough provider attended.engine report.call then
        attended.admitted ++ [if engine.HalfOpen provider then some period else none]
      else attended.admitted
    successes :=
      if Begins provider attended report then []
      else if CountsProbe provider attended.engine report.call then
        attended.successes ++ [report.request]
      else attended.successes }

/-- The request was let through in the present half-open period. -/
def IsProbe (attended : Attended) (request : ℕ) : Prop :=
  attended.admitted[request]? = some (some attended.period)
deriving Decidable

def Recovers (provider : String) (attended : Attended) (report : Report) : Prop :=
  CountsProbe provider attended.engine report.call ∧
    ((attended.engine.step report.call).circuit provider).state = .closed
deriving Decidable

/-- A success that closes the circuit is one of a request that was let through in the same
half-open period, and so are as many as the circuit needs. -/
def Proven (provider : String) (attended : Attended) (report : Report) : Prop :=
  Recovers provider attended report →
    let after := attended.step provider report
    (attended.engine.circuit provider).config.halfOpenProbeCount ≤
        (after.successes.countP fun request => after.IsProbe request) ∧
      after.IsProbe report.request
deriving Decidable

/-- The success finds the half-open circuit in need of one success at most. -/
def Completes (provider : String) (attended : Attended) (report : Report) : Prop :=
  CountsProbe provider attended.engine report.call ∧
    (attended.engine.circuit provider).config.halfOpenProbeCount ≤
      (attended.engine.circuit provider).halfOpenProbeSuccesses + 1

/-- When a success finds the half-open circuit in need of one success at most, no success of the
half-open period is one of a request that was let through outside it. -/
def NoneLate (provider : String) (attended : Attended) (report : Report) : Prop :=
  Completes provider attended report →
    ∀ request ∈ attended.successes ++ [report.request], attended.IsProbe request

structure Counts (config : CircuitBreakerConfig) (provider : String) (attended : Attended) :
    Prop where
  configured : Configured config attended.engine
  counted : attended.engine.HalfOpen provider →
    (attended.engine.circuit provider).halfOpenProbeSuccesses = attended.successes.length
  few : attended.engine.HalfOpen provider →
    attended.successes = [] ∨ (attended.successes.length : ℤ) < config.halfOpenProbeCount

theorem counts_create (config : CircuitBreakerConfig) (provider : String) :
    Counts config provider { engine := create config } :=
  ⟨configured_create config, fun _ => rfl, fun _ => .inl rfl⟩

theorem successes_step (before : attended.engine.HalfOpen provider) (report : Report) :
    (attended.step provider report).successes =
      if CountsProbe provider attended.engine report.call then
        attended.successes ++ [report.request]
      else attended.successes :=
  if_neg fun begins => begins.1 before

theorem Counts.step (counts : Counts config provider attended) (report : Report) :
    Counts config provider (attended.step provider report) := by
  have configured := counts.configured.step report.call
  by_cases before : attended.engine.HalfOpen provider
  · have successes := successes_step before report
    have stays := probeSuccesses_step_of_stays counts.configured report.call before
    rw [counts.counted before] at stays
    by_cases success : CountsProbe provider attended.engine report.call
    · simp only [if_pos success] at successes stays
      refine ⟨configured, fun after => ?_, fun after => ?_⟩
      · rw [successes, length_append, length_singleton]
        exact_mod_cast (stays after).1
      · rw [successes, length_append, length_singleton]
        exact .inr (by exact_mod_cast (stays after).2 success)
    · simp only [if_neg success, add_zero] at successes stays
      refine ⟨configured, fun after => ?_, fun _ => ?_⟩
      · rw [successes]
        exact (stays after).1
      · rw [successes]
        exact counts.few before
  · have fresh : (attended.engine.step report.call).HalfOpen provider →
        (attended.step provider report).successes = [] := fun after => if_pos ⟨before, after⟩
    refine ⟨configured, fun after => ?_, fun after => .inl (fresh after)⟩
    rw [fresh after]
    exact probeSuccesses_step_of_becomes report.call before after

theorem recovers_iff (report : Report) :
    Recovers provider attended report ↔ Completes provider attended report := by
  refine and_congr_right fun success => ?_
  cases isCall : report.call with
  | on call =>
    rw [isCall] at success
    have counted := (countsProbe_iff success.halfOpen call).mp success
    rw [circuit_step_on, if_pos counted.2, counted.1]
    exact ProviderState.closed_of_success_iff success.halfOpen
  | start | stop | dispose =>
    rw [isCall] at success
    exact success.elim

theorem step_of_countsProbe {report : Report}
    (success : CountsProbe provider attended.engine report.call) :
    attended.step provider report =
      { attended with
        engine := attended.engine.step report.call
        successes := attended.successes ++ [report.request] } := by
  have stays : ¬ Begins provider attended report := fun begins => begins.1 success.halfOpen
  simp [Attended.step, stays, success.not_letsThrough, success]

/-- Among at most as many successes as the circuit needs there are as many of its probes only if
each is one. -/
theorem Counts.proven_iff (counts : Counts config provider attended) (report : Report) :
    Proven provider attended report ↔ NoneLate provider attended report := by
  unfold Proven NoneLate
  rw [recovers_iff]
  refine forall_congr' fun completes => ?_
  have success := completes.1
  have enough := completes.2
  rw [counts.configured.config provider, counts.counted success.halfOpen] at enough
  rw [step_of_countsProbe success, counts.configured.config provider]
  have length : (attended.successes ++ [report.request]).length = attended.successes.length + 1 :=
    length_append
  have all := countP_eq_length (p := fun request => decide (attended.IsProbe request))
    (l := attended.successes ++ [report.request])
  simp only [decide_eq_true_eq] at all
  rw [← all, length]
  change _ ≤ ((attended.successes ++ [report.request]).countP fun request =>
    decide (attended.IsProbe request) : ℤ) ∧ attended.IsProbe report.request ↔ _
  constructor
  · rintro ⟨needed, isProbe⟩
    rcases counts.few success.halfOpen with none | few
    · simp [none, isProbe]
    · have most := countP_le_length (l := attended.successes ++ [report.request])
        (p := fun request => decide (attended.IsProbe request))
      omega
  · intro every
    refine ⟨by omega, ?_⟩
    exact all.mp (every.trans length.symm) report.request (by simp)

/-- The circuit is closed on the evidence of its probes along a run exactly if no late success
is there when it closes. -/
theorem along_proven_iff (config : CircuitBreakerConfig) (provider : String)
    (reports : List Report) :
    Along (Attended.step provider) (Proven provider) { engine := create config } reports ↔
      Along (Attended.step provider) (NoneLate provider) { engine := create config } reports := by
  have start := counts_create config provider
  constructor
  · intro proven
    exact proven.imp_of_invariant (fun _ report counts _ => counts.step report)
      (fun _ report counts => (counts.proven_iff report).mp) start
  · intro punctual
    exact punctual.imp_of_invariant (fun _ report counts _ => counts.step report)
      (fun _ report counts => (counts.proven_iff report).mpr) start

def Reports : Call → Prop
  | .on call => call.operation = .recordSuccess ∨ call.operation = .recordFailure
  | .start | .stop | .dispose => False

instance : (call : Call) → Decidable (Reports call)
  | .on _ => inferInstanceAs (Decidable (_ ∨ _))
  | .start | .stop | .dispose => inferInstanceAs (Decidable False)

/-- Each outcome is one of a request that was let through, and no request has two. -/
def Attributed (provider : String) (config : CircuitBreakerConfig) (reports : List Report) : Prop :=
  ((reports.filter fun report => Reports report.call).map Report.request).Nodup ∧
    Along (Attended.step provider) (fun attended report =>
      Reports report.call → report.request < attended.admitted.length)
      { engine := create config } reports
deriving Decidable

/-- Seven requests are let through; five fail and open the circuit. -/
def openedByFailures : List Report :=
  ⟨.start, 0⟩ :: replicate 7 ⟨.on (callAt .allowRequest 0), 0⟩ ++
    (range 5).map fun request => ⟨.on (callAt .recordFailure 0), request⟩

/-- After the recovery time a probe is let through. The successes of the two requests from
before the failures come first. -/
def lateSuccesses : List Report :=
  openedByFailures ++ [⟨.on (callAt .allowRequest 30), 0⟩,
    ⟨.on (callAt .recordSuccess 31), 5⟩, ⟨.on (callAt .recordSuccess 32), 6⟩]

/-- They close the circuit. -/
theorem not_proven_lateSuccesses : Attributed "p" {} lateSuccesses ∧
      ((run CircuitBreakerEngineImpl.step (create {})
        (lateSuccesses.map Report.call)).circuit "p").state = .closed ∧
      ¬ Along (Attended.step "p") (Proven "p") { engine := create {} } lateSuccesses := by
  decide +kernel

/-- Two probes that succeed close it, too. -/
example :
    Along (Attended.step "p") (Proven "p") { engine := create {} } (openedByFailures ++
      [⟨.on (callAt .allowRequest 30), 0⟩, ⟨.on (callAt .allowRequest 30), 0⟩,
        ⟨.on (callAt .recordSuccess 31), 7⟩, ⟨.on (callAt .recordSuccess 32), 8⟩]) := by
  decide +kernel

end Attended

end AgenticOS.OmniRoute
