import AgenticOS.Data.Dict
import AgenticOS.Transition.Run
import Mathlib.Data.Finset.Basic

/-!
# The lifecycle manager

Services are started and stopped phase by phase, and their failures are handled. The startups,
the shutdowns and the failure handlings that are under way are tasks, each of which waits for
one call of a service. A step of the manager is a new call, or what one task does from the
answer that it waits for to its next wait.
-/

namespace AgenticOS.Lifecycle

inductive Phase
  | critical | infrastructure | core | domain | omniroute | advanced
  deriving DecidableEq

/-- `PHASE_REVERSE`. -/
def Phase.reverse : List Phase :=
  [.advanced, .omniroute, .domain, .core, .infrastructure, .critical]

inductive ServiceState
  | initializing | loading | ready | failed | recovering | healthy | degraded | offline
  | stopping | stopped | disposed
  deriving DecidableEq

/-- The hooks that the manager calls while it starts and stops a service. -/
inductive Hook
  | beforeStart | afterStart | beforeStop | afterStop
  deriving DecidableEq

/-- What a service or a hook raises. -/
inductive Raised
  | timeout
  | error (text : String)
  deriving DecidableEq

/-- The answer to a call of a service. What is returned is good or not: a repair has succeeded,
the health is as it should be. -/
inductive Answer
  | returned (good : Bool)
  | raised (what : Raised)
  deriving DecidableEq

abbrev Hooks := Hook → String → Option Raised

structure ServiceRecord where
  phase : Phase
  state : ServiceState := .initializing
  failureCount : Nat := 0
  lastError : Option String := none

/-- A startup of a service, by the call that it waits for. -/
inductive BootStage
  | scheduled | inInitialize | inStart | inHealth
  deriving DecidableEq

/-- A shutdown: the phases that are still to come, the services of the phase at hand that are
not disposed of, and whether it waits for `dispose` or `stop` of the first. -/
structure Shutdown where
  phases : List Phase
  pending : List String
  disposing : Bool

/-- A failure handling, which waits for `restart` or `repair` of its service. -/
structure Handling where
  serviceId : String
  restarting : Bool

structure LifecycleManager where
  records : Dict String ServiceRecord := .empty
  boots : Dict Nat (String × BootStage) := .empty
  shutdowns : Dict Nat Shutdown := .empty
  handlings : Dict Nat Handling := .empty
  /-- The number of the next task. -/
  tasks : Nat := 0
  /-- The services whose instance was restarted, the last one first. -/
  restarts : List String := []
  /-- The services that a shutdown has moved to `DISPOSED` and that were not started since. -/
  closed : Finset String := ∅

namespace LifecycleManager

variable (manager : LifecycleManager)

variable (serviceId : String)

def stateOf : Option ServiceState :=
  (manager.records.get? serviceId).map ServiceRecord.state

def transition (newState : ServiceState) (error : Option String) : LifecycleManager :=
  match manager.records.get? serviceId with
  | none => manager
  | some record =>
    let reached :=
      { record with
        state := newState
        lastError := (error.filter (· ≠ "")).or record.lastError }
    { manager with records := manager.records.set serviceId reached }

/-- `get_services_by_phase`. -/
def servicesOf (phase : Phase) : List String :=
  (manager.records.entries.filter fun entry => entry.2.phase = phase).map Prod.fst

def registerService (phase : Phase) : LifecycleManager :=
  { manager with
    records := manager.records.set serviceId { phase := phase }
    closed := manager.closed.erase serviceId }

def startPhase (phase : Phase) : LifecycleManager :=
  let services := manager.servicesOf phase
  { manager with
    boots := services.zipIdx.foldl
      (fun boots entry => boots.set (manager.tasks + entry.2) (entry.1, .scheduled))
      manager.boots
    tasks := manager.tasks + services.length
    closed := manager.closed.filter (· ∉ services) }

/-- The end of a startup with an exception. -/
def bootFailed : Raised → LifecycleManager
  | .timeout => manager.transition serviceId .failed (some "startup timed out")
  | .error text => manager.transition serviceId .failed (some text)

/-- `_boot_service`, from one of its waits to the next. -/
def bootService (hooks : Hooks) (serviceId : String) :
    BootStage → Answer → LifecycleManager × Option BootStage
  | .scheduled, _ =>
    let next := manager.transition serviceId .initializing none
    match hooks .beforeStart serviceId with
    | some what => (next.bootFailed serviceId what, none)
    | none => (next, some .inInitialize)
  | .inInitialize, .raised what => (manager.bootFailed serviceId what, none)
  | .inInitialize, .returned _ => (manager.transition serviceId .loading none, some .inStart)
  | .inStart, .raised what => (manager.bootFailed serviceId what, none)
  | .inStart, .returned _ => (manager.transition serviceId .ready none, some .inHealth)
  | .inHealth, answer =>
    let next := manager.transition serviceId
      (if answer = .returned true then .healthy else .degraded) none
    match hooks .afterStart serviceId with
    | some what => (next.bootFailed serviceId what, none)
    | none => (next, none)

/-- The transition to `DISPOSED`. -/
def dispose : LifecycleManager :=
  match manager.records.get? serviceId with
  | none => manager
  | some _ =>
    { manager.transition serviceId .disposed none with
      closed := insert serviceId manager.closed }

def stopFailed : Raised → LifecycleManager
  | .timeout =>
    (manager.transition serviceId .stopped (some "stop timed out, force-disposed")).dispose
      serviceId
  | .error text => manager.transition serviceId .failed (some text)

/-- The services of a phase, up to the first one whose `stop` is waited for. -/
def stopServices (hooks : Hooks) : LifecycleManager → List String →
    LifecycleManager × List String
  | manager, [] => (manager, [])
  | manager, serviceId :: rest =>
    let next := transition manager serviceId .stopping none
    match hooks .beforeStop serviceId with
    | some what => stopServices hooks (next.stopFailed serviceId what) rest
    | none => (next, serviceId :: rest)

/-- The phases of a shutdown, up to the first service whose `stop` is waited for. -/
def stopPhases (hooks : Hooks) : LifecycleManager → List Phase →
    LifecycleManager × Option Shutdown
  | manager, [] => (manager, none)
  | manager, phase :: phases =>
    match stopServices hooks manager (manager.servicesOf phase).reverse with
    | (next, []) => stopPhases hooks next phases
    | (next, pending) => (next, some ⟨phases, pending, false⟩)

def stopRest (hooks : Hooks) (phases : List Phase) (rest : List String) :
    LifecycleManager × Option Shutdown :=
  match stopServices hooks manager rest with
  | (next, []) => stopPhases hooks next phases
  | (next, pending) => (next, some ⟨phases, pending, false⟩)

def stopPhase (hooks : Hooks) (shutdown : Shutdown) (answer : Answer) :
    LifecycleManager × Option Shutdown :=
  match shutdown.pending with
  | [] => stopPhases hooks manager shutdown.phases
  | serviceId :: rest =>
    match shutdown.disposing, answer with
    | _, .raised what => (manager.stopFailed serviceId what).stopRest hooks shutdown.phases rest
    | false, .returned _ =>
      (manager.transition serviceId .stopped none, some { shutdown with disposing := true })
    | true, .returned _ =>
      let next := manager.dispose serviceId
      match hooks .afterStop serviceId with
      | some what => (next.stopFailed serviceId what).stopRest hooks shutdown.phases rest
      | none => next.stopRest hooks shutdown.phases rest

/-- The call of `stop`, or of `stop_phase`. -/
def shutDown (hooks : Hooks) (phases : List Phase) : LifecycleManager :=
  match manager.stopPhases hooks phases with
  | (next, none) => next
  | (next, some shutdown) =>
    { next with
      shutdowns := next.shutdowns.set next.tasks shutdown
      tasks := next.tasks + 1 }

/-! ## Failures -/

/-- The call of `on_service_failure`, up to `repair`. -/
def onServiceFailure (serviceId error : String) : LifecycleManager :=
  match manager.records.get? serviceId with
  | none => manager
  | some record =>
    let failure := { record with failureCount := record.failureCount + 1 }
    let counted := { manager with records := manager.records.set serviceId failure }
    { counted.transition serviceId .failed (some error) with
      handlings := manager.handlings.set manager.tasks ⟨serviceId, false⟩
      tasks := manager.tasks + 1 }

/-- `on_service_failure`, from the answer to `repair` or `restart` on. -/
def handle (number : Nat) (handling : Handling) (answer : Answer) : LifecycleManager :=
  match handling.restarting, answer with
  | false, .returned true =>
    { manager.transition handling.serviceId .recovering none with
      handlings := manager.handlings.set number { handling with restarting := true }
      restarts := handling.serviceId :: manager.restarts }
  | true, .returned _ =>
    { manager.transition handling.serviceId .ready none with
      handlings := manager.handlings.erase number }
  | _, _ =>
    { manager.transition handling.serviceId .degraded (some "repair failed") with
      handlings := manager.handlings.erase number }

inductive Action
  | registerService (serviceId : String) (phase : Phase)
  | startPhase (phase : Phase)
  | bootAnswer (number : Nat) (answer : Answer) (hooks : Hooks)
  | stop (hooks : Hooks)
  | stopPhase (phase : Phase) (hooks : Hooks)
  | stopAnswer (number : Nat) (answer : Answer) (hooks : Hooks)
  | onServiceFailure (serviceId error : String)
  | failureAnswer (number : Nat) (answer : Answer)

def step (manager : LifecycleManager) : Action → LifecycleManager
  | .registerService serviceId phase => manager.registerService serviceId phase
  | .startPhase phase => manager.startPhase phase
  | .bootAnswer number answer hooks =>
    match manager.boots.get? number with
    | none => manager
    | some (serviceId, stage) =>
      match manager.bootService hooks serviceId stage answer with
      | (next, none) => { next with boots := next.boots.erase number }
      | (next, some stage) => { next with boots := next.boots.set number (serviceId, stage) }
  | .stop hooks => manager.shutDown hooks Phase.reverse
  | .stopPhase phase hooks => manager.shutDown hooks [phase]
  | .stopAnswer number answer hooks =>
    match manager.shutdowns.get? number with
    | none => manager
    | some shutdown =>
      match manager.stopPhase hooks shutdown answer with
      | (next, none) => { next with shutdowns := next.shutdowns.erase number }
      | (next, some shutdown) => { next with shutdowns := next.shutdowns.set number shutdown }
  | .onServiceFailure serviceId error => manager.onServiceFailure serviceId error
  | .failureAnswer number answer =>
    match manager.handlings.get? number with
    | none => manager
    | some handling => manager.handle number handling answer

end LifecycleManager

end AgenticOS.Lifecycle
