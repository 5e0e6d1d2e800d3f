import AgenticOS.Orchestrator.Dispatch
import AgenticOS.Transition.Outcome

/-!
# What the calls of a run come to

How a run goes on is decided by the answers to its calls. This module reads them off the
environment, by the number of the call: `replyAt` says what an attempt comes to,
`fallbackChoice` which provider stands in. The theorems say that the programs go the way
that these functions describe, and what they leave untouched on it.

What is read off does not depend on the task beyond its number of attempts, its title and
its role; that nobody else changes these is `Undisturbed`.
-/

namespace AgenticOS.Orchestrator

open Transition Program

/-- The call returns. -/
def Served {α : Type} (answer : Except Raised α) : Prop :=
  ∃ value, answer = .ok value

def Uncancelled {α : Type} (answer : Except Raised α) : Prop :=
  answer ≠ .error .cancelled

section

variable {α : Type}

@[simp]
theorem served_ok (value : α) : Served (.ok value : Except Raised α) :=
  ⟨value, rfl⟩

@[simp]
theorem not_served_error (raised : Raised) : ¬ Served (.error raised : Except Raised α) := by
  rintro ⟨value, impossible⟩
  cases impossible

@[simp]
theorem uncancelled_ok (value : α) : Uncancelled (.ok value : Except Raised α) := by
  intro impossible
  cases impossible

@[simp]
theorem uncancelled_exception (message : String) :
    Uncancelled (.error (.exception message) : Except Raised α) := by
  intro impossible
  cases impossible

@[simp]
theorem not_uncancelled_cancelled : ¬ Uncancelled (.error .cancelled : Except Raised α) :=
  fun uncancelled => uncancelled rfl

end

/-- Nobody else changes what the orchestrator decides by. -/
structure Undisturbed (env : Environment) : Prop where
  status : ∀ call task, (env.meanwhile call task).status = task.status
  attempts : ∀ call task, (env.meanwhile call task).attempts = task.attempts
  title : ∀ call task, (env.meanwhile call task).title = task.title
  role : ∀ call task, (env.meanwhile call task).role = task.role

/-- Nothing that decides how the run goes on has changed. -/
structure Alike (before after : RunState) : Prop where
  attempts : after.task.attempts = before.task.attempts
  title : after.task.title = before.task.title
  role : after.task.role = before.task.role
  failedProviders : after.failedProviders = before.failedProviders
  providerRrIdx : after.providerRrIdx = before.providerRrIdx

theorem Alike.trans {first second third : RunState} (alike : Alike first second)
    (alikeNext : Alike second third) : Alike first third where
  attempts := alikeNext.attempts.trans alike.attempts
  title := alikeNext.title.trans alike.title
  role := alikeNext.role.trans alike.role
  failedProviders := alikeNext.failedProviders.trans alike.failedProviders
  providerRrIdx := alikeNext.providerRrIdx.trans alike.providerRrIdx

/-- Neither the status of the task nor an agent has changed, either. -/
structure Unmoved (before after : RunState) : Prop extends Alike before after where
  status : after.task.status = before.task.status
  agents : after.agents = before.agents

/-- What an attempt comes to; the number is that of the first call behind it. -/
inductive Reply where
  | cancelled
  | raised (next : Nat)
  | refused (next : Nat)
  | accepted (answer : String) (next : Nat)

section

variable (env : Environment)

/-- The reply to an attempt, by the number of its first call. -/
def replyAt (call : Nat) : Reply :=
  match env.execute (call + 1) with
  | .error .cancelled => .cancelled
  | .error (.exception _) => .raised (call + 2)
  | .ok answer =>
    if PassesGuards env.lower (answer.getD "") then
      .accepted (answer.getD "") (call + 2)
    else
      match env.finishExecution (call + 2) with
      | .ok _ => .refused (call + 3)
      | .error .cancelled => .cancelled
      | .error (.exception _) => .raised (call + 3)

def extracts (answer : String) (call : Nat) : Bool :=
  (env.workspaceRoot call).isSome && decide (10 < answer.length)

/-- An accepted answer is verified to the end; its first call has this number. -/
def Verifies (cwd : Option String) (answer : String) (call : Nat) : Prop :=
  if extracts env answer call then
    Uncancelled (env.extractAndPersistFiles (call + 1)) ∧
      (cwd.getD "" = "" ∨ Uncancelled (env.capture (call + 2)))
  else cwd.getD "" = "" ∨ Uncancelled (env.capture (call + 1))

/-- What the announcement of a result comes to: it ends the attempt, or it raises an
exception; the number is that of the first call behind it. -/
inductive Announcement where
  | ended
  | raised (next : Nat)

/-- Publish a number of events. -/
def announce (call : Nat) : Nat → Announcement
  | 0 => .ended
  | topics + 1 =>
    match env.publish (call + 1) with
    | .ok _ => announce (call + 2) topics
    | .error .cancelled => .ended
    | .error (.exception _) => .raised (call + 2)

/-- Record the end of the execution, and publish the result. -/
def announceEnd (ok : Bool) (call : Nat) : Announcement :=
  match env.finishExecution call with
  | .ok _ => announce env (call + 1) (if ok = true then 2 else 1)
  | .error .cancelled => .ended
  | .error (.exception _) => .raised (call + 1)

/-- Verify an accepted answer, and announce the result. -/
def announceVerified (role : String) (before : Option WorkspaceSnapshot) (cwd : Option String)
    (savedFiles : List String) (call : Nat) : Announcement :=
  let verified (after : Option WorkspaceSnapshot) (files : FileSystem) : Bool :=
    (verifyTaskExecution env.paths files role
      { savedFiles, before, after, wsRoot := cwd.getD "" }).ok
  if cwd.getD "" = "" then
    announceEnd env (verified none (env.files call)) (call + 1)
  else
    match env.capture call with
    | .ok snapshot => announceEnd env
        (verified (some snapshot) (env.files (call + 1))) (call + 2)
    | .error (.exception _) => announceEnd env false (call + 1)
    | .error .cancelled => .ended

def announcementAt (role : String) (before : Option WorkspaceSnapshot) (cwd : Option String)
    (answer : String) (call : Nat) : Announcement :=
  if extracts env answer call then
    match env.extractAndPersistFiles (call + 1) with
    | .ok files => announceVerified env role before cwd files (call + 2)
    | .error (.exception _) => announceVerified env role before cwd [] (call + 2)
    | .error .cancelled => .ended
  else announceVerified env role before cwd [] (call + 1)

/-- The provider that stands in for another one, chosen from this call on. -/
def fallbackChoice (state : RunState) (currentName : String) (call : Nat) : Option ProviderInfo :=
  let providers := env.providers (call + 1)
  let failedProviders := coolDown (env.monotonic (call + 2))
    (state.failedProviders.set currentName (env.monotonic call))
  let candidates :=
    providers.values.filter (isFallback currentName state.task.role failedProviders)
  match candidates[state.providerRrIdx % candidates.length]? with
  | none => none
  | some candidate => providers.get? candidate.name

def Excused (providerName title : String) (provider : ProviderInfo) : Prop :=
  providerName = "mock" ∨ provider.name = "mock" ∨
    contains (env.lower title) "fail on purpose" = true
deriving Decidable

/-- The provider that is selected for the task from this call on, and whose turn is next. -/
def selectionAt (dispatch : Dispatch) (state : RunState) (call : Nat) :
    Option (ProviderInfo × Nat) :=
  let providers := env.providers call
  let failedProviders := coolDown (env.monotonic (call + 1)) state.failedProviders
  let candidates := preferAgents env.lower dispatch.preferredAgents
    (providers.values.filter (isCandidate state.task.role failedProviders))
  if providers.values = [] then none
  else if candidates = [] then
    (defaultProvider providers dispatch.providerDefault).map fun provider =>
      (provider, state.providerRrIdx)
  else
    let best := preferAiAgents candidates
    match best[state.providerRrIdx % best.length]? with
    | none => none
    | some chosen => (providers.get? chosen.name).map fun provider =>
      (provider, state.providerRrIdx + 1)

end

section

variable {env : Environment} {state : RunState}

@[simp]
theorem ends_updateTask {property : Except Raised Unit → RunState → Prop} (change : Task → Task) :
    Ends property (updateTask change) state ↔
      property (.ok ()) { state with task := change state.task } :=
  .rfl

@[simp]
theorem ends_record {property : Except Raised Unit → RunState → Prop} (event : Event) :
    Ends property (record event) state ↔
      property (.ok ()) { state with trace := state.trace ++ [event] } :=
  .rfl

@[simp]
theorem ends_moveTo {property : Except Raised Unit → RunState → Prop} (status : TaskStatus) :
    Ends property (moveTo status) state ↔
      property (.ok ()) { state with
        task := { state.task with status := status }
        trace := state.trace ++ [.moved status] } :=
  .rfl

@[simp]
theorem ends_markAgent {property : Except Raised Unit → RunState → Prop} (agentId : String)
    (status : AgentStatus) : Ends property (markAgent agentId status) state ↔
      property (.ok ()) { state with agents := state.agents.set agentId status } :=
  .rfl

variable {α : Type} {property : Except Raised α → RunState → Prop}

@[simp]
theorem ends_observe (answer : Nat → α) : Ends property (observe answer) state ↔
      property (.ok (answer state.calls)) { state with calls := state.calls + 1 } :=
  .rfl

@[simp]
theorem ends_ask (answer : Nat → Except Raised α) : Ends property (ask answer) state ↔
      property (answer state.calls) { state with calls := state.calls + 1 } := by
  unfold ask
  rw [ends_bind, ends_observe, andThen_ok]
  cases answer state.calls <;> exact .rfl

@[simp]
theorem ends_await (answer : Nat → Except Raised α) :
    Ends property (await env answer) state ↔
      property (answer (state.calls + 1)) { state with
        task := env.meanwhile state.calls state.task
        calls := state.calls + 2 } := by
  unfold await
  rw [ends_bind, ends_observe, andThen_ok, ends_bind, ends_updateTask, andThen_ok, ends_ask]

/-- What is left to show behind `try` and `except Exception`. -/
def orCaught (property : Except Raised α → RunState → Prop) (handler : String → Program α) :
    Except Raised α → RunState → Prop
  | .ok value, after => property (.ok value) after
  | .error (.exception message), after => Ends property (handler message) after
  | .error .cancelled, after => property (.error .cancelled) after

variable (handler : String → Program α)

@[simp]
theorem orCaught_ok (value : α) :
    orCaught property handler (.ok value) state ↔ property (.ok value) state :=
  .rfl

@[simp]
theorem orCaught_exception (message : String) :
    orCaught property handler (.error (.exception message)) state ↔
      Ends property (handler message) state :=
  .rfl

@[simp]
theorem orCaught_cancelled :
    orCaught property handler (.error .cancelled) state ↔ property (.error .cancelled) state :=
  .rfl

@[simp]
theorem ends_attempting (program : Program α) (handler : String → Program α) :
    Ends property (attempting program handler) state ↔
      Ends (orCaught property handler) program state := by
  unfold attempting
  rw [ends_tryCatch]
  unfold Ends
  cases ending (program state) with
  | ok value => exact .rfl
  | error raised => cases raised <;> exact .rfl

end

@[simp]
theorem ends_publish {env : Environment} {state : RunState}
    {property : Except Raised Unit → RunState → Prop} (topic : String) :
    Ends property (publish env topic) state ↔
      Ends (andThen property fun _ => record (.published topic)) (await env env.publish) state := by
  exact ends_bind _ _

/-- A status with which the handling of a task may end. -/
def TaskStatus.Terminal (status : TaskStatus) : Prop :=
  status = .completed ∨ status = .planGenerated ∨ status = .failed
deriving Decidable

def SettledWith (agents : Dict String AgentStatus) (state : RunState) : Prop :=
  state.task.status.Terminal ∧ state.agents = agents

/-- The announcement tells how a program ends: without an exception, or with one, where the
run may go on as before. -/
def Announcement.Tells {α : Type} (before : RunState) (result : Except Raised α)
    (after : RunState) : Announcement → Prop
  | .ended => ∀ message, result ≠ .error (.exception message)
  | .raised next => (∃ message, result = .error (.exception message)) ∧ Alike before after ∧
      after.calls = next

section

variable {env : Environment} {agents : Dict String AgentStatus} {origin state : RunState}

theorem ends_publish_bind {α : Type} {next : Unit → Program α} {topics : Nat}
    (undisturbed : Undisturbed env) (topic : String)
    (settled : SettledWith agents state) (alike : Alike origin state)
    (endsNext : ∀ after, SettledWith agents after → Alike origin after →
      Ends (fun result final => SettledWith agents final ∧
        (announce env after.calls topics).Tells origin result final) (next ()) after) :
    Ends (fun result final => SettledWith agents final ∧
        (announce env state.calls (topics + 1)).Tells origin result final)
      (publish env topic >>= next) state := by
  rw [ends_bind, ends_publish, ends_await]
  have settledNow (calls : Nat) (trace : List Event) : SettledWith agents { state with
      task := env.meanwhile state.calls state.task, calls := calls, trace := trace } := by
    constructor
    · rw [undisturbed.status]
      exact settled.1
    · exact settled.2
  have alikeNow (calls : Nat) (trace : List Event) : Alike origin { state with
      task := env.meanwhile state.calls state.task, calls := calls, trace := trace } :=
    alike.trans ⟨undisturbed.attempts _ _, undisturbed.title _ _, undisturbed.role _ _, rfl, rfl⟩
  unfold announce
  cases env.publish (state.calls + 1) with
  | ok value => exact endsNext _ (settledNow _ _) (alikeNow _ _)
  | error raised =>
    cases raised with
    | exception message => exact ⟨settledNow _ _, ⟨message, rfl⟩, alikeNow _ _, rfl⟩
    | cancelled => exact ⟨settledNow _ _, nofun⟩

theorem ends_announceEnd {α : Type} {program : Program α} {topics : Nat}
    (settled : SettledWith agents state) (alike : Alike origin state)
    (endsProgram : ∀ after, SettledWith agents after → Alike origin after →
      Ends (fun result final => SettledWith agents final ∧
        (announce env after.calls topics).Tells origin result final) program after) :
    Ends (fun result final => SettledWith agents final ∧
        (match env.finishExecution state.calls with
          | .ok _ => announce env (state.calls + 1) topics
          | .error .cancelled => .ended
          | .error (.exception _) => .raised (state.calls + 1)).Tells origin result final)
      (ask env.finishExecution >>= fun _ => program) state := by
  rw [ends_bind, ends_ask]
  cases env.finishExecution state.calls with
  | ok value => exact endsProgram _ settled (alike.trans ⟨rfl, rfl, rfl, rfl, rfl⟩)
  | error raised =>
    cases raised with
    | exception message =>
      exact ⟨settled, ⟨message, rfl⟩, alike.trans ⟨rfl, rfl, rfl, rfl, rfl⟩, rfl⟩
    | cancelled => exact ⟨settled, nofun⟩

end

section

variable {env : Environment}

theorem ends_persistOutput {property : Except Raised (List String) → RunState → Prop}
    (answer : String) (state : RunState) :
    Ends property (persistOutput env answer) state ↔
      if extracts env answer state.calls then
        match env.extractAndPersistFiles (state.calls + 1) with
        | .ok files => property (.ok files) { state with calls := state.calls + 2 }
        | .error (.exception _) => property (.ok []) { state with calls := state.calls + 2 }
        | .error .cancelled => property (.error .cancelled) { state with calls := state.calls + 2 }
      else property (.ok []) { state with calls := state.calls + 1 } := by
  unfold persistOutput extracts
  rw [ends_bind, ends_observe, andThen_ok]
  cases root : env.workspaceRoot state.calls with
  | none => simp
  | some path =>
    by_cases long : 10 < answer.length
    · simp only [long, if_true, ends_attempting, ends_ask, Option.isSome_some, decide_true,
        Bool.and_self]
      cases env.extractAndPersistFiles (state.calls + 1) with
      | ok files => exact .rfl
      | error raised => cases raised <;> exact .rfl
    · simp [long]

/-- A verification comes to an end unless it is cancelled. -/
theorem ends_verifyAttempt {property : Except Raised ArtifactVerification → RunState → Prop}
    (savedFiles : List String) (before : Option WorkspaceSnapshot) (cwd : Option String)
    (state : RunState) :
    Ends property (verifyAttempt env savedFiles before cwd) state ↔
      if cwd.getD "" = "" then
        property (.ok (verifyTaskExecution env.paths (env.files state.calls)
          state.task.role { savedFiles, before, after := none, wsRoot := cwd.getD "" }))
          { state with calls := state.calls + 1 }
      else match env.capture state.calls with
        | .ok snapshot => property (.ok (verifyTaskExecution env.paths
            (env.files (state.calls + 1)) state.task.role
            { savedFiles, before, after := some snapshot, wsRoot := cwd.getD "" }))
            { state with calls := state.calls + 2 }
        | .error (.exception message) => property
            (.ok { ok := false, reason := "verification subsystem error: " ++ message })
            { state with calls := state.calls + 1 }
        | .error .cancelled => property (.error .cancelled)
            { state with calls := state.calls + 1 } := by
  unfold verifyAttempt captureAfter
  rw [ends_attempting, ends_bind, ends_ite]
  by_cases nowhere : cwd.getD "" = ""
  · simp only [nowhere, if_true, ends_pure, andThen_ok, ends_bind, ends_observe, ends_get,
      orCaught_ok]
  · simp only [nowhere, if_false, ends_map, ends_ask]
    cases env.capture state.calls with
    | ok snapshot => exact .rfl
    | error raised => cases raised <;> exact .rfl

theorem ends_concludeAttempt (undisturbed : Undisturbed env)
    (verification : ArtifactVerification) (state : RunState) :
    Ends (fun result after => SettledWith state.agents after ∧
        (announceEnd env verification.ok state.calls).Tells state result after)
      (concludeAttempt env verification) state := by
  unfold concludeAttempt announceEnd
  by_cases ok : verification.ok = true
  · simp only [ok, if_true]
    refine ends_announceEnd ⟨.inl rfl, rfl⟩ ⟨rfl, rfl, rfl, rfl, rfl⟩ ?_
    intro after settled alike
    unfold publishCompleted
    rw [bind_assoc]
    apply ends_publish_bind undisturbed _ settled alike
    intro later settledLater alikeLater
    apply ends_publish_bind undisturbed _ settledLater alikeLater
    intro final settledFinal alikeFinal
    exact ⟨settledFinal, nofun⟩
  · simp only [ok, Bool.false_eq_true, if_false]
    refine ends_announceEnd ⟨.inr (.inl rfl), rfl⟩ ⟨rfl, rfl, rfl, rfl, rfl⟩ ?_
    intro after settled alike
    apply ends_publish_bind undisturbed _ settled alike
    intro final settledFinal alikeFinal
    exact ⟨settledFinal, nofun⟩

theorem concludeAttempt_ne_error (verification : ArtifactVerification) (state : RunState) :
    Ends (fun result _ => result ≠ .ok .error) (concludeAttempt env verification) state := by
  have behind (program : Program Unit) (outcome : AttemptOutcome) (current : RunState)
      (other : outcome ≠ .error) :
      Ends (fun result _ => result ≠ .ok .error) (program >>= fun _ => pure outcome) current := by
    rw [ends_bind]
    unfold Ends
    cases ending (program current) with
    | ok value =>
      intro same
      exact other (Except.ok.inj same)
    | error raised => nofun
  unfold concludeAttempt
  rw [ends_bind, ends_record, andThen_ok, ends_bind, ends_updateTask, andThen_ok, ends_ite]
  split
  · rw [ends_bind, ends_moveTo, andThen_ok, ← bind_assoc]
    exact behind _ _ _ nofun
  · rw [ends_bind, ends_moveTo, andThen_ok, ← bind_assoc]
    exact behind _ _ _ nofun

/-- What an accepted answer leads to: the agent has completed; the task is settled unless
the verification is cancelled; the result is announced. -/
structure Accepted (env : Environment) (agent : Agent)
    (before : Option WorkspaceSnapshot) (cwd : Option String) (state : RunState)
    (answer : String) (next : Nat) (result : Except Raised AttemptOutcome)
    (after : RunState) : Prop where
  agents : after.agents = state.agents.set agent.id .completed
  noError : result ≠ .ok .error
  announced :
    (announcementAt env state.task.role before cwd answer next).Tells state result after
  settled : Verifies env cwd answer next → after.task.status.Terminal
  broken : ¬ Verifies env cwd answer next →
    result = .error .cancelled ∧ after.task.status = state.task.status

theorem Accepted.origin {agent : Agent} {before : Option WorkspaceSnapshot} {cwd : Option String}
    {state current : RunState} {answer : String} {next : Nat}
    {result : Except Raised AttemptOutcome} {after : RunState}
    (accepted : Accepted env agent before cwd current answer next result after)
    (unmoved : Unmoved state current) :
    Accepted env agent before cwd state answer next result after := by
  rcases accepted with ⟨agents, noError, announced, settled, broken⟩
  rw [unmoved.agents] at agents
  rw [unmoved.role] at announced
  rw [unmoved.status] at broken
  refine ⟨agents, noError, ?_, settled, broken⟩
  cases announcement : announcementAt env state.task.role before cwd answer next with
  | ended =>
    rw [announcement] at announced
    exact announced
  | raised next =>
    rw [announcement] at announced
    exact ⟨announced.1, unmoved.toAlike.trans announced.2.1, announced.2.2⟩

section

variable (undisturbed : Undisturbed env) (agent : Agent)
include undisturbed

theorem ends_concludeAttempt_accepted (before : Option WorkspaceSnapshot) (cwd : Option String)
    (answer : String) (next : Nat) (verification : ArtifactVerification)
    {state current : RunState} (agents : current.agents = state.agents.set agent.id .completed)
    (alike : Alike state current) (verifies : Verifies env cwd answer next)
    (announced : announcementAt env state.task.role before cwd answer next =
      announceEnd env verification.ok current.calls) :
    Ends (Accepted env agent before cwd state answer next)
      (concludeAttempt env verification) current := by
  apply ((ends_concludeAttempt undisturbed verification current).and
    (concludeAttempt_ne_error verification current)).mono
  rintro result after ⟨⟨⟨terminal, kept⟩, tells⟩, noError⟩
  refine ⟨kept.trans agents, noError, ?_, fun _ => terminal, fun broken => absurd verifies broken⟩
  rw [announced]
  cases conclusion : announceEnd env verification.ok current.calls with
  | ended =>
    rw [conclusion] at tells
    exact tells
  | raised next =>
    rw [conclusion] at tells
    exact ⟨tells.1, alike.trans tells.2.1, tells.2.2⟩

theorem ends_verified (answer : String) (savedFiles : List String)
    (before : Option WorkspaceSnapshot) (cwd : Option String) (next : Nat)
    (state current : RunState) (agents : current.agents = state.agents.set agent.id .completed)
    (alike : Alike state current) (status : current.task.status = state.task.status)
    (verifies : Verifies env cwd answer next ↔
      (cwd.getD "" = "" ∨ Uncancelled (env.capture current.calls)))
    (announced : announcementAt env state.task.role before cwd answer next =
      announceVerified env state.task.role before cwd savedFiles current.calls) :
    Ends (Accepted env agent before cwd state answer next)
      (verifyAttempt env savedFiles before cwd >>= concludeAttempt env) current := by
  have alikeNow (calls : Nat) : Alike state { current with calls := calls } :=
    alike.trans ⟨rfl, rfl, rfl, rfl, rfl⟩
  rw [ends_bind, ends_verifyAttempt, alike.role]
  unfold announceVerified at announced
  by_cases nowhere : cwd.getD "" = ""
  · rw [if_pos nowhere] at announced ⊢
    exact ends_concludeAttempt_accepted undisturbed agent before cwd answer next _ agents
      (alikeNow _) (verifies.mpr (.inl nowhere)) announced
  · rw [if_neg nowhere] at announced ⊢
    rw [or_iff_right nowhere] at verifies
    cases captured : env.capture current.calls with
    | ok snapshot =>
      rw [captured] at announced verifies
      exact ends_concludeAttempt_accepted undisturbed agent before cwd answer next _ agents
        (alikeNow _) (verifies.mpr (uncancelled_ok _)) announced
    | error raised =>
      rw [captured] at announced verifies
      cases raised with
      | exception message =>
        exact ends_concludeAttempt_accepted undisturbed agent before cwd answer next _ agents
          (alikeNow _) (verifies.mpr (uncancelled_exception _)) announced
      | cancelled =>
        refine ⟨agents, nofun, ?_, fun verified =>
          absurd (verifies.mp verified) not_uncancelled_cancelled, fun _ => ⟨rfl, status⟩⟩
        rw [announced]
        nofun

theorem ends_finalizeAttempt_accepted (answer : Option String) (before : Option WorkspaceSnapshot)
    (cwd : Option String) (state : RunState) (passes : PassesGuards env.lower (answer.getD "")) :
    Ends (Accepted env agent before cwd state (answer.getD "") state.calls)
      (finalizeAttempt env agent answer before cwd) state := by
  have accepted : ¬ (isErrorOutput env.lower (some (answer.getD "")) = true ∨
      isUnusableOutput (some (answer.getD "")) = true) := by
    rw [not_or, Bool.not_eq_true, Bool.not_eq_true]
    exact passes
  unfold finalizeAttempt
  rw [ends_ite, if_neg accepted, ends_bind, ends_markAgent, andThen_ok, ends_bind,
    ends_updateTask, andThen_ok, ends_bind, ends_persistOutput]
  by_cases files : extracts env (answer.getD "") state.calls = true
  · rw [if_pos files]
    cases extracted : env.extractAndPersistFiles (state.calls + 1) with
    | ok savedFiles =>
      refine ends_verified undisturbed agent _ _ _ _ _ state _ rfl ⟨rfl, rfl, rfl, rfl, rfl⟩
        rfl ?_ ?_
      · rw [Verifies, if_pos files, extracted]
        simp
      · rw [announcementAt, if_pos files, extracted]
    | error raised =>
      cases raised with
      | exception message =>
        refine ends_verified undisturbed agent _ _ _ _ _ state _ rfl
          ⟨rfl, rfl, rfl, rfl, rfl⟩ rfl ?_ ?_
        · rw [Verifies, if_pos files, extracted]
          simp
        · rw [announcementAt, if_pos files, extracted]
      | cancelled =>
        refine ⟨rfl, nofun, ?_, ?_, fun _ => ⟨rfl, rfl⟩⟩
        · rw [announcementAt, if_pos files, extracted]
          nofun
        · rw [Verifies, if_pos files, extracted]
          rintro ⟨impossible, -⟩
          exact absurd impossible not_uncancelled_cancelled
  · rw [if_neg files, andThen_ok]
    refine ends_verified undisturbed agent _ _ _ _ _ state _ rfl ⟨rfl, rfl, rfl, rfl, rfl⟩
      rfl ?_ ?_
    · rw [Verifies, if_neg files]
    · rw [announcementAt, if_neg files]

theorem ends_executeAttempt (before : Option WorkspaceSnapshot) (cwd : Option String)
    (state : RunState) :
    Ends (fun result after =>
      match replyAt env state.calls with
      | .cancelled => result = .error .cancelled ∧ Unmoved state after
      | .raised next => (∃ message, result = .error (.exception message)) ∧
        Unmoved state after ∧ after.calls = next
      | .refused next => result = .ok .error ∧ Unmoved state after ∧ after.calls = next
      | .accepted answer next => Accepted env agent before cwd state answer next result after)
      (executeAttempt env agent before cwd) state := by
  have moved (calls : Nat) (trace : List Event) : Unmoved state { state with
      task := env.meanwhile state.calls state.task, calls := calls, trace := trace } :=
    ⟨⟨undisturbed.attempts _ _, undisturbed.title _ _, undisturbed.role _ _, rfl, rfl⟩,
      undisturbed.status _ _, rfl⟩
  unfold executeAttempt
  rw [ends_bind, ends_await]
  unfold replyAt
  cases env.execute (state.calls + 1) with
  | error raised =>
    cases raised with
    | exception message => exact ⟨⟨message, rfl⟩, moved _ _, rfl⟩
    | cancelled => exact ⟨rfl, moved _ _⟩
  | ok answer =>
    rw [andThen_ok, ends_bind, ends_record, andThen_ok]
    by_cases passes : PassesGuards env.lower (answer.getD "")
    · simp only [if_pos passes]
      apply (ends_finalizeAttempt_accepted undisturbed agent answer before cwd _ passes).mono
      intro result after accepted
      exact accepted.origin (moved _ _)
    · have refused : isErrorOutput env.lower (some (answer.getD "")) = true ∨
          isUnusableOutput (some (answer.getD "")) = true := by
        rw [PassesGuards, not_and_or, Bool.not_eq_false, Bool.not_eq_false] at passes
        exact passes
      unfold finalizeAttempt
      rw [ends_ite, if_pos refused, ends_bind, ends_ask]
      simp only [if_neg passes]
      cases env.finishExecution (state.calls + 2) with
      | ok value =>
        refine ⟨rfl, ?_, rfl⟩
        exact ⟨⟨undisturbed.attempts _ _, undisturbed.title _ _, undisturbed.role _ _, rfl,
          rfl⟩, undisturbed.status _ _, rfl⟩
      | error raised =>
        cases raised with
        | exception message => exact ⟨⟨message, rfl⟩, moved _ _, rfl⟩
        | cancelled => exact ⟨rfl, moved _ _⟩

end

end

theorem ends_selectProvider (env : Environment) (dispatch : Dispatch)
    (origin state : RunState) (role : state.task.role = origin.task.role)
    (failedProviders : state.failedProviders = origin.failedProviders)
    (turn : state.providerRrIdx = origin.providerRrIdx) :
    Ends (fun result after => after.task = state.task ∧ after.agents = state.agents ∧
        match selectionAt env dispatch origin state.calls with
        | none => result = .ok none
        | some (provider, next) => result = .ok (some provider) ∧ after.calls = state.calls + 2 ∧
            after.providerRrIdx = next ∧ after.failedProviders =
              coolDown (env.monotonic (state.calls + 1)) origin.failedProviders)
      (selectProvider env dispatch state.task.role) state := by
  unfold selectProvider selectionAt
  rw [ends_bind, ends_observe, andThen_ok, ends_ite, role]
  by_cases empty : (env.providers state.calls).values = []
  · simp only [empty, if_true]
    exact ⟨rfl, rfl, rfl⟩
  · simp only [empty, if_false]
    rw [ends_bind, ends_observe, andThen_ok, ends_bind, ends_modify, andThen_ok, ends_bind,
      ends_get, andThen_ok, ends_ite, failedProviders]
    split
    next noCandidate =>
      refine ⟨rfl, rfl, ?_⟩
      cases defaultProvider (env.providers state.calls) dispatch.providerDefault with
      | none => rfl
      | some provider => exact ⟨rfl, rfl, turn, rfl⟩
    next candidates =>
      unfold takeTurn
      rw [ends_bind, ends_get, andThen_ok, turn]
      generalize preferAiAgents _ = best
      cases best[origin.providerRrIdx % best.length]? with
      | none => exact ⟨rfl, rfl, rfl⟩
      | some chosen =>
        refine ⟨rfl, rfl, ?_⟩
        dsimp only
        cases (env.providers state.calls).get? chosen.name with
        | none => rfl
        | some provider => exact ⟨rfl, rfl, rfl, rfl⟩

theorem ends_pickFallbackProvider (env : Environment) (currentName : String)
    (origin state : RunState) (call : Nat) (role : state.task.role = origin.task.role)
    (marked : state.failedProviders = origin.failedProviders.set currentName (env.monotonic call))
    (turn : state.providerRrIdx = origin.providerRrIdx) (calls : state.calls = call + 1) :
    Ends (fun result after =>
        result = .ok (fallbackChoice env origin currentName call) ∧
          after.task = state.task ∧ after.agents = state.agents ∧ after.calls = call + 3)
      (pickFallbackProvider env currentName state.task.role) state := by
  unfold pickFallbackProvider fallbackChoice
  rw [ends_bind, ends_observe, andThen_ok, ends_bind, ends_observe, andThen_ok, ends_bind,
    ends_modify, andThen_ok, ends_bind, ends_get, andThen_ok]
  dsimp only
  rw [role, marked, turn, calls, show call + 1 + 1 = call + 2 from rfl]
  unfold coolDown
  split
  next absent =>
    rw [absent]
    exact ⟨rfl, rfl, rfl, rfl⟩
  next candidate present =>
    rw [present]
    exact ⟨rfl, rfl, rfl, rfl⟩

end AgenticOS.Orchestrator
