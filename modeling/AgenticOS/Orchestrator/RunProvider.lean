import AgenticOS.Orchestrator.Guards
import AgenticOS.Orchestrator.Verification

/-!
# Running a task at a provider

`runProvider` tries a task up to three times: at its provider, again there, and at another
healthy provider. Every answer goes through `finalizeAttempt`; when nothing helps the task
is failed with an honest report.

A program changes a state and may raise, and what it had changed before stays. Whatever lies
outside, from the providers to the disk, answers from an `Environment`, one answer for each
call. While the orchestrator awaits an answer others may change the task, too. The trace
records what the providers answered, what the verification said, and the moves of the task.
-/

namespace AgenticOS.Orchestrator

inductive TaskStatus where
  | pending
  | planned
  | dispatched
  | inProgress
  | completed
  | failed
  | recovered
  | planGenerated
  deriving DecidableEq

/-- A unit of work routed through the orchestrator. -/
structure Task where
  id : String
  title : String
  role : String
  status : TaskStatus := .pending
  assignedAgentId : Option String := none
  attempts : Nat := 0
  result : Option String := none
  error : Option String := none
  artifacts : List Artifact := []
  verification : Option ArtifactVerification := none

inductive AgentStatus where
  | idle
  | running
  | completed
  | failed
  | recovering
  deriving DecidableEq

structure Agent where
  id : String
  provider : String

/-- What a provider has registered about itself. -/
structure ProviderInfo where
  name : String
  kind : String
  capabilities : List String

/-- How a call fails: `except Exception` catches an exception, but not the cancellation of
the running task. -/
inductive Raised where
  | exception (message : String)
  | cancelled

inductive AttemptOutcome where
  | error
  | completed
  | planGenerated
  deriving DecidableEq

inductive Event where
  | answered (result : Option String)
  | verified (verification : ArtifactVerification)
  | moved (status : TaskStatus)
  | published (topic : String)

/-- The answers to the calls of a run, by the number of the call. -/
structure Environment where
  lower : String → String
  paths : PathModule
  maxAttempts : Int
  meanwhile : Nat → Task → Task
  providers : Nat → Dict String ProviderInfo
  monotonic : Nat → ℚ
  publish : Nat → Except Raised Unit
  writeMemory : Nat → Except Raised Unit
  startExecution : Nat → Except Raised Unit
  finishExecution : Nat → Except Raised Unit
  executionCwd : Nat → Except Raised (Option String)
  spawn : Nat → Except Raised String
  execute : Nat → Except Raised (Option String)
  capture : Nat → Except Raised WorkspaceSnapshot
  workspaceRoot : Nat → Option String
  reportRoot : Nat → Except Raised String
  extractAndPersistFiles : Nat → Except Raised (List String)
  files : Nat → FileSystem
  unreachable : Nat → String

structure RunState where
  task : Task
  agents : Dict String AgentStatus
  failedProviders : Dict String ℚ
  providerRrIdx : Nat := 0
  calls : Nat := 0
  trace : List Event := []

abbrev Program := EStateM Raised RunState

namespace Program

def updateTask (change : Task → Task) : Program Unit :=
  modify fun state => { state with task := change state.task }

def record (event : Event) : Program Unit :=
  modify fun state => { state with trace := state.trace ++ [event] }

def moveTo (status : TaskStatus) : Program Unit := do
  updateTask fun task => { task with status := status }
  record (.moved status)

def markAgent (agentId : String) (status : AgentStatus) : Program Unit :=
  modify fun state => { state with agents := state.agents.set agentId status }

/-- Make a call that cannot fail. -/
def observe (answer : Nat → α) : Program α :=
  modifyGet fun state => (answer state.calls, { state with calls := state.calls + 1 })

/-- Make a call that may raise. -/
def ask (answer : Nat → Except Raised α) : Program α := do
  match ← observe answer with
  | .ok value => pure value
  | .error raised => throw raised

def await (env : Environment) (answer : Nat → Except Raised α) : Program α := do
  let change ← observe env.meanwhile
  updateTask change
  ask answer

/-- `try` and `except Exception`. -/
def attempting (program : Program α) (handler : String → Program α) : Program α :=
  tryCatch program fun
    | .exception message => handler message
    | .cancelled => throw .cancelled

end Program

open Program

section

variable (env : Environment)

def publish (topic : String) : Program Unit := do
  await env env.publish
  record (.published topic)

def publishCompleted : Program Unit := do
  publish env "task.completed"
  publish env "agent.completed"

def publishFailed : Program Unit := do
  publish env "task.failed"
  publish env "agent.failed"

variable (agent : Agent)

def failTask (error : String) : Program Unit := do
  markAgent agent.id .failed
  moveTo .failed
  updateTask fun task => { task with error := some error }
  publishFailed env

/-- An honest report of a failure, without a claim of success or a code block. -/
def buildFailureReport (title role wsRoot reason : String) (attempts : Nat) : String :=
  failureMarker ++ "\n\n# " ++ title ++ " — Execution Failed\n\n**Role**: " ++ role ++
    " | **Status**: FAILED | **Workspace**: " ++ wsRoot ++
    "\n\n## Why this failed\nNo provider could execute this task: " ++ reason ++
    "\nAttempts made: " ++ toString attempts ++
    "\n\n## What was produced\nNothing. No files were created or modified by this task." ++
    "\n\n## How to fix" ++
    "\n- Ensure at least one model proxy is reachable (see /api/proxy/health)." ++
    "\n- Ensure a CLI agent (codex, claude, opencode) is installed and bound." ++
    "\n- Re-run the mission once a provider is healthy." ++
    "\n\nERROR: execution failed - no provider available"

def executeAutonomousFallback : Program Unit := do
  let wsRoot ← ask env.reportRoot
  let reason ← observe env.unreachable
  let task := (← get).task
  let report := buildFailureReport
    (if task.title = "" then "Task Deliverable" else task.title)
    (if task.role = "" then "general" else task.role)
    wsRoot reason task.attempts
  markAgent agent.id .failed
  moveTo .failed
  updateTask fun task =>
    { task with result := some report, error := some (truncate reason 500) }
  publishFailed env

/-- Write the files of an answer to the workspace; a failure leaves none. -/
def persistOutput (result : String) : Program (List String) := do
  match ← observe env.workspaceRoot with
  | none => pure []
  | some _ =>
    if 10 < result.length then
      attempting (ask env.extractAndPersistFiles) fun _ => pure []
    else pure []

/-- The snapshot of the directory of the attempt, if there is one. -/
def captureAfter (cwd : Option String) : Program (Option WorkspaceSnapshot) :=
  if cwd.getD "" = "" then pure none else some <$> ask env.capture

/-- Verify what an attempt has left behind; what cannot be verified is not verified. -/
def verifyAttempt (savedFiles : List String) (before : Option WorkspaceSnapshot)
    (cwd : Option String) : Program ArtifactVerification :=
  attempting
    (do
      let after ← captureAfter env cwd
      let files ← observe env.files
      let task := (← get).task
      pure (verifyTaskExecution env.paths files task.role
        { savedFiles, before, after, wsRoot := cwd.getD "" }))
    fun message => pure { ok := false, reason := "verification subsystem error: " ++ message }

/-- The end of `_finalize_attempt`, behind the verification. -/
def concludeAttempt (verification : ArtifactVerification) : Program AttemptOutcome := do
  record (.verified verification)
  updateTask fun task =>
    { task with
      verification := some verification
      artifacts :=
        if verification.ok then verification.artifacts.filter Artifact.verified else [] }
  if verification.ok then
    moveTo .completed
    ask env.finishExecution
    publishCompleted env
    pure .completed
  else
    moveTo .planGenerated
    ask env.finishExecution
    publish env "task.plan_generated"
    pure .planGenerated

/-- The handler of every answer of a provider. -/
def finalizeAttempt (answer : Option String)
    (before : Option WorkspaceSnapshot) (cwd : Option String) : Program AttemptOutcome := do
  let result := answer.getD ""
  if isErrorOutput env.lower (some result) = true ∨
      isUnusableOutput (some result) = true then
    ask env.finishExecution
    updateTask fun task =>
      { task with
        error := some (truncate
          (if strip result = "" then "agent produced no stdout output" else strip result) 500) }
    pure .error
  else
    markAgent agent.id .completed
    updateTask fun task => { task with result := some result, error := none }
    let savedFiles ← persistOutput env result
    let verification ← verifyAttempt env savedFiles before cwd
    concludeAttempt env verification

/-- Ask the provider and look at its answer. -/
def executeAttempt (before : Option WorkspaceSnapshot)
    (cwd : Option String) : Program AttemptOutcome := do
  let result ← await env env.execute
  record (.answered result)
  finalizeAttempt env agent result before cwd

/-- An attempt at the task's own provider. -/
def tryProvider (before : Option WorkspaceSnapshot) (cwd : Option String) :
    Program AttemptOutcome :=
  attempting (executeAttempt env agent before cwd) fun _ => do
    ask env.finishExecution
    pure .error

/-- The second attempt, if the task may be tried again. -/
def retrySameProvider (before : Option WorkspaceSnapshot)
    (cwd : Option String) : Program AttemptOutcome := do
  if ((← get).task.attempts : Int) < env.maxAttempts then
    updateTask fun task => { task with attempts := task.attempts + 1 }
    ask env.startExecution
    tryProvider env agent before cwd
  else pure .error

def roleCapabilities (role : String) : List String :=
  match role with
  | "coding" => ["coding"]
  | "planner" => ["planning", "coding", "reasoning"]
  | "research" => ["research", "reasoning"]
  | "reviewer" => ["reasoning", "coding"]
  | "devops" => ["terminal", "coding"]
  | _ => []

def providerCooldown : ℚ := 30

def markProviderFailed (name : String) : Program Unit := do
  let now ← observe env.monotonic
  modify fun state => { state with failedProviders := state.failedProviders.set name now }

def isFallback (currentName role : String) (failedProviders : Dict String ℚ)
    (provider : ProviderInfo) : Bool :=
  ¬ (provider.name = "mock" ∨ contains provider.kind "mock" = true) ∧
    provider.name ≠ currentName ∧ provider.name ∉ failedProviders.keys ∧
    (roleCapabilities role = [] ∨ provider.capabilities = [] ∨
      ∃ capability ∈ provider.capabilities, capability ∈ roleCapabilities role)

/-- The next healthy provider in turn. -/
def pickFallbackProvider (currentName role : String) : Program (Option ProviderInfo) := do
  let providers ← observe env.providers
  let now ← observe env.monotonic
  modify fun state =>
    { state with
      failedProviders := .ofList (state.failedProviders.entries.filter fun entry =>
        now - entry.2 < providerCooldown) }
  let state ← get
  let candidates := providers.values.filter (isFallback currentName role state.failedProviders)
  match candidates[state.providerRrIdx % candidates.length]? with
  | none => pure none
  | some candidate =>
    modify fun state => { state with providerRrIdx := state.providerRrIdx + 1 }
    pure (providers.get? candidate.name)

def giveUp (agent failing : Agent) (provider : ProviderInfo)
    (message : Nat → String) : Program Unit := do
  let task := (← get).task
  if agent.provider = "mock" ∨ provider.name = "mock" ∨
      contains (env.lower task.title) "fail on purpose" = true then
    markAgent agent.id .failed
    failTask env failing (message task.attempts)
  else executeAutonomousFallback env failing

/-- The third attempt, at another provider. Whether the run is over behind it. -/
def tryFallback (provider fallbackProvider : ProviderInfo)
    (before : Option WorkspaceSnapshot) : Program Bool := do
  updateTask fun task => { task with attempts := task.attempts + 1 }
  let fallbackAgent : Agent :=
    { id := ← ask env.spawn, provider := fallbackProvider.name }
  markAgent fallbackAgent.id .running
  updateTask fun task => { task with assignedAgentId := some fallbackAgent.id }
  ask env.startExecution
  let cwd ← await env env.executionCwd
  attempting
    (do
      let outcome ← executeAttempt env fallbackAgent before cwd
      pure (decide (outcome ≠ .error)))
    fun message => do
      ask env.finishExecution
      giveUp env agent fallbackAgent provider fun attempts =>
        "All " ++ toString attempts ++ " attempts failed. Last error: " ++ message
      pure true

/-- The third attempt, if there is a provider for it and the task may be tried again. -/
def settleByFallback (provider : ProviderInfo)
    (before : Option WorkspaceSnapshot) (fallbackProvider : Option ProviderInfo) : Program Bool :=
  match fallbackProvider with
  | none => pure false
  | some fallbackProvider => do
      if ((← get).task.attempts : Int) < env.maxAttempts then
        tryFallback env agent provider fallbackProvider before
      else pure false

def fallBack (provider : ProviderInfo) (before : Option WorkspaceSnapshot) :
    Program Unit := do
  markProviderFailed env agent.provider
  let fallbackProvider ← pickFallbackProvider env agent.provider (← get).task.role
  let settled ← settleByFallback env agent provider before fallbackProvider
  if settled then pure ()
  else
    giveUp env agent agent provider fun attempts =>
      "Execution failed after " ++ toString attempts ++
        " attempt(s). No fallback provider available."

def captureBefore : Program (Option WorkspaceSnapshot) :=
  attempting (some <$> ask env.capture) fun _ => pure none

def runProvider : Program Unit := do
  let providers ← observe env.providers
  match providers.get? agent.provider with
  | none => failTask env agent ("Provider '" ++ agent.provider ++ "' not found")
  | some provider =>
    moveTo .inProgress
    updateTask fun task => { task with assignedAgentId := some agent.id }
    publish env "task.started"
    attempting (await env env.writeMemory) fun _ => pure ()
    ask env.startExecution
    let cwd ← await env env.executionCwd
    let before ← captureBefore env
    let first ← tryProvider env agent before cwd
    if first = .error then
      let second ← retrySameProvider env agent before cwd
      if second = .error then fallBack env agent provider before
      else pure ()
    else pure ()

end

end AgenticOS.Orchestrator
