import AgenticOS.Orchestrator.RunProvider

/-!
# From a created task to its provider

A created task is planned, a provider is selected for it, an agent is spawned and the task
is dispatched to it; each of these is the handler of an event that the one before publishes.
`dispatchTask` does the same in one call.

An event that could not be published is not handled. The mock provider also learns here
whether real providers have failed; that only changes how it answers later.
-/

namespace AgenticOS.Orchestrator

open Program

/-- What the orchestrator is asked to do for a task. -/
structure Dispatch where
  preferredAgents : List String := []
  providerDefault : String

def aiAgentKinds : List String :=
  ["claude_code", "hermes", "codex", "opencode", "antigravity", "qwen_cli", "ollama", "local_cli"]

/-- Whether a provider is real, healthy and capable of the role. -/
def isCandidate (role : String) (failedProviders : Dict String ℚ) (provider : ProviderInfo) :
    Bool :=
  ¬ (provider.name = "mock" ∨ contains provider.kind "mock" = true) ∧
    provider.name ∉ failedProviders.keys ∧
    (roleCapabilities role = [] ∨ provider.capabilities = [] ∨
      ∃ capability ∈ provider.capabilities, capability ∈ roleCapabilities role)

/-- `text.replace(old, "_")` for a single character. -/
def underscored (old : Char) (text : String) : String :=
  String.ofList (text.toList.map fun char => if char = old then '_' else char)

/-- Whether a provider is one of the preferred agents, up to case and separators. -/
def isPreferred (lower : String → String) (preferredAgents : List String)
    (provider : ProviderInfo) : Bool :=
  let selected := (preferredAgents.filter (· ≠ "")).map fun name => lower (strip name)
  let normalized := selected.map fun name => underscored ' ' (underscored '-' name)
  let name := lower provider.name
  name ∈ selected ∨ underscored '-' name ∈ normalized ∨
    ∃ preferred ∈ selected, contains preferred name = true ∨ contains name preferred = true

def preferAgents (lower : String → String) (preferredAgents : List String)
    (candidates : List ProviderInfo) : List ProviderInfo :=
  match candidates.filter (isPreferred lower preferredAgents) with
  | [] => candidates
  | preferred => if preferredAgents = [] then candidates else preferred

/-- The dedicated agents among the candidates, if there are any. -/
def preferAiAgents (candidates : List ProviderInfo) : List ProviderInfo :=
  match candidates.filter (·.kind ∈ aiAgentKinds) with
  | [] => candidates
  | agents => agents

def takeTurn (providers : Dict String ProviderInfo) (candidates : List ProviderInfo) :
    Program (Option ProviderInfo) := do
  match candidates[(← get).providerRrIdx % candidates.length]? with
  | none => pure none
  | some chosen =>
    modify fun state => { state with providerRrIdx := state.providerRrIdx + 1 }
    pure (providers.get? chosen.name)

/-- The provider to use where no real one is to be had. -/
def defaultProvider (providers : Dict String ProviderInfo) (providerDefault : String) :
    Option ProviderInfo :=
  (providers.get? providerDefault).or providers.values.head?

/-- The providers that may not be asked yet. -/
def coolDown (now : ℚ) (failedProviders : Dict String ℚ) : Dict String ℚ :=
  .ofList (failedProviders.entries.filter fun entry => now - entry.2 < providerCooldown)

section

variable (env : Environment) (dispatch : Dispatch)

def selectProvider (role : String) : Program (Option ProviderInfo) := do
  let providers ← observe env.providers
  if providers.values = [] then pure none
  else
    let now ← observe env.monotonic
    modify fun state => { state with failedProviders := coolDown now state.failedProviders }
    let candidates := preferAgents env.lower dispatch.preferredAgents
      (providers.values.filter (isCandidate role (← get).failedProviders))
    if candidates = [] then pure (defaultProvider providers dispatch.providerDefault)
    else takeTurn providers (preferAiAgents candidates)

def assignAgent (provider : ProviderInfo) (status : TaskStatus) : Program Agent := do
  let agent : Agent := { id := ← ask env.spawn, provider := provider.name }
  markAgent agent.id .running
  moveTo status
  updateTask fun task => { task with assignedAgentId := some agent.id }
  pure agent

def onTaskCreated : Program Unit := do
  moveTo .planned
  publish env "task.planned"

/-- `_on_task_planned`. What it returns is the agent of the event that it has published. -/
def onTaskPlanned : Program (Option Agent) := do
  match ← selectProvider env dispatch (← get).task.role with
  | none => pure none
  | some provider =>
    let agent ← assignAgent env provider .dispatched
    publish env "task.dispatched"
    pure (some agent)

def onTaskDispatched (agent : Option Agent) : Program Unit :=
  match agent with
  | none => pure ()
  | some agent => runProvider env agent

/-- Everything that the creation of a task sets off. -/
def handleCreated : Program Unit := do
  onTaskCreated env
  let agent ← onTaskPlanned env dispatch
  onTaskDispatched env agent

def dispatchTask : Program Unit := do
  match ← selectProvider env dispatch (← get).task.role with
  | none => pure ()
  | some provider =>
    updateTask fun task => { task with attempts := task.attempts + 1 }
    let agent ← assignAgent env provider .inProgress
    runProvider env agent

end

end AgenticOS.Orchestrator
