import AgenticOS.Data.Dict
import AgenticOS.Transition.Outcome

/-!
# The plugin registry

The registry installs, starts, stops, updates and uninstalls plugins, each operation under
the lock of one plugin. The locks are not reentrant: an operation that asks for a lock which
it holds itself waits for ever. A run of an operation is modelled with the locks that it
holds, and such a wait is its end.

The calls to the outside are answered by an environment, by the number of the call.
-/

namespace AgenticOS.Plugins

open Transition

inductive PluginStatus where
  | uninstalled
  | installing
  | installed
  | starting
  | running
  | stopping
  | stopped
  | failed
  | updating
  | uninstalling
deriving DecidableEq

inductive PluginDependencyType where
  | required
  | optional
  | peer
deriving DecidableEq

structure PluginDependency where
  name : String
  version : String
  type : PluginDependencyType := .required

structure PluginManifest where
  name : String
  version : String
  dependencies : List PluginDependency := []
  minPlatformVersion : String := "0.4.0"
  maxPlatformVersion : Option String := none
  signature : Option String := none
  publicKey : Option String := none

/-- The configuration of a plugin, by its keys. -/
abbrev Config := Dict String String

structure PluginInstance where
  manifest : PluginManifest
  status : PluginStatus
  path : String
  config : Config
  processId : Option Nat := none
  error : Option String := none
  restartCount : Nat := 0

namespace PluginInstance

variable (plugin : PluginInstance)

def withStatus (status : PluginStatus) (error : Option String)
    (processId : Option Nat) : PluginInstance :=
  { plugin with
    status
    processId := processId.or plugin.processId
    error := error.or plugin.error
    restartCount := plugin.restartCount + if status = .failed then 1 else 0 }

def withConfig (config : Config) : PluginInstance :=
  { plugin with config }

@[simp]
theorem withStatus_manifest (status : PluginStatus)
    (error : Option String) (processId : Option Nat) :
    (plugin.withStatus status error processId).manifest = plugin.manifest :=
  rfl

@[simp]
theorem withConfig_manifest (config : Config) :
    (plugin.withConfig config).manifest = plugin.manifest :=
  rfl

def Active : Prop :=
  plugin.status = .running ∨ plugin.status = .starting
deriving Decidable

end PluginInstance

structure PluginInstallRequest where
  reference : String
  source : String := "registry"
  config : Option Config := none
  force : Bool := false
  verifySignature : Bool := false

structure PluginValidationResult where
  valid : Bool
  errors : List String := []
  warnings : List String := []
  manifest : Option PluginManifest := none
  dependencyStatus : Dict String Bool := .empty

variable (plugins : List PluginInstance)

def getPlugin (name : String) : Option PluginInstance :=
  plugins.find? fun plugin => plugin.manifest.name = name

def requirements (name : String) : List String :=
  match getPlugin plugins name with
  | none => []
  | some plugin =>
    (plugin.manifest.dependencies.filter fun dep => dep.type = .required).map PluginDependency.name

def listRunning : List PluginInstance :=
  plugins.filter fun plugin => plugin.status = .running

def findDependents (name : String) : List String :=
  (plugins.filter fun plugin => plugin.manifest.dependencies.any fun dep =>
    dep.name = name ∧ dep.type = .required).map fun plugin => plugin.manifest.name

def checkPlatformVersion (_ : PluginManifest) : Bool :=
  true

def versionSatisfies (installed required : String) : Bool :=
  installed = required

def satisfied (dep : PluginDependency) : Bool :=
  match getPlugin plugins dep.name with
  | none => false
  | some plugin => versionSatisfies plugin.manifest.version dep.version

def verifySignature (manifest : PluginManifest) : Bool × String :=
  if manifest.signature.getD "" = "" ∨ manifest.publicKey.getD "" = "" then
    (false, "No signature or public key")
  else (true, "Signature verification not fully implemented")

def checksSignature (request : PluginInstallRequest) (manifest : PluginManifest) : Bool :=
  request.verifySignature ∧ manifest.signature.getD "" ≠ ""

def validationErrors (request : PluginInstallRequest) (manifest : PluginManifest) : List String :=
  (if checkPlatformVersion manifest then []
    else ["Plugin requires platform " ++ manifest.minPlatformVersion ++ "+ (max: " ++
      manifest.maxPlatformVersion.getD "unlimited" ++ ")"]) ++
  (manifest.dependencies.filter fun dep =>
    ¬ satisfied plugins dep ∧ dep.type = .required).map (fun dep =>
      "Required dependency not satisfied: " ++ dep.name ++ " " ++ dep.version) ++
  (if checksSignature request manifest ∧ ¬ (verifySignature manifest).1 then
    ["Signature verification failed: " ++ (verifySignature manifest).2] else [])

def validateManifest (request : PluginInstallRequest)
    (manifest : PluginManifest) : PluginValidationResult where
  valid := validationErrors plugins request manifest = []
  errors := validationErrors plugins request manifest
  warnings :=
    if checksSignature request manifest ∧ (verifySignature manifest).1 then
      ["Signature note: " ++ (verifySignature manifest).2] else []
  manifest := some manifest
  dependencyStatus :=
    .ofList (manifest.dependencies.map fun dep => (dep.name, satisfied plugins dep))

section

variable (plugins : List PluginInstance) (request : PluginInstallRequest)
  (manifest : PluginManifest)

@[simp]
theorem validateManifest_valid_iff : (validateManifest plugins request manifest).valid = true ↔
      validationErrors plugins request manifest = [] :=
  decide_eq_true_iff

@[simp]
theorem validateManifest_manifest :
    (validateManifest plugins request manifest).manifest = some manifest :=
  rfl

end

/-- What a call may raise. -/
inductive Raised where
  | exception (message : String)
  | cancelled

/-- Why an operation does not return: it raises, or it waits for a lock that it holds. -/
inductive Halt where
  | raised (raised : Raised)
  | blocked (name : String)

inductive Topic where
  | pluginInstalled
  | pluginUninstalled
  | pluginUpdated
  | pluginStarted
  | pluginStopped
  | pluginFailed
deriving DecidableEq

/-- The answers to the calls of an operation, by their numbers. -/
structure Environment where
  pluginDir : String → String
  loadManifestFromLocal : String → Nat → Except Raised (Option PluginManifest)
  mkdir : Nat → Except Raised Unit
  writeManifest : Nat → Except Raised Unit
  publish : Nat → Except Raised Unit
  /-- A process is given time to end; at a timeout it is killed. -/
  pause : Nat → Except Raised Unit
  pid : Nat → Nat

structure Registry where
  plugins : List PluginInstance := []
  processes : Dict String Nat := .empty

/-- A registry with the locks that the operation holds, and what it has published. -/
structure Execution extends Registry where
  held : List String := []
  calls : Nat := 0
  emitted : List Topic := []

abbrev Program := EStateM Halt Execution

namespace Program

/-- Make a call that cannot fail. -/
def observe {α : Type} (answer : Nat → α) : Program α :=
  modifyGet fun state => (answer state.calls, { state with calls := state.calls + 1 })

/-- Make a call that may raise. -/
def ask {α : Type} (answer : Nat → Except Raised α) : Program α := do
  match ← observe answer with
  | .ok value => pure value
  | .error raised => throw (.raised raised)

def raise {α : Type} (message : String) : Program α :=
  throw (.raised (.exception message))

/-- `try` and `except Exception`. -/
def attempting {α : Type} (program : Program α) (handler : String → Program α) : Program α :=
  tryCatch program fun
    | .raised (.exception message) => handler message
    | halt => throw halt

def acquire (name : String) : Program Unit :=
  modify fun state => { state with held := name :: state.held }

def release (name : String) : Program Unit :=
  modify fun state => { state with held := state.held.erase name }

/-- `async with` the lock of a plugin. -/
def withLock {α : Type} (name : String) (body : Program α) : Program α := do
  if name ∈ (← get).held then throw (.blocked name)
  else do
    acquire name
    let result ← tryCatch body fun
      | .raised raised => do
          release name
          throw (.raised raised)
      | .blocked other => throw (.blocked other)
    release name
    pure result

end Program

open Program

section

variable (env : Environment)

def emit (topic : Topic) : Program Unit := do
  ask env.publish
  modify fun state => { state with emitted := state.emitted ++ [topic] }

def updateInstance (plugin : PluginInstance) : Program Unit :=
  modify fun state =>
    { state with
      plugins := state.plugins.map fun other =>
        if other.manifest.name = plugin.manifest.name then plugin else other }

/-- `get_plugin_manifest` and the loaders; nothing is loaded from a URL yet. -/
def loadManifest (request : PluginInstallRequest) : Program (Option PluginManifest) := do
  if request.source = "registry" then
    pure ((getPlugin (← get).plugins request.reference).map PluginInstance.manifest)
  else if request.source = "local" then
    ask (env.loadManifestFromLocal request.reference)
  else pure none

def validatePlugin (request : PluginInstallRequest) : Program PluginValidationResult :=
  attempting
    (do
      match ← loadManifest env request with
      | none => pure { valid := false, errors := ["Could not load plugin manifest"] }
      | some manifest => pure (validateManifest (← get).plugins request manifest))
    fun message => pure { valid := false, errors := ["Validation error: " ++ message] }

variable (name : String)

def endProcess : Program Unit := do
  if ((← get).processes.get? name).isSome then
    modify fun state => { state with processes := state.processes.erase name }
    ask env.pause
  else pure ()

def startPlugin : Program PluginInstance :=
  withLock name do
    match getPlugin (← get).plugins name with
    | none => raise ("Plugin not found: " ++ name)
    | some plugin =>
      if plugin.Active then pure plugin
      else do
        let starting := plugin.withStatus .starting none none
        updateInstance starting
        emit env .pluginStarted
        attempting
          (do
            let pid ← observe env.pid
            modify fun state => { state with processes := state.processes.set name pid }
            let running := starting.withStatus .running none (some pid)
            updateInstance running
            emit env .pluginStarted
            pure running)
          fun message => do
            updateInstance (starting.withStatus .failed (some message) none)
            emit env .pluginFailed
            raise message

def stopPlugin : Program PluginInstance :=
  withLock name do
    match getPlugin (← get).plugins name with
    | none => raise ("Plugin not found: " ++ name)
    | some plugin =>
      if plugin.status = .stopped ∨ plugin.status = .stopping then pure plugin
      else do
        let stopping := plugin.withStatus .stopping none none
        updateInstance stopping
        attempting
          (do
            endProcess env name
            let stopped := stopping.withStatus .stopped none none
            updateInstance stopped
            emit env .pluginStopped
            pure stopped)
          fun message => do
            updateInstance (stopping.withStatus .failed (some message) none)
            emit env .pluginFailed
            raise message

def restartPlugin : Program PluginInstance := do
  match getPlugin (← get).plugins name with
  | none => raise ("Plugin not found: " ++ name)
  | some plugin =>
    if plugin.status = .running then
      discard (stopPlugin env name)
      startPlugin env name
    else startPlugin env name

def stopActive (plugin : PluginInstance) (name : String) (force : Bool) : Program Unit :=
  if plugin.Active then
    if force = true then
      discard (stopPlugin env name)
    else raise ("Plugin " ++ name ++ " is running. Use force=True to stop and uninstall.")
  else pure ()

/-- Object to the removal of a plugin that is required by others. -/
def checkDependents (force : Bool) : Program Unit := do
  let dependents := findDependents (← get).plugins name
  if dependents ≠ [] ∧ force = false then
    raise ("Plugin " ++ name ++ " is required by: " ++ ", ".intercalate dependents)
  else pure ()

def uninstallPlugin (force : Bool) : Program Bool :=
  withLock name do
    match getPlugin (← get).plugins name with
    | none => pure false
    | some plugin =>
      stopActive env plugin name force
      checkDependents name force
      endProcess env name
      modify fun state =>
        { state with
          plugins := state.plugins.filter fun other => other.manifest.name ≠ name }
      emit env .pluginUninstalled
      pure true

def uninstallExisting (force : Bool) : Program Unit := do
  if (getPlugin (← get).plugins name).isSome then
    if force = true then
      discard (uninstallPlugin env name true)
    else raise ("Plugin " ++ name ++ " already installed. Use force=True to reinstall.")
  else pure ()

/-- Write the files of a plugin and register it. The download and the installation of its
dependencies do nothing yet. -/
def addPlugin (request : PluginInstallRequest) (manifest : PluginManifest) :
    Program PluginInstance := do
  ask env.mkdir
  ask env.writeManifest
  let plugin : PluginInstance :=
    { manifest
      status := .installed
      path := env.pluginDir manifest.name
      config := request.config.getD .empty }
  modify fun state =>
    { state with
      plugins := (state.plugins.filter fun other => other.manifest.name ≠ manifest.name) ++
        [plugin] }
  emit env .pluginInstalled
  pure plugin

def installPlugin (request : PluginInstallRequest) : Program PluginInstance :=
  withLock request.reference do
    let validation ← validatePlugin env request
    if validation.valid = true then
      match validation.manifest with
      | none => raise "Plugin manifest not found after validation"
      | some manifest =>
        uninstallExisting env manifest.name request.force
        addPlugin env request manifest
    else raise ("Plugin validation failed: " ++ ", ".intercalate validation.errors)

def setConfig (values : Config) : Program Config := do
  match getPlugin (← get).plugins name with
  | none => raise ("Plugin not found: " ++ name)
  | some plugin =>
    updateInstance (plugin.withConfig values)
    emit env .pluginUpdated
    pure values

def updatePlugin (config : Option Config) : Program PluginInstance :=
  withLock name do
    match getPlugin (← get).plugins name with
    | none => raise ("Plugin not found: " ++ name)
    | some plugin =>
      match config with
      | none => pure plugin
      | some values => do
          discard (setConfig env name values)
          pure ((getPlugin (← get).plugins name).getD plugin)

/-- Stop the given plugins; what goes wrong is logged. -/
def stopAll : List PluginInstance → Program Unit
  | [] => pure ()
  | plugin :: plugins => do
      attempting (discard (stopPlugin env plugin.manifest.name)) fun _ => pure ()
      stopAll plugins

def shutdown : Program Unit := do
  stopAll env (listRunning (← get).plugins)

inductive Operation where
  | install (request : PluginInstallRequest)
  | uninstall (name : String) (force : Bool)
  | start (name : String)
  | stop (name : String)
  | restart (name : String)
  | update (name : String) (config : Option Config)
  | setConfig (name : String) (values : Config)
  | shutdown

/-- Perform an operation; what it returns does not matter here. -/
def perform : Operation → Program Unit
  | .install request => discard (installPlugin env request)
  | .uninstall name force => discard (uninstallPlugin env name force)
  | .start name => discard (startPlugin env name)
  | .stop name => discard (stopPlugin env name)
  | .restart name => discard (restartPlugin env name)
  | .update name config => discard (updatePlugin env name config)
  | .setConfig name values => discard (setConfig env name values)
  | .shutdown => shutdown env

end

/-! ## Validation -/

/-- The manifest that an installation finds, if its loader is the call of this number. -/
def loadedManifest (env : Environment) (plugins : List PluginInstance)
    (request : PluginInstallRequest) (call : Nat) : Option PluginManifest :=
  if request.source = "registry" then
    (getPlugin plugins request.reference).map PluginInstance.manifest
  else if request.source = "local" then
    match env.loadManifestFromLocal request.reference call with
    | .ok manifest => manifest
    | .error _ => none
  else none

theorem ends_validatePlugin (env : Environment) (request : PluginInstallRequest)
    (state : Execution) :
    Ends (fun result after => after.toRegistry = state.toRegistry ∧ after.held = state.held ∧
        match loadedManifest env state.plugins request state.calls with
        | some manifest => result = .ok (validateManifest state.plugins request manifest)
        | none => result = .error (.raised .cancelled) ∨
            ∃ validation, result = .ok validation ∧ validation.valid = false)
      (validatePlugin env request) state := by
  unfold validatePlugin attempting loadManifest loadedManifest
  rw [ends_tryCatch, ends_bind, ends_ite]
  by_cases registry : request.source = "registry"
  · rw [if_pos registry, if_pos registry, ends_bind, ends_get, andThen_ok, ends_pure, andThen_ok]
    cases getPlugin state.plugins request.reference with
    | none => exact ⟨rfl, rfl, .inr ⟨_, rfl, rfl⟩⟩
    | some plugin => exact ⟨rfl, rfl, rfl⟩
  · rw [if_neg registry, if_neg registry, ends_ite]
    by_cases here : request.source = "local"
    · rw [if_pos here, if_pos here]
      unfold ask observe
      rw [ends_bind, ends_modifyGet, andThen_ok]
      cases env.loadManifestFromLocal request.reference state.calls with
      | ok manifest =>
        cases manifest with
        | none => exact ⟨rfl, rfl, .inr ⟨_, rfl, rfl⟩⟩
        | some manifest => exact ⟨rfl, rfl, rfl⟩
      | error raised =>
        cases raised with
        | exception message => exact ⟨rfl, rfl, .inr ⟨_, rfl, rfl⟩⟩
        | cancelled => exact ⟨rfl, rfl, .inl rfl⟩
    · rw [if_neg here, if_neg here]
      exact ⟨rfl, rfl, .inr ⟨_, rfl, rfl⟩⟩

/-- An operation begins without a lock. -/
def Registry.begin (registry : Registry) : Execution :=
  { registry with }

end AgenticOS.Plugins
