import AgenticOS.Orchestrator.Course

/-!
# What a completed task rests on

In every run a task is moved to COMPLETED only right behind an answer of a provider that
passed both guards and a positive verification of what that attempt left on disk. The status
is written in one place; what has to be shown is that no other path reaches it, whatever is
raised on the way.
-/

namespace AgenticOS.Orchestrator

open Transition Program List

/-- The files that the orchestrator saves of an answer, from this call on, and the first call
behind that. -/
def savedAt (env : Environment) (answer : String) (call : Nat) : List String × Nat :=
  if extracts env answer call then
    match env.extractAndPersistFiles (call + 1) with
    | .ok files => (files, call + 2)
    | .error _ => ([], call + 2)
  else ([], call + 1)

/-- The verification is that of the saved files, of the snapshots of the working directory from
before the attempt and from behind it, if it has one, and of the files that are then on disk. -/
def Examines (env : Environment) (role : String) (before : Option WorkspaceSnapshot)
    (cwd : Option String) (saved : List String × Nat) (verification : ArtifactVerification) :
    Prop :=
  if cwd.getD "" = "" then
    verification = verifyTaskExecution env.paths (env.files saved.2) role
      { savedFiles := saved.1, before, after := none, wsRoot := cwd.getD "" }
  else ∃ after, env.capture saved.2 = .ok after ∧
    verification = verifyTaskExecution env.paths (env.files (saved.2 + 1)) role
      { savedFiles := saved.1, before, after := some after, wsRoot := cwd.getD "" }

/-- The answer to a call passes both guards, and the verification of what this attempt has left
is positive. -/
structure Backed (env : Environment) (answer : Option String)
    (verification : ArtifactVerification) : Prop where
  passes : PassesGuards env.lower (answer.getD "")
  ok : verification.ok = true
  verified : ∃ call role before cwd, env.execute call = .ok answer ∧
    Examines env role before cwd (savedAt env (answer.getD "") (call + 1)) verification

/-- Each move to COMPLETED stands directly behind an answer and a verification that back it. -/
def Trusted (env : Environment) (trace : List Event) : Prop :=
  ∀ earlier later, trace = earlier ++ .moved .completed :: later →
    ∃ before answer verification,
      earlier = before ++ [.answered answer, .verified verification] ∧
        Backed env answer verification

def Uneventful (events : List Event) : Prop :=
  .moved .completed ∉ events

variable {env : Environment}

theorem composable_uneventful : Composable Uneventful where
  nil := not_mem_nil
  append first second nothing nothingElse := by
    intro member
    rcases mem_append.mp member with inFirst | inSecond
    · exact nothing inFirst
    · exact nothingElse inSecond

theorem Uneventful.trusted {events : List Event} (uneventful : Uneventful events) :
    Trusted env events := by
  rintro earlier later rfl
  exact absurd (mem_append_right _ mem_cons_self) uneventful

theorem composable_trusted : Composable (Trusted env) where
  nil := Uneventful.trusted not_mem_nil
  append first second trusted trustedSecond := by
    intro earlier later split
    rcases append_eq_append_iff.mp split with
      ⟨between, rfl, inSecond⟩ | ⟨between, inFirst, rest⟩
    · rcases trustedSecond between later inSecond with ⟨before, answer, verification, rfl, backed⟩
      exact ⟨first ++ before, answer, verification, (append_assoc _ _ _).symm, backed⟩
    · cases between with
      | nil =>
        rcases trustedSecond [] later (by simpa using rest.symm) with
          ⟨before, answer, verification, impossible, -⟩
        simp at impossible
      | cons event between =>
        rcases cons_eq_cons.mp rest with ⟨rfl, -⟩
        exact trusted earlier between inFirst

section

theorem quiet_updateTask (change : Task → Task) : Quiet RunState.trace (updateTask change) :=
  .modify fun _ => rfl

theorem quiet_markAgent (agentId : String) (status : AgentStatus) :
    Quiet RunState.trace (markAgent agentId status) :=
  .modify fun _ => rfl

theorem quiet_observe {α : Type} (answer : Nat → α) : Quiet RunState.trace (observe answer) :=
  .modifyGet fun _ => rfl

section

variable {α : Type} (answer : Nat → Except Raised α)

theorem quiet_ask : Quiet RunState.trace (ask answer) := by
  apply Quiet.bind (quiet_observe answer)
  intro result
  cases result with
  | ok value => exact .pure value
  | error raised => exact .throw raised

theorem quiet_await : Quiet RunState.trace (await env answer) :=
  .bind (quiet_observe _) fun change =>
    .bind (quiet_updateTask change) fun _ => quiet_ask answer

end

theorem quiet_attempting {α : Type} {program : Program α} {handler : String → Program α}
    (quiet : Quiet RunState.trace program)
    (quietHandler : ∀ message, Quiet RunState.trace (handler message)) :
    Quiet RunState.trace (attempting program handler) := by
  apply Quiet.tryCatch quiet
  intro raised
  cases raised with
  | exception message => exact quietHandler message
  | cancelled => exact .throw _

theorem quiet_persistOutput (result : String) :
    Quiet RunState.trace (persistOutput env result) := by
  apply Quiet.bind (quiet_observe _)
  intro wsRoot
  cases wsRoot with
  | none => exact .pure _
  | some wsRoot => exact .ite (quiet_attempting (quiet_ask _) fun _ => .pure _) (.pure _)

theorem quiet_captureAfter (cwd : Option String) : Quiet RunState.trace (captureAfter env cwd) :=
  .ite (.pure _) (.bind (quiet_ask _) fun _ => .pure _)

theorem quiet_captureBefore : Quiet RunState.trace (captureBefore env) :=
  quiet_attempting (.bind (quiet_ask _) fun _ => .pure _) fun _ => .pure _

end

section

theorem emits_record (event : Event) : Emits RunState.trace event (record event) := by
  intro state
  exact ⟨[event], rfl, ⟨.unit, rfl⟩, rfl⟩

theorem emits_moveTo (status : TaskStatus) :
    Emits RunState.trace (.moved status) (moveTo status) := by
  intro state
  exact ⟨[.moved status], rfl, ⟨.unit, rfl⟩, rfl⟩

theorem uneventful_record {event : Event} (other : event ≠ .moved .completed) :
    LogsOnly RunState.trace Uneventful (record event) := by
  apply Logs.mono (emits_record event)
  rintro _ _ ⟨-, rfl⟩ member
  exact other (mem_singleton.mp member).symm

theorem uneventful_moveTo {status : TaskStatus} (other : status ≠ .completed) :
    LogsOnly RunState.trace Uneventful (moveTo status) := by
  apply Logs.mono (emits_moveTo status)
  rintro _ _ ⟨-, rfl⟩ member
  cases mem_singleton.mp member
  exact other rfl

theorem uneventful_publish (topic : String) :
    LogsOnly RunState.trace Uneventful (publish env topic) := by
  apply LogsOnly.bind composable_uneventful
  · exact .of_quiet composable_uneventful (quiet_await _)
  · intro _
    exact uneventful_record (by simp)

theorem uneventful_publishCompleted : LogsOnly RunState.trace Uneventful (publishCompleted env) :=
  .bind composable_uneventful (uneventful_publish _) fun _ => uneventful_publish _

theorem uneventful_publishFailed : LogsOnly RunState.trace Uneventful (publishFailed env) :=
  .bind composable_uneventful (uneventful_publish _) fun _ => uneventful_publish _

theorem uneventful_failTask (agent : Agent) (error : String) :
    LogsOnly RunState.trace Uneventful (failTask env agent error) := by
  apply LogsOnly.behind composable_uneventful (quiet_markAgent _ _)
  intro _
  apply LogsOnly.bind composable_uneventful (uneventful_moveTo (by decide))
  intro _
  apply LogsOnly.behind composable_uneventful (quiet_updateTask _)
  intro _
  exact uneventful_publishFailed

theorem uneventful_executeAutonomousFallback (agent : Agent) :
    LogsOnly RunState.trace Uneventful (executeAutonomousFallback env agent) := by
  apply LogsOnly.behind composable_uneventful (quiet_ask _)
  intro wsRoot
  apply LogsOnly.behind composable_uneventful (quiet_observe _)
  intro reason
  apply LogsOnly.behind composable_uneventful .get
  intro state
  apply LogsOnly.behind composable_uneventful (quiet_markAgent _ _)
  intro _
  apply LogsOnly.bind composable_uneventful (uneventful_moveTo (by decide))
  intro _
  apply LogsOnly.behind composable_uneventful (quiet_updateTask _)
  intro _
  exact uneventful_publishFailed

theorem uneventful_giveUp (agent failing : Agent) (provider : ProviderInfo)
    (message : Nat → String) :
    LogsOnly RunState.trace Uneventful (giveUp env agent failing provider message) := by
  apply LogsOnly.behind composable_uneventful .get
  intro state
  apply LogsOnly.ite
  · apply LogsOnly.behind composable_uneventful (quiet_markAgent _ _)
    intro _
    exact uneventful_failTask failing _
  · exact uneventful_executeAutonomousFallback failing

theorem trusted_of_uneventful {α : Type} {program : Program α}
    (uneventful : LogsOnly RunState.trace Uneventful program) :
    LogsOnly RunState.trace (Trusted env) program :=
  .mono uneventful fun _ _ nothing => nothing.trusted

end

/-! ## The attempts -/

/-- What an answer leads to: nothing is completed, or first the verification is positive and
then the task is completed, once. -/
def Concludes (env : Environment) (answer : Option String) (events : List Event) : Prop :=
  Uneventful events ∨ ∃ verification rest,
    events = .verified verification :: .moved .completed :: rest ∧ Uneventful rest ∧
      Backed env answer verification

theorem Backed.trusted {answer : Option String} {verification : ArtifactVerification}
    (backed : Backed env answer verification) :
    Trusted env [.answered answer, .verified verification, .moved .completed] := by
  intro earlier later split
  rcases earlier with _ | ⟨first, _ | ⟨second, _ | ⟨third, earlier⟩⟩⟩
  · cases split
  · cases split
  · cases split
    exact ⟨[], answer, verification, rfl, backed⟩
  · simp at split

theorem Concludes.trusted {answer : Option String} {events : List Event}
    (concludes : Concludes env answer events) : Trusted env (.answered answer :: events) := by
  rcases concludes with uneventful | ⟨verification, rest, rfl, uneventful, backed⟩
  · apply Uneventful.trusted
    intro member
    rcases mem_cons.mp member with impossible | member
    · cases impossible
    · exact uneventful member
  · exact composable_trusted.append _ rest backed.trusted uneventful.trusted

theorem logs_concludeAttempt (verification : ArtifactVerification) : Logs RunState.trace
      (fun _ events => Uneventful events ∨ verification.ok = true ∧ ∃ rest,
        events = .verified verification :: .moved .completed :: rest ∧ Uneventful rest)
      (concludeAttempt env verification) := by
  apply Emits.andThen (emits_record _)
  intro _
  apply Quiet.andThen (quiet_updateTask _) (by simp [Uneventful])
  intro _
  apply Logs.ite
  · intro ok
    apply Emits.andThen (emits_moveTo _)
    intro _
    apply Quiet.andThen (quiet_ask _) (fun _ => .inr ⟨ok, [], rfl, composable_uneventful.nil⟩)
    intro _
    have uneventful : LogsOnly RunState.trace Uneventful (do
        publishCompleted env
        pure AttemptOutcome.completed) :=
      .bind composable_uneventful uneventful_publishCompleted fun _ =>
        .pure composable_uneventful _
    exact .mono uneventful fun _ rest nothing => .inr ⟨ok, rest, rfl, nothing⟩
  · intro _
    apply Emits.andThen (emits_moveTo _)
    intro _
    apply Quiet.andThen (quiet_ask _) (by simp [Uneventful])
    intro _
    have uneventful : LogsOnly RunState.trace Uneventful (do
        publish env "task.plan_generated"
        pure AttemptOutcome.planGenerated) :=
      .bind composable_uneventful (uneventful_publish _) fun _ =>
        .pure composable_uneventful _
    apply Logs.mono uneventful
    intro _ rest nothing
    left
    exact composable_uneventful.append
      [.verified verification, .moved .planGenerated] rest (by simp [Uneventful]) nothing

variable (agent : Agent)

section

variable {answer : Option String} {call : Nat} (asked : env.execute call = .ok answer)
variable (before : Option WorkspaceSnapshot) (cwd : Option String) (state : RunState)
include asked

theorem concludes_verifyAttempt (passes : PassesGuards env.lower (answer.getD ""))
    {savedFiles : List String}
    (saved : savedAt env (answer.getD "") (call + 1) = (savedFiles, state.calls)) :
    Ends (fun _ after => ∃ events, after.trace = state.trace ++ events ∧
        Concludes env answer events)
      (verifyAttempt env savedFiles before cwd >>= concludeAttempt env) state := by
  have concluded : ∀ (verification : ArtifactVerification) (current : RunState),
      current.trace = state.trace → (verification.ok = true →
        Examines env state.task.role before cwd (savedFiles, state.calls) verification) →
      Ends (fun _ after => ∃ events, after.trace = state.trace ++ events ∧
        Concludes env answer events) (concludeAttempt env verification) current := by
    intro verification current same examined
    obtain ⟨events, logged, concludes⟩ := logs_concludeAttempt verification current
    refine ⟨events, same ▸ logged, ?_⟩
    rcases concludes with uneventful | ⟨ok, rest, rfl, uneventful⟩
    · exact .inl uneventful
    · exact .inr ⟨verification, rest, rfl, uneventful, passes, ok, call, _, before, cwd, asked,
        saved ▸ examined ok⟩
  rw [ends_bind, ends_verifyAttempt]
  split
  next nowhere => exact concluded _ _ rfl fun _ => by rw [Examines, if_pos nowhere]
  next somewhere =>
    split
    next after captured =>
      refine concluded _ _ rfl fun _ => ?_
      rw [Examines, if_neg somewhere]
      exact ⟨after, captured, rfl⟩
    · exact concluded _ _ rfl nofun
    · exact ⟨[], (append_nil _).symm, .inl composable_uneventful.nil⟩

theorem concludes_finalizeAttempt (behind : state.calls = call + 1) :
    Ends (fun _ after => ∃ events, after.trace = state.trace ++ events ∧
        Concludes env answer events)
      (finalizeAttempt env agent answer before cwd) state := by
  unfold finalizeAttempt
  rw [ends_ite]
  split
  · rw [ends_bind, ends_ask]
    cases env.finishExecution state.calls with
    | _ => exact ⟨[], (append_nil _).symm, .inl composable_uneventful.nil⟩
  next accepted =>
    have passes : PassesGuards env.lower (answer.getD "") := by
      rw [not_or, Bool.not_eq_true, Bool.not_eq_true] at accepted
      exact accepted
    rw [ends_bind, ends_markAgent, andThen_ok, ends_bind, ends_updateTask, andThen_ok, ends_bind,
      ends_persistOutput]
    split
    next files =>
      split
      next savedFiles saved =>
        refine concludes_verifyAttempt asked before cwd _ passes ?_
        rw [savedAt, ← behind, if_pos files, saved]
      next message saved =>
        refine concludes_verifyAttempt asked before cwd _ passes ?_
        rw [savedAt, ← behind, if_pos files, saved]
      · exact ⟨[], (append_nil _).symm, .inl composable_uneventful.nil⟩
    next none =>
      refine concludes_verifyAttempt asked before cwd _ passes ?_
      rw [savedAt, ← behind, if_neg none]

end

variable (provider : ProviderInfo) (before : Option WorkspaceSnapshot) (cwd : Option String)

theorem trusted_executeAttempt : LogsOnly RunState.trace (Trusted env)
      (executeAttempt env agent before cwd) := by
  intro state
  change Ends (fun _ after => ∃ events, after.trace = state.trace ++ events ∧
    Trusted env events) (executeAttempt env agent before cwd) state
  unfold executeAttempt
  rw [ends_bind, ends_await]
  cases asked : env.execute (state.calls + 1) with
  | error raised => exact ⟨[], (append_nil _).symm, composable_trusted.nil⟩
  | ok answer =>
    rw [andThen_ok, ends_bind, ends_record, andThen_ok]
    refine (concludes_finalizeAttempt agent asked before cwd _ rfl).mono ?_
    rintro _ after ⟨events, logged, concludes⟩
    exact ⟨.answered answer :: events, by rw [logged]; simp, concludes.trusted⟩

theorem trusted_attempting {α : Type} {program : Program α} {handler : String → Program α}
    (trusted : LogsOnly RunState.trace (Trusted env) program)
    (trustedHandler : ∀ message, LogsOnly RunState.trace (Trusted env) (handler message)) :
    LogsOnly RunState.trace (Trusted env) (attempting program handler) := by
  apply LogsOnly.tryCatch composable_trusted trusted
  intro raised
  cases raised with
  | exception message => exact trustedHandler message
  | cancelled => exact .of_quiet composable_trusted (.throw _)

theorem trusted_tryProvider : LogsOnly RunState.trace (Trusted env)
      (tryProvider env agent before cwd) := by
  apply trusted_attempting (trusted_executeAttempt agent before cwd)
  intro message
  exact .of_quiet composable_trusted (.bind (quiet_ask _) fun _ => .pure _)

theorem trusted_retrySameProvider : LogsOnly RunState.trace (Trusted env)
      (retrySameProvider env agent before cwd) := by
  apply LogsOnly.behind composable_trusted .get
  intro state
  apply LogsOnly.ite
  · apply LogsOnly.behind composable_trusted (quiet_updateTask _)
    intro _
    apply LogsOnly.behind composable_trusted (quiet_ask _)
    intro _
    exact trusted_tryProvider agent before cwd
  · exact .pure composable_trusted _

theorem quiet_markProviderFailed (name : String) :
    Quiet RunState.trace (markProviderFailed env name) :=
  .bind (quiet_observe _) fun _ => .modify fun _ => rfl

theorem quiet_pickFallbackProvider (currentName role : String) :
    Quiet RunState.trace (pickFallbackProvider env currentName role) := by
  apply Quiet.bind (quiet_observe _)
  intro providers
  apply Quiet.bind (quiet_observe _)
  intro now
  apply Quiet.bind
  · exact .modify fun _ => rfl
  intro _
  apply Quiet.bind .get
  intro state
  simp only
  split
  · exact .pure _
  · apply Quiet.bind
    · exact .modify fun _ => rfl
    · exact fun _ => .pure _

theorem trusted_tryFallback (fallbackProvider : ProviderInfo) (before : Option WorkspaceSnapshot) :
    LogsOnly RunState.trace (Trusted env)
      (tryFallback env agent provider fallbackProvider before) := by
  apply LogsOnly.behind composable_trusted (quiet_updateTask _)
  intro _
  apply LogsOnly.behind composable_trusted (quiet_ask _)
  intro agentId
  apply LogsOnly.behind composable_trusted (quiet_markAgent _ _)
  intro _
  apply LogsOnly.behind composable_trusted (quiet_updateTask _)
  intro _
  apply LogsOnly.behind composable_trusted (quiet_ask _)
  intro _
  apply LogsOnly.behind composable_trusted (quiet_await _)
  intro cwd
  apply trusted_attempting
  · exact .bind composable_trusted (trusted_executeAttempt _ before cwd) fun _ =>
      .pure composable_trusted _
  · intro message
    apply LogsOnly.behind composable_trusted (quiet_ask _)
    intro _
    exact .bind composable_trusted
      (trusted_of_uneventful (uneventful_giveUp _ _ _ _)) fun _ =>
      .pure composable_trusted _

theorem trusted_settleByFallback (fallbackProvider : Option ProviderInfo) :
    LogsOnly RunState.trace (Trusted env)
      (settleByFallback env agent provider before fallbackProvider) := by
  cases fallbackProvider with
  | none => exact .pure composable_trusted _
  | some fallbackProvider =>
    apply LogsOnly.behind composable_trusted .get
    intro state
    apply LogsOnly.ite
    · exact trusted_tryFallback agent provider fallbackProvider before
    · exact .pure composable_trusted _

theorem trusted_fallBack : LogsOnly RunState.trace (Trusted env)
      (fallBack env agent provider before) := by
  apply LogsOnly.behind composable_trusted (quiet_markProviderFailed _)
  intro _
  apply LogsOnly.behind composable_trusted .get
  intro state
  apply LogsOnly.behind composable_trusted (quiet_pickFallbackProvider _ _)
  intro fallbackProvider
  apply LogsOnly.bind composable_trusted (trusted_settleByFallback _ _ _ _)
  intro settled
  apply LogsOnly.ite
  · exact .pure composable_trusted _
  · exact trusted_of_uneventful (uneventful_giveUp agent agent provider _)

theorem trusted_runProvider : LogsOnly RunState.trace (Trusted env) (runProvider env agent) := by
  apply LogsOnly.behind composable_trusted (quiet_observe _)
  intro providers
  cases providers.get? agent.provider with
  | none => exact trusted_of_uneventful (uneventful_failTask agent _)
  | some provider =>
    apply LogsOnly.bind composable_trusted (trusted_of_uneventful (uneventful_moveTo (by decide)))
    intro _
    apply LogsOnly.behind composable_trusted (quiet_updateTask _)
    intro _
    apply LogsOnly.bind composable_trusted (trusted_of_uneventful (uneventful_publish _))
    intro _
    apply LogsOnly.behind composable_trusted
      (quiet_attempting (quiet_await _) fun _ => .pure _)
    intro _
    apply LogsOnly.behind composable_trusted (quiet_ask _)
    intro _
    apply LogsOnly.behind composable_trusted (quiet_await _)
    intro cwd
    apply LogsOnly.behind composable_trusted quiet_captureBefore
    intro before
    apply LogsOnly.bind composable_trusted (trusted_tryProvider agent before cwd)
    intro first
    apply LogsOnly.ite
    · apply LogsOnly.bind composable_trusted (trusted_retrySameProvider agent before cwd)
      intro second
      apply LogsOnly.ite
      · exact trusted_fallBack agent provider before
      · exact .pure composable_trusted _
    · exact .pure composable_trusted _

/-- In every run, whatever the providers answer and whatever is raised, the task is moved to
COMPLETED only behind an answer of that attempt that passed both guards and a verification of
that attempt that was positive. -/
theorem runProvider_completes_backed (env : Environment) (agent : Agent) (state : RunState) :
    ∃ events, (finalState (runProvider env agent state)).trace = state.trace ++ events ∧
      ∀ earlier later, events = earlier ++ .moved .completed :: later →
        ∃ before answer verification,
          earlier = before ++ [.answered answer, .verified verification] ∧
            Backed env answer verification :=
  trusted_runProvider agent state

/-- A provider that is not authorized at first and writes a file at the second attempt. -/
def sampleEnvironment : Environment where
  lower := String.toLower
  paths :=
    { basename := id, isabs := fun _ => false, join := fun root path => root ++ "/" ++ path,
      normpath := id }
  maxAttempts := 3
  meanwhile := fun _ => id
  providers := fun _ =>
    .ofList [("codex", { name := "codex", kind := "codex", capabilities := ["coding"] })]
  monotonic := fun _ => 0
  publish := fun _ => .ok ()
  writeMemory := fun _ => .ok ()
  startExecution := fun _ => .ok ()
  finishExecution := fun _ => .ok ()
  executionCwd := fun _ => .ok (some "work")
  spawn := fun _ => .ok "agent"
  execute := fun call => .ok (some (if call < 12 then "HTTP 401 Unauthorized" else "done"))
  capture := fun call => .ok
    { root := "work", files := if call < 12 then .empty else .ofList [("app.py", 12)] }
  workspaceRoot := fun _ => none
  reportRoot := fun _ => .ok "work"
  extractAndPersistFiles := fun _ => .ok []
  files := fun _ =>
    { existing := fun path => path = "work/app.py", isfile := fun path => path = "work/app.py",
      getsize := fun _ => .ok 12 }
  unreachable := fun _ => "no provider could execute this task"

example :
    (finalState (runProvider sampleEnvironment { id := "agent", provider := "codex" }
      { task := { id := "task", title := "Write", role := "coding", attempts := 1 }
        agents := .empty, failedProviders := .empty })).trace.filterMap
          (fun
            | .answered answer => answer
            | .moved .completed => some "COMPLETED"
            | _ => none) =
      ["HTTP 401 Unauthorized", "done", "COMPLETED"] := by
  decide +kernel

end AgenticOS.Orchestrator
