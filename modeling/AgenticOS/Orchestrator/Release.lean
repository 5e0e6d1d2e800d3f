import AgenticOS.Orchestrator.Abandonment

/-!
# Which agents are released

A run marks agents as running: the agent of the task before it starts, and another one when
it falls back on another provider. An agent is released when it has completed or failed.
What keeps one is that the run goes on with the other one, or that a call raises before
either is marked.

The predicates `…Releases` say of each part of a run, given the number of its first call,
that no agent is left running behind it; what they turn on is whether the agent of the task
has stopped already.
-/

namespace AgenticOS.Orchestrator

open Transition Program Dict

/-- The agents that run behind the run are others, and they ran before it. -/
def Released (agent : Agent) (before after : Dict String AgentStatus) : Prop :=
  ∀ id, after.get? id = some .running → before.get? id = some .running ∧ id ≠ agent.id

/-- Besides others that ran before only the agent of the task runs, unless it has stopped. -/
def Manned (agent : Agent) (before : Dict String AgentStatus) (stopped : Prop)
    (current : Dict String AgentStatus) : Prop :=
  ∀ id, current.get? id = some .running ↔
    if id = agent.id then ¬ stopped else before.get? id = some .running

/-- An agent that is spawned is neither the agent of the task nor one that runs. -/
def Fresh (env : Environment) (agent : Agent) (before : Dict String AgentStatus) : Prop :=
  ∀ call id, env.spawn call = .ok id → id ≠ agent.id ∧ before.get? id ≠ some .running

section

variable {agent : Agent} {before current : Dict String AgentStatus} {stopped : Prop}

theorem Manned.begin (agent : Agent) (before : Dict String AgentStatus) :
    Manned agent before (before.get? agent.id ≠ some .running) before := by
  intro id
  split
  next same =>
    rw [same, ne_eq, not_not]
  next => exact .rfl

section

variable (manned : Manned agent before stopped current)
include manned

theorem Manned.released_iff : Released agent before current ↔ stopped := by
  constructor
  · intro released
    by_contra runs
    have running : current.get? agent.id = some .running := by
      rw [manned, if_pos rfl]
      exact runs
    exact (released agent.id running).2 rfl
  · intro hasStopped id running
    rw [manned] at running
    split at running
    next => exact absurd hasStopped running
    next other => exact ⟨running, other⟩

theorem Manned.stop (status : AgentStatus) (stops : status ≠ .running) :
    Manned agent before True (current.set agent.id status) := by
  intro id
  rw [get?_set]
  split
  next => simpa using stops
  next other =>
    rw [manned, if_neg other]

theorem Manned.of_others {id : String} (fresh : id ≠ agent.id ∧ before.get? id ≠ some .running)
    {later : Dict String AgentStatus}
    (others : ∀ other, other ≠ id → later.get? other = current.get? other)
    (gone : later.get? id ≠ some .running) : Manned agent before stopped later := by
  intro other
  by_cases same : other = id
  · rw [same, if_neg fresh.1]
    exact iff_of_false gone fresh.2
  · rw [others other same]
    exact manned other

end

theorem not_released_of_running {id : String}
    (fresh : id ≠ agent.id ∧ before.get? id ≠ some .running)
    (running : current.get? id = some .running) : ¬ Released agent before current :=
  fun released => fresh.2 (released id running).1

end

/-- What is left to show behind a call that may raise. -/
def answered {α : Type} (answer : Except Raised α) (raised : Prop) (returned : α → Prop) : Prop :=
  match answer with
  | .ok value => returned value
  | .error _ => raised

/-- What is left to show behind a call whose exceptions are caught. -/
def unlessCancelled {α : Type} (answer : Except Raised α) (cancelled goesOn : Prop) : Prop :=
  match answer with
  | .error .cancelled => cancelled
  | _ => goesOn

section

variable (env : Environment)

/-- The agents are released behind an attempt, or behind what follows it. -/
def Reply.Releases (role : String) (before : Option WorkspaceSnapshot) (cwd : Option String)
    (stopped : Prop) (otherwise : Prop → Nat → Prop) : Reply → Prop
  | .cancelled => stopped
  | .raised next =>
    answered (env.finishExecution next) stopped fun _ => otherwise stopped (next + 1)
  | .refused next => otherwise stopped next
  | .accepted answer next =>
    match announcementAt env role before cwd answer next with
    | .ended => True
    | .raised next => answered (env.finishExecution next) True fun _ => otherwise True (next + 1)

variable (state : RunState) (providerName : String) (provider : ProviderInfo)

/-- The agent of the task is released when the task is given up. -/
def GiveUpReleases (stopped : Prop) (call : Nat) : Prop :=
  stopped ∨ GiveUpSettles env state providerName provider call

variable (before : Option WorkspaceSnapshot)

/-- Both agents are released behind the attempt at another provider: its own only if the
attempt is accepted or raises an exception, that of the task only if it has stopped before or
if both are marked as failed. -/
def Reply.ReleasesBoth (cwd : Option String)
    (stopped : Prop) : Reply → Prop
  | .cancelled => False
  | .raised next =>
    Served (env.finishExecution next) ∧
      (Excused env providerName state.task.title provider ∨
        stopped ∧ Served (env.reportRoot (next + 1)))
  | .refused _ => False
  | .accepted answer next =>
    match announcementAt env state.task.role before cwd answer next with
    | .ended => stopped
    | .raised next => stopped ∨ Served (env.finishExecution next) ∧
        Excused env providerName state.task.title provider

/-- The attempt at another provider. -/
def ThirdReleases (stopped : Prop) (call : Nat) : Prop :=
  answered (env.spawn call) stopped fun _ =>
    Served (env.startExecution (call + 1)) ∧
      ∃ cwd, env.executionCwd (call + 3) = .ok cwd ∧
        (replyAt env (call + 4)).ReleasesBoth env state providerName provider before cwd stopped

/-- What follows when the task's own provider has failed. -/
def FallBackReleases (attempts : Nat) (stopped : Prop) (call : Nat) : Prop :=
  if fallbackChoice env state providerName call ≠ none ∧
      (attempts : Int) < env.maxAttempts then
    ThirdReleases env state providerName provider before stopped (call + 3)
  else GiveUpReleases env state providerName provider stopped (call + 3)

/-- The second attempt, and what follows. -/
def RetryReleases (cwd : Option String) (stopped : Prop) (call : Nat) : Prop :=
  if (state.task.attempts : Int) < env.maxAttempts then
    answered (env.startExecution call) stopped fun _ =>
      (replyAt env (call + 1)).Releases env state.task.role before cwd stopped
        (FallBackReleases env state providerName provider before (state.task.attempts + 1))
  else FallBackReleases env state providerName provider before state.task.attempts stopped call

/-- A run at a provider releases its agents: where the provider is not registered, or where
every part of the run does as far as it gets. -/
def RunReleases (agent : Agent) : Prop :=
  let stopped := state.agents.get? agent.id ≠ some .running
  match (env.providers state.calls).get? agent.provider with
  | none => True
  | some provider =>
    answered (env.publish (state.calls + 2)) stopped fun _ =>
    unlessCancelled (env.writeMemory (state.calls + 4)) stopped <|
    answered (env.startExecution (state.calls + 5)) stopped fun _ =>
    answered (env.executionCwd (state.calls + 7)) stopped fun cwd =>
    unlessCancelled (env.capture (state.calls + 8)) stopped <|
    (replyAt env (state.calls + 9)).Releases env state.task.role
      (env.capture (state.calls + 8)).toOption cwd stopped
      (RetryReleases env state agent.provider provider (env.capture (state.calls + 8)).toOption cwd)

end

def Releasing {α : Type} (agent : Agent) (before : Dict String AgentStatus)
    (program : Program α) (state : RunState) : Prop :=
  Ends (fun _ after => Released agent before after.agents) program state

section

variable {env : Environment} {agents : Dict String AgentStatus}

theorem keeps_agents_publish (topic : String) :
    Keeps (fun state => state.agents = agents) (publish env topic) := by
  intro state same
  change Ends (fun _ after => after.agents = agents) (publish env topic) state
  rw [ends_publish, ends_await]
  cases env.publish (state.calls + 1) <;> exact same

theorem keeps_agents_publishFailed :
    Keeps (fun state => state.agents = agents) (publishFailed env) :=
  .bind (keeps_agents_publish _) fun _ => keeps_agents_publish _

theorem ends_failTask (failing : Agent) (error : String) (state : RunState) :
    Ends (fun _ after => after.agents = state.agents.set failing.id .failed)
      (failTask env failing error) state := by
  unfold failTask
  rw [ends_bind, ends_markAgent, andThen_ok, ends_bind, ends_moveTo, andThen_ok, ends_bind,
    ends_updateTask, andThen_ok]
  exact keeps_agents_publishFailed.ends rfl

def agentsGivenUp (env : Environment) (state : RunState) (agent failing : Agent)
    (provider : ProviderInfo) : Dict String AgentStatus :=
  if Excused env agent.provider state.task.title provider then
    (state.agents.set agent.id .failed).set failing.id .failed
  else
    match env.reportRoot state.calls with
    | .ok _ => state.agents.set failing.id .failed
    | .error _ => state.agents

theorem ends_giveUp (agent failing : Agent) (provider : ProviderInfo) (message : Nat → String)
    (state : RunState) :
    Ends (fun _ after => after.agents = agentsGivenUp env state agent failing provider)
      (giveUp env agent failing provider message) state := by
  unfold giveUp agentsGivenUp
  rw [ends_bind, ends_get, andThen_ok, ends_ite]
  change if Excused env agent.provider state.task.title provider then _ else _
  by_cases excused : Excused env agent.provider state.task.title provider
  · rw [if_pos excused, if_pos excused, ends_bind, ends_markAgent, andThen_ok]
    exact ends_failTask failing _ _
  · rw [if_neg excused, if_neg excused]
    unfold executeAutonomousFallback
    rw [ends_bind, ends_ask]
    cases env.reportRoot state.calls with
    | ok wsRoot =>
      rw [andThen_ok, ends_bind, ends_observe, andThen_ok, ends_bind, ends_get, andThen_ok,
        ends_bind, ends_markAgent, andThen_ok, ends_bind, ends_moveTo, andThen_ok, ends_bind,
        ends_updateTask, andThen_ok]
      exact keeps_agents_publishFailed.ends rfl
    | error raised => rfl

theorem get?_agentsGivenUp {state : RunState} {agent : Agent} {provider : ProviderInfo}
    {id : String} (other : id ≠ agent.id) :
    (agentsGivenUp env state agent agent provider).get? id = state.agents.get? id := by
  unfold agentsGivenUp
  split
  next => rw [get?_set_ne _ other, get?_set_ne _ other]
  next =>
    cases env.reportRoot state.calls with
    | ok wsRoot => exact get?_set_ne _ other _
    | error raised => rfl

end

/-! ## The parts of a run -/

section

variable {env : Environment} {agent : Agent} {before : Dict String AgentStatus}
  {stopped : Prop} {origin state : RunState}

variable {α : Type}

theorem releasing_iff {program : Program α} {agents : Dict String AgentStatus}
    (ends : Ends (fun _ after => after.agents = agents) program state) :
    Releasing agent before program state ↔ Released agent before agents := by
  have known : (finalState (program state)).agents = agents := ends
  change Released agent before (finalState (program state)).agents ↔ _
  rw [known]

variable {β : Type}

section

variable (stopped : Prop) (answer : Nat → Except Raised α) (next : α → Program β)
  (manned : Manned agent before stopped state.agents)
include manned

theorem releasing_ask :
    Releasing agent before (ask answer >>= next) state ↔
      answered (answer state.calls) stopped fun value =>
        Releasing agent before (next value) { state with calls := state.calls + 1 } := by
  unfold Releasing
  rw [ends_bind, ends_ask]
  cases answer state.calls with
  | ok value => exact .rfl
  | error raised => exact manned.released_iff

theorem releasing_await :
    Releasing agent before (await env answer >>= next) state ↔
      answered (answer (state.calls + 1)) stopped fun value =>
        Releasing agent before (next value) { state with
          task := env.meanwhile state.calls state.task, calls := state.calls + 2 } := by
  unfold Releasing
  rw [ends_bind, ends_await]
  cases answer (state.calls + 1) with
  | ok value => exact .rfl
  | error raised => exact manned.released_iff

end

theorem releasing_publish (stopped : Prop) (topic : String) (next : Unit → Program β)
    (manned : Manned agent before stopped state.agents) :
    Releasing agent before (publish env topic >>= next) state ↔
      answered (env.publish (state.calls + 1)) stopped fun _ =>
        Releasing agent before (next ()) { state with
          task := env.meanwhile state.calls state.task
          calls := state.calls + 2
          trace := state.trace ++ [.published topic] } := by
  unfold publish
  rw [bind_assoc, releasing_await stopped _ _ manned]
  cases env.publish (state.calls + 1) with
  | ok value =>
    unfold Releasing
    rw [ends_bind, ends_record, andThen_ok]
  | error raised => exact .rfl

theorem releasing_attempting_await (stopped : Prop) (answer : Nat → Except Raised Unit)
    (next : Unit → Program β) (manned : Manned agent before stopped state.agents) :
    Releasing agent before (attempting (await env answer) (fun _ => pure ()) >>= next) state ↔
      unlessCancelled (answer (state.calls + 1)) stopped
        (Releasing agent before (next ()) { state with
          task := env.meanwhile state.calls state.task, calls := state.calls + 2 }) := by
  unfold Releasing
  rw [ends_bind, ends_attempting, ends_await]
  cases answer (state.calls + 1) with
  | ok value => exact .rfl
  | error raised =>
    cases raised with
    | exception message => exact .rfl
    | cancelled => exact manned.released_iff

theorem releasing_captureBefore (stopped : Prop) (next : Option WorkspaceSnapshot → Program β)
    (manned : Manned agent before stopped state.agents) :
    Releasing agent before (captureBefore env >>= next) state ↔
      unlessCancelled (env.capture state.calls) stopped
        (Releasing agent before (next (env.capture state.calls).toOption)
          { state with calls := state.calls + 1 }) := by
  unfold Releasing captureBefore
  rw [ends_bind, ends_attempting, ends_map, ends_ask]
  cases env.capture state.calls with
  | ok snapshot => exact .rfl
  | error raised =>
    cases raised with
    | exception message => exact .rfl
    | cancelled => exact manned.released_iff

theorem releasing_tryProvider {next : AttemptOutcome → Program Unit}
    {otherwise : Prop → Nat → Prop} (undisturbed : Undisturbed env)
    (snapshot : Option WorkspaceSnapshot) (cwd : Option String) {role : String}
    (sameRole : state.task.role = role) (manned : Manned agent before stopped state.agents)
    (ends : ∀ outcome, outcome ≠ .error → next outcome = pure ())
    (goesOn : ∀ stoppedNow after, Alike state after →
      Manned agent before stoppedNow after.agents →
      (Releasing agent before (next .error) after ↔ otherwise stoppedNow after.calls)) :
    Releasing agent before (tryProvider env agent snapshot cwd >>= next) state ↔
      (replyAt env state.calls).Releases env role snapshot cwd stopped otherwise := by
  subst sameRole
  -- what follows on an exception of the attempt
  have failure (stoppedNow : Prop) (message : String) (after : RunState)
      (alike : Alike state after) (mannedNow : Manned agent before stoppedNow after.agents) :
      orCaught (andThen (fun _ final => Released agent before final.agents) next)
          (fun _ => ask env.finishExecution >>= fun _ => pure .error)
          (.error (.exception message)) after ↔
        answered (env.finishExecution after.calls) stoppedNow fun _ =>
          otherwise stoppedNow (after.calls + 1) := by
    rw [orCaught_exception, ends_bind, ends_ask]
    cases env.finishExecution after.calls with
    | ok value => exact goesOn stoppedNow _ (alike.trans ⟨rfl, rfl, rfl, rfl, rfl⟩) mannedNow
    | error raised => exact mannedNow.released_iff
  have attempt := ends_executeAttempt undisturbed agent snapshot cwd state
  unfold Releasing tryProvider
  rw [ends_bind, ends_attempting]
  unfold Ends at attempt ⊢
  generalize ending (executeAttempt env agent snapshot cwd state) = result at attempt ⊢
  generalize finalState (executeAttempt env agent snapshot cwd state) = after at attempt ⊢
  cases reply : replyAt env state.calls with
  | cancelled =>
    rw [reply] at attempt
    rcases attempt with ⟨rfl, unmoved⟩
    rw [← unmoved.agents] at manned
    exact manned.released_iff
  | raised next =>
    rw [reply] at attempt
    rcases attempt with ⟨⟨message, rfl⟩, unmoved, rfl⟩
    rw [← unmoved.agents] at manned
    exact failure stopped message after unmoved.toAlike manned
  | refused next =>
    rw [reply] at attempt
    rcases attempt with ⟨rfl, unmoved, rfl⟩
    rw [← unmoved.agents] at manned
    exact goesOn stopped after unmoved.toAlike manned
  | accepted answer next =>
    rw [reply] at attempt
    rcases attempt with ⟨agents, noError, announced, -, -⟩
    have hasStopped : Manned agent before True after.agents := by
      rw [agents]
      exact manned.stop .completed nofun
    dsimp only [Reply.Releases]
    cases announcement :
        announcementAt env state.task.role snapshot cwd answer next with
    | ended =>
      rw [announcement] at announced
      apply iff_of_true _ trivial
      cases result with
      | ok outcome =>
        rw [orCaught_ok, andThen_ok, ends outcome fun same => noError (congrArg _ same)]
        exact hasStopped.released_iff.mpr trivial
      | error raised =>
        cases raised with
        | exception message => exact absurd rfl (announced message)
        | cancelled => exact hasStopped.released_iff.mpr trivial
    | raised next =>
      rw [announcement] at announced
      rcases announced with ⟨⟨message, rfl⟩, alike, rfl⟩
      exact failure True message after alike hasStopped

/-- A task that is given up releases its agent, unless the report needs a workspace that
cannot be had. -/
theorem releasing_giveUp (provider : ProviderInfo) (message : Nat → String)
    (manned : Manned agent before stopped state.agents)
    (title : state.task.title = origin.task.title) :
    Releasing agent before (giveUp env agent agent provider message) state ↔
      GiveUpReleases env origin agent.provider provider stopped state.calls := by
  have released {agents : Dict String AgentStatus} (none : Manned agent before True agents) :
      Released agent before agents :=
    none.released_iff.mpr trivial
  apply (releasing_iff (ends_giveUp agent agent provider message state)).trans
  unfold agentsGivenUp GiveUpReleases GiveUpSettles
  rw [title]
  by_cases excused : Excused env agent.provider origin.task.title provider
  · rw [if_pos excused]
    exact iff_of_true (released ((manned.stop .failed nofun).stop .failed nofun))
      (.inr (.inl excused))
  · rw [if_neg excused, or_iff_right excused]
    cases env.reportRoot state.calls with
    | ok wsRoot =>
      exact iff_of_true (released (manned.stop .failed nofun)) (.inr (served_ok wsRoot))
    | error raised => simpa using manned.released_iff

variable {current : Dict String AgentStatus}

/-- The failure of both agents releases them if they are marked; else it depends on which of
them have stopped before. -/
theorem released_agentsGivenUp (failing : Agent) (provider : ProviderInfo)
    (fresh : failing.id ≠ agent.id ∧ before.get? failing.id ≠ some .running)
    (manned : Manned agent before stopped current)
    (others : ∀ other, other ≠ failing.id → state.agents.get? other = current.get? other) :
    Released agent before (agentsGivenUp env state agent failing provider) ↔
      Excused env agent.provider state.task.title provider ∨
        stopped ∧ (Served (env.reportRoot state.calls) ∨
          state.agents.get? failing.id ≠ some .running) := by
  have failed (agents : Dict String AgentStatus) :
      (agents.set failing.id .failed).get? failing.id ≠ some .running := by
    rw [get?_set_self]
    nofun
  unfold agentsGivenUp
  by_cases excused : Excused env agent.provider state.task.title provider
  · rw [if_pos excused]
    apply iff_of_true _ (.inl excused)
    refine Manned.released_iff (?_ : Manned agent _ True _) |>.mpr trivial
    apply (manned.stop .failed nofun).of_others fresh _ (failed _)
    intro other distinct
    rw [get?_set_ne _ distinct, get?_set, get?_set, others other distinct]
  · rw [if_neg excused, or_iff_right excused]
    cases env.reportRoot state.calls with
    | ok wsRoot =>
      rw [and_iff_left (.inl (served_ok wsRoot))]
      apply Manned.released_iff
      apply manned.of_others fresh _ (failed _)
      intro other distinct
      rw [get?_set_ne _ distinct, others other distinct]
    | error raised =>
      rw [or_iff_right (not_served_error raised)]
      by_cases running : state.agents.get? failing.id = some .running
      · apply iff_of_false (not_released_of_running fresh running)
        rintro ⟨-, gone⟩
        exact gone running
      · rw [and_iff_left running]
        exact (manned.of_others fresh others running).released_iff

theorem releasing_bind_pure (program : Program α) (value : β) :
    Releasing agent before (program >>= fun _ => pure value) state ↔
      Releasing agent before program state := by
  unfold Releasing
  rw [ends_bind]
  unfold Ends
  cases ending (program state) <;> exact .rfl

/-- An exception of the attempt at another provider gives both agents up, unless the
interruption of the execution raises. -/
theorem released_failedAttempt (failing : Agent) (provider : ProviderInfo)
    (message : Nat → String) (messageOf : String → Nat → String)
    (fresh : failing.id ≠ agent.id ∧ before.get? failing.id ≠ some .running)
    (manned : Manned agent before stopped current) (title : state.task.title = origin.task.title)
    (others : ∀ other, other ≠ failing.id → state.agents.get? other = current.get? other)
    (text : String) :
    orCaught (andThen (fun _ final => Released agent before final.agents) fun settled =>
        if settled = true then pure () else giveUp env agent agent provider message)
      (fun text => do
        ask env.finishExecution
        giveUp env agent failing provider (messageOf text)
        pure true) (.error (.exception text)) state ↔
      answered (env.finishExecution state.calls) (Released agent before state.agents)
        fun _ => Excused env agent.provider origin.task.title provider ∨
          stopped ∧ (Served (env.reportRoot (state.calls + 1)) ∨
            state.agents.get? failing.id ≠ some .running) := by
  rw [orCaught_exception, ends_bind, ends_ask]
  cases env.finishExecution state.calls with
  | error raised => exact .rfl
  | ok value =>
    rw [andThen_ok, ← ends_bind, bind_assoc]
    rw [← title]
    apply (releasing_bind_pure _ _).trans
    apply (releasing_iff (ends_giveUp agent failing provider _ _)).trans
    exact released_agentsGivenUp failing provider fresh manned others

theorem releasing_fallbackAttempt (undisturbed : Undisturbed env) (failing : Agent)
    (provider : ProviderInfo) (snapshot : Option WorkspaceSnapshot) (cwd : Option String)
    (message : Nat → String) (messageOf : String → Nat → String)
    (fresh : failing.id ≠ agent.id ∧ before.get? failing.id ≠ some .running)
    (manned : Manned agent before stopped current)
    (agents : state.agents = current.set failing.id .running)
    (title : state.task.title = origin.task.title) (role : state.task.role = origin.task.role) :
    Releasing agent before
        (attempting
          (do
            let outcome ← executeAttempt env failing snapshot cwd
            pure (decide (outcome ≠ .error)))
          (fun text => do
            ask env.finishExecution
            giveUp env agent failing provider (messageOf text)
            pure true) >>=
        fun settled => if settled = true then pure ()
          else giveUp env agent agent provider message) state ↔
      (replyAt env state.calls).ReleasesBoth env origin agent.provider provider
        snapshot cwd stopped := by
  have running (after : RunState) (same : after.agents = state.agents) :
      after.agents.get? failing.id = some .running := by
    rw [same, agents, get?_set_self]
  have others (after : RunState) (same : after.agents = state.agents) (other : String)
      (distinct : other ≠ failing.id) : after.agents.get? other = current.get? other := by
    rw [same, agents, get?_set_ne _ distinct]
  have attempt := ends_executeAttempt undisturbed failing snapshot cwd state
  unfold Releasing
  rw [ends_bind, ends_attempting, ends_bind]
  unfold Ends at attempt ⊢
  generalize ending (executeAttempt env failing snapshot cwd state) = result at attempt ⊢
  generalize finalState (executeAttempt env failing snapshot cwd state) = after at attempt ⊢
  cases reply : replyAt env state.calls with
  | cancelled =>
    rw [reply] at attempt
    rcases attempt with ⟨rfl, unmoved⟩
    exact iff_of_false (not_released_of_running fresh (running after unmoved.agents)) id
  | raised next =>
    rw [reply] at attempt
    rcases attempt with ⟨⟨text, rfl⟩, unmoved, rfl⟩
    apply (released_failedAttempt failing provider message messageOf fresh manned
      (unmoved.title.trans title) (others after unmoved.agents) text).trans
    dsimp only [Reply.ReleasesBoth]
    have runs := running after unmoved.agents
    cases env.finishExecution after.calls with
    | ok value => simp [answered, runs]
    | error raised => simpa [answered] using not_released_of_running fresh runs
  | refused next =>
    rw [reply] at attempt
    rcases attempt with ⟨rfl, unmoved, rfl⟩
    apply iff_of_false _ id
    intro released
    apply not_released_of_running fresh _
      ((releasing_iff (ends_giveUp agent agent provider message after)).mp released)
    rw [get?_agentsGivenUp fresh.1]
    exact running after unmoved.agents
  | accepted answer next =>
    rw [reply] at attempt
    rcases attempt with ⟨accepted, noError, announced, -, -⟩
    have gone : after.agents.get? failing.id ≠ some .running := by
      rw [accepted, get?_set_self]
      nofun
    have agreed (other : String) (distinct : other ≠ failing.id) :
        after.agents.get? other = current.get? other := by
      rw [accepted, get?_set_ne _ distinct]
      exact others state rfl other distinct
    have released := (manned.of_others fresh agreed gone).released_iff
    dsimp only [Reply.ReleasesBoth]
    rw [← role]
    cases announcement :
        announcementAt env state.task.role snapshot cwd answer next with
    | ended =>
      rw [announcement] at announced
      cases result with
      | ok outcome =>
        have settles : decide (outcome ≠ .error) = true :=
          decide_eq_true fun same => noError (congrArg _ same)
        rw [andThen_ok, ends_pure, orCaught_ok, andThen_ok, settles, if_pos rfl]
        exact released
      | error raised =>
        cases raised with
        | exception message => exact absurd rfl (announced message)
        | cancelled => exact released
    | raised next =>
      rw [announcement] at announced
      rcases announced with ⟨⟨text, rfl⟩, alike, rfl⟩
      apply (released_failedAttempt failing provider message messageOf fresh manned
        (alike.title.trans title) agreed text).trans
      dsimp only
      cases env.finishExecution after.calls with
      | ok value => simp [answered, gone, or_comm]
      | error raised => simpa [answered] using released

section

variable (undisturbed : Undisturbed env) (fresh : Fresh env agent before) (provider : ProviderInfo)
include undisturbed fresh

theorem releasing_tryFallback (fallbackProvider : ProviderInfo)
    (snapshot : Option WorkspaceSnapshot) (message : Nat → String)
    (manned : Manned agent before stopped state.agents)
    (title : state.task.title = origin.task.title) (role : state.task.role = origin.task.role) :
    Releasing agent before (tryFallback env agent provider fallbackProvider snapshot >>=
        fun settled => if settled = true then pure ()
          else giveUp env agent agent provider message) state ↔
      ThirdReleases env origin agent.provider provider snapshot stopped
        state.calls := by
  unfold tryFallback ThirdReleases
  unfold Releasing
  rw [bind_assoc, ends_bind, ends_updateTask, andThen_ok, bind_assoc]
  refine (releasing_ask stopped _ _ ?_).trans ?_
  · exact manned
  cases spawned : env.spawn state.calls with
  | error raised => exact .rfl
  | ok id =>
    dsimp only [answered]
    have freshId := fresh _ id spawned
    -- from here on the other agent is running
    have running (after : RunState) (same : after.agents = state.agents.set id .running) :
        ¬ Released agent before after.agents := by
      apply not_released_of_running freshId
      rw [same, get?_set_self]
    unfold Releasing
    rw [bind_assoc, ends_bind, ends_markAgent, andThen_ok, bind_assoc, ends_bind,
      ends_updateTask, andThen_ok, bind_assoc, ends_bind, ends_ask]
    cases env.startExecution (state.calls + 1) with
    | error raised =>
      apply iff_of_false
      · exact running _ rfl
      · rintro ⟨impossible, -⟩
        exact not_served_error raised impossible
    | ok value =>
      rw [and_iff_right (served_ok value), andThen_ok, bind_assoc, ends_bind, ends_await]
      cases env.executionCwd (state.calls + 3) with
      | error raised =>
        apply iff_of_false
        · exact running _ rfl
        · rintro ⟨cwd, impossible, -⟩
          cases impossible
      | ok cwd =>
        simp only [Except.ok.injEq, exists_eq_left']
        apply releasing_fallbackAttempt undisturbed ⟨id, fallbackProvider.name⟩ provider
          snapshot cwd message _ freshId manned
        · rfl
        · exact (undisturbed.title _ _).trans title
        · exact (undisturbed.role _ _).trans role

theorem releasing_fallBack (snapshot : Option WorkspaceSnapshot) {after : RunState}
    (manned : Manned agent before stopped after.agents)
    (title : after.task.title = state.task.title) (role : after.task.role = state.task.role)
    (failedProviders : after.failedProviders = state.failedProviders)
    (turn : after.providerRrIdx = state.providerRrIdx) :
    Releasing agent before (fallBack env agent provider snapshot) after ↔
      FallBackReleases env state agent.provider provider snapshot after.task.attempts
        stopped after.calls := by
  unfold fallBack markProviderFailed FallBackReleases Releasing
  rw [ends_bind, ends_bind, ends_observe, andThen_ok, ends_modify, andThen_ok, ends_bind,
    ends_get, andThen_ok, ends_bind]
  have picked := ends_pickFallbackProvider env agent.provider state
    { after with
      calls := after.calls + 1
      failedProviders :=
        after.failedProviders.set agent.provider (env.monotonic after.calls) }
    after.calls role (congrArg (Dict.set · _ _) failedProviders) turn rfl
  unfold Ends at picked ⊢
  rcases picked with ⟨chosen, sameTask, sameAgents, calls⟩
  rw [chosen, andThen_ok]
  generalize finalState _ = current at sameTask sameAgents calls ⊢
  have mannedNow : Manned agent before stopped current.agents := sameAgents ▸ manned
  have titleNow : current.task.title = state.task.title := sameTask ▸ title
  have roleNow : current.task.role = state.task.role := sameTask ▸ role
  cases fallbackChoice env state agent.provider after.calls with
  | none =>
    rw [if_neg fun possible => possible.1 rfl, ← calls]
    unfold settleByFallback
    rw [ends_bind, ends_pure, andThen_ok, if_neg Bool.false_ne_true]
    exact releasing_giveUp provider _ mannedNow titleNow
  | some fallbackProvider =>
    unfold settleByFallback
    by_cases again : (after.task.attempts : Int) < env.maxAttempts
    · rw [if_pos ⟨Option.some_ne_none _, again⟩, ← calls]
      rw [ends_bind, ends_bind, ends_get, andThen_ok, sameTask, if_pos again, ← ends_bind]
      exact releasing_tryFallback undisturbed fresh provider fallbackProvider snapshot _
        mannedNow titleNow roleNow
    · rw [if_neg fun possible => again possible.2, ← calls]
      rw [ends_bind, ends_bind, ends_get, andThen_ok, sameTask, if_neg again, ends_pure,
        andThen_ok, if_neg Bool.false_ne_true]
      exact releasing_giveUp provider _ mannedNow titleNow

theorem releasing_retry (snapshot : Option WorkspaceSnapshot) (cwd : Option String)
    {after : RunState} (alike : Alike state after)
    (manned : Manned agent before stopped after.agents) :
    Releasing agent before (retrySameProvider env agent snapshot cwd >>= fun second =>
        if second = .error then fallBack env agent provider snapshot else pure ())
        after ↔
      RetryReleases env state agent.provider provider snapshot cwd stopped
        after.calls := by
  unfold retrySameProvider RetryReleases
  rw [bind_assoc]
  unfold Releasing
  rw [ends_bind, ends_get, andThen_ok, ends_bind, ends_ite, alike.attempts]
  by_cases again : (state.task.attempts : Int) < env.maxAttempts
  · rw [if_pos again, if_pos again, ← ends_bind, bind_assoc, ends_bind, ends_updateTask,
      andThen_ok, bind_assoc]
    refine (releasing_ask stopped _ _ ?_).trans ?_
    · exact manned
    cases env.startExecution after.calls with
    | error raised => exact .rfl
    | ok value =>
      apply releasing_tryProvider undisturbed snapshot cwd
      · exact alike.role
      · exact manned
      · intro outcome accepted
        exact if_neg accepted
      · intro stoppedNow final alikeNow mannedNow
        have tried : final.task.attempts = state.task.attempts + 1 :=
          alikeNow.attempts.trans (congrArg (· + 1) alike.attempts)
        rw [if_pos rfl, ← tried]
        exact releasing_fallBack undisturbed fresh provider snapshot mannedNow
          (alikeNow.title.trans alike.title) (alikeNow.role.trans alike.role)
          (alikeNow.failedProviders.trans alike.failedProviders)
          (alikeNow.providerRrIdx.trans alike.providerRrIdx)
  · rw [if_neg again, if_neg again, ends_pure, andThen_ok, if_pos rfl, ← alike.attempts]
    exact releasing_fallBack undisturbed fresh provider snapshot manned alike.title alike.role
      alike.failedProviders alike.providerRrIdx

end

theorem answered_congr {answer : Except Raised α} {raised : Prop} {returned other : α → Prop}
    (same : ∀ value, returned value ↔ other value) :
    answered answer raised returned ↔ answered answer raised other := by
  cases answer with
  | ok value => exact same value
  | error failure => exact .rfl

theorem unlessCancelled_congr {answer : Except Raised α} {cancelled goesOn other : Prop}
    (same : goesOn ↔ other) :
    unlessCancelled answer cancelled goesOn ↔ unlessCancelled answer cancelled other := by
  rw [same]

end

/-- A run leaves no agent of its task running exactly if the condition says so. -/
theorem runProvider_releases_iff (env : Environment)
    (undisturbed : Undisturbed env) (agent : Agent) (state : RunState)
    (fresh : Fresh env agent state.agents) :
    Released agent state.agents (finalState (runProvider env agent state)).agents ↔
      RunReleases env state agent := by
  have manned := Manned.begin agent state.agents
  change Releasing agent state.agents (runProvider env agent) state ↔ _
  unfold runProvider RunReleases Releasing
  rw [ends_bind, ends_observe, andThen_ok]
  generalize (state.agents.get? agent.id ≠ some .running) = stopped at manned ⊢
  cases (env.providers state.calls).get? agent.provider with
  | none =>
    apply (releasing_iff (ends_failTask agent _ _)).trans
    apply iff_of_true _ trivial
    exact (manned.stop .failed nofun).released_iff.mpr trivial
  | some provider =>
    refine (releasing_publish stopped _ _ ?_).trans ?_
    · exact manned
    apply answered_congr
    intro _
    refine (releasing_attempting_await stopped _ _ ?_).trans ?_
    · exact manned
    apply unlessCancelled_congr
    refine (releasing_ask stopped _ _ ?_).trans ?_
    · exact manned
    apply answered_congr
    intro _
    refine (releasing_await stopped _ _ ?_).trans ?_
    · exact manned
    apply answered_congr
    intro cwd
    refine (releasing_captureBefore stopped _ ?_).trans ?_
    · exact manned
    apply unlessCancelled_congr
    apply releasing_tryProvider undisturbed _ cwd
    · simp only [undisturbed.role]
    · exact manned
    · intro outcome accepted
      exact if_neg accepted
    · intro stoppedNow final alike mannedNow
      apply releasing_retry undisturbed fresh provider _ cwd _ mannedNow
      refine .trans ?_ alike
      constructor
      · simp only [undisturbed.attempts]
      · simp only [undisturbed.title]
      · simp only [undisturbed.role]
      · rfl
      · rfl

/-- Two providers: their answers are errors until the given call. -/
def fallbackEnvironment (healthy : Nat) : Environment :=
  { sampleEnvironment with
    providers := fun _ => .ofList
      [("codex", { name := "codex", kind := "codex", capabilities := ["coding"] }),
        ("claude", { name := "claude", kind := "claude", capabilities := ["coding"] })]
    spawn := fun _ => .ok "second"
    execute := fun call =>
      .ok (some (if call < healthy then "HTTP 401 Unauthorized" else "done")) }

def dispatchedTask : RunState where
  task := { id := "task", title := "Write", role := "coding", status := .dispatched }
  agents := .ofList [("first", .running)]
  failedProviders := .empty

theorem dispatchedTask_releases_iff : Released ⟨"first", "codex"⟩ dispatchedTask.agents (finalState
        (runProvider (fallbackEnvironment 24) ⟨"first", "codex"⟩ dispatchedTask)).agents ↔
      RunReleases (fallbackEnvironment 24) dispatchedTask ⟨"first", "codex"⟩ := by
  apply runProvider_releases_iff
  · exact ⟨fun _ _ => rfl, fun _ _ => rfl, fun _ _ => rfl, fun _ _ => rfl⟩
  · intro call id spawned
    cases spawned
    decide

/-- A fallback that succeeds leaves the agent of the task running, and one that answers with
an error its own agent. -/
theorem fallback_leaks : ¬ Released ⟨"first", "codex"⟩ dispatchedTask.agents (finalState
        (runProvider (fallbackEnvironment 24) ⟨"first", "codex"⟩ dispatchedTask)).agents ∧
      ¬ Released ⟨"first", "codex"⟩ dispatchedTask.agents (finalState
        (runProvider (fallbackEnvironment 100) ⟨"first", "codex"⟩ dispatchedTask)).agents := by
  constructor
  · intro released
    exact (released "first" (by decide +kernel)).2 rfl
  · intro released
    exact absurd (released "second" (by decide +kernel)).1 (by decide)

end AgenticOS.Orchestrator
