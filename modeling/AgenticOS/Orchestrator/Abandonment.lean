import AgenticOS.Orchestrator.Completion

/-!
# Which tasks are abandoned

The handling of a task is to end with a terminal status. It does whenever it returns from
`runProvider`; what leaves a task behind is that no provider is found for it, or that a call
raises before the status is written at a place where nothing catches it.

The condition is one on the answers of the environment. The predicates `…Settles` say of
each later part of a run, given the number of its first call, that no call breaks it off
before the status is written.
-/

namespace AgenticOS.Orchestrator

open Transition Program

def Settled (state : RunState) : Prop :=
  state.task.status.Terminal
deriving Decidable

/-- The program ends with a terminal status, by return or by an exception. -/
def Settling {α : Type} (program : Program α) (state : RunState) : Prop :=
  Ends (fun _ after => Settled after) program state

section

variable (env : Environment)

/-- An attempt settles the task, or goes on to a part that does. -/
def Reply.Settles (cwd : Option String) (otherwise : Nat → Prop) : Reply → Prop
  | .cancelled => False
  | .raised next => Served (env.finishExecution next) ∧ otherwise (next + 1)
  | .refused next => otherwise next
  | .accepted answer next => Verifies env cwd answer next

variable (state : RunState) (providerName : String) (provider : ProviderInfo)

/-- A failure can be reported. -/
def GiveUpSettles (call : Nat) : Prop :=
  Excused env providerName state.task.title provider ∨ Served (env.reportRoot call)

/-- The attempt at another provider. -/
def ThirdSettles (call : Nat) : Prop :=
  Served (env.spawn call) ∧ Served (env.startExecution (call + 1)) ∧
    ∃ cwd, env.executionCwd (call + 3) = .ok cwd ∧
      (replyAt env (call + 4)).Settles env cwd (GiveUpSettles env state providerName provider)

/-- What follows when the task's own provider has failed. -/
def FallBackSettles (attempts call : Nat) : Prop :=
  if fallbackChoice env state providerName call ≠ none ∧
      (attempts : Int) < env.maxAttempts then
    ThirdSettles env state providerName provider (call + 3)
  else GiveUpSettles env state providerName provider (call + 3)

/-- The second attempt, and what follows. -/
def RetrySettles (cwd : Option String) (call : Nat) : Prop :=
  if (state.task.attempts : Int) < env.maxAttempts then
    Served (env.startExecution call) ∧
      (replyAt env (call + 1)).Settles env cwd
        (FallBackSettles env state providerName provider (state.task.attempts + 1))
  else FallBackSettles env state providerName provider state.task.attempts call

/-- A run at a provider settles the task: where the provider is not registered, or where the
calls before the first attempt return and no attempt is broken off. -/
def RunSettles : Prop :=
  match (env.providers state.calls).get? providerName with
  | none => True
  | some provider =>
    Served (env.publish (state.calls + 2)) ∧
      Uncancelled (env.writeMemory (state.calls + 4)) ∧
      Served (env.startExecution (state.calls + 5)) ∧
      ∃ cwd, env.executionCwd (state.calls + 7) = .ok cwd ∧
        Uncancelled (env.capture (state.calls + 8)) ∧
        (replyAt env (state.calls + 9)).Settles env cwd
          (RetrySettles env state providerName provider cwd)

/-- A dispatched task is settled: a provider is selected, the agent is spawned, and the run
at the provider settles it. -/
def DispatchSettles (dispatch : Dispatch) : Prop :=
  ∃ provider turn,
    selectionAt env dispatch state state.calls = some (provider, turn) ∧
      Served (env.spawn (state.calls + 2)) ∧
      RunSettles env
        { state with
          task := { state.task with attempts := state.task.attempts + 1 }
          failedProviders :=
            coolDown (env.monotonic (state.calls + 1)) state.failedProviders
          providerRrIdx := turn
          calls := state.calls + 3 }
        provider.name

/-- A planned task is settled from this call on: a provider is selected, the agent is
spawned, the task is dispatched, and the run at the provider settles it. -/
def PlanSettles (dispatch : Dispatch) (call : Nat) : Prop :=
  ∃ provider turn, selectionAt env dispatch state call = some (provider, turn) ∧
    Served (env.spawn (call + 2)) ∧ Served (env.publish (call + 4)) ∧
    RunSettles env
      { state with
        failedProviders := coolDown (env.monotonic (call + 1)) state.failedProviders
        providerRrIdx := turn
        calls := call + 5 }
      provider.name

def CreationSettles (dispatch : Dispatch) : Prop :=
  Served (env.publish (state.calls + 1)) ∧ PlanSettles env state dispatch (state.calls + 2)

end

section

theorem keeps_updateTask {change : Task → Task}
    (sameStatus : ∀ task, (change task).status = task.status) :
    Keeps Settled (updateTask change) := by
  apply Keeps.modify
  intro state settled
  change (change state.task).status.Terminal
  rw [sameStatus]
  exact settled

theorem keeps_record (event : Event) : Keeps Settled (record event) :=
  .modify fun _ settled => settled

theorem keeps_moveTo {status : TaskStatus} (terminal : status.Terminal) :
    Keeps Settled (moveTo status) :=
  fun _ _ => terminal

theorem keeps_markAgent (agentId : String) (status : AgentStatus) :
    Keeps Settled (markAgent agentId status) :=
  .modify fun _ settled => settled

theorem keeps_observe {α : Type} (answer : Nat → α) : Keeps Settled (observe answer) :=
  .modifyGet fun _ settled => settled

theorem keeps_ask {α : Type} (answer : Nat → Except Raised α) : Keeps Settled (ask answer) := by
  apply Keeps.bind (keeps_observe answer)
  intro result
  cases result with
  | ok value => exact .pure value
  | error raised => exact .throw raised

theorem keeps_attempting {α : Type} {program : Program α} {handler : String → Program α}
    (keeps : Keeps Settled program) (keepsHandler : ∀ message, Keeps Settled (handler message)) :
    Keeps Settled (attempting program handler) := by
  apply Keeps.tryCatch keeps
  intro raised
  cases raised with
  | exception message => exact keepsHandler message
  | cancelled => exact .throw _

variable {env : Environment}

section

variable (undisturbed : Undisturbed env)
include undisturbed

theorem keeps_await {α : Type} (answer : Nat → Except Raised α) :
    Keeps Settled (await env answer) := by
  intro state settled
  have moved : (env.meanwhile state.calls state.task).status.Terminal := by
    rw [undisturbed.status]
    exact settled
  change Ends (fun _ after => Settled after) (await env answer) state
  rw [ends_await]
  exact moved

theorem keeps_publish (topic : String) : Keeps Settled (publish env topic) :=
  .bind (keeps_await undisturbed _) fun _ => keeps_record _

theorem keeps_publishFailed : Keeps Settled (publishFailed env) :=
  .bind (keeps_publish undisturbed _) fun _ => keeps_publish undisturbed _

theorem keeps_failTask (agent : Agent) (error : String) :
    Keeps Settled (failTask env agent error) := by
  apply Keeps.bind (keeps_markAgent _ _)
  intro _
  apply Keeps.bind (keeps_moveTo (.inr (.inr rfl)))
  intro _
  refine .bind (keeps_updateTask fun _ => rfl) fun _ => ?_
  exact keeps_publishFailed undisturbed

theorem keeps_executeAutonomousFallback (agent : Agent) :
    Keeps Settled (executeAutonomousFallback env agent) := by
  apply Keeps.bind (keeps_ask _)
  intro wsRoot
  apply Keeps.bind (keeps_observe _)
  intro reason
  refine .bind .get fun state => ?_
  apply Keeps.bind (keeps_markAgent _ _)
  intro _
  apply Keeps.bind (keeps_moveTo (.inr (.inr rfl)))
  intro _
  refine .bind (keeps_updateTask fun _ => rfl) fun _ => ?_
  exact keeps_publishFailed undisturbed

theorem keeps_giveUp (agent failing : Agent) (provider : ProviderInfo) (message : Nat → String) :
    Keeps Settled (giveUp env agent failing provider message) := by
  refine .bind .get fun state => ?_
  apply Keeps.ite
  · apply Keeps.bind (keeps_markAgent _ _)
    intro _
    exact keeps_failTask undisturbed failing _
  · exact keeps_executeAutonomousFallback undisturbed failing

end

theorem keeps_persistOutput (result : String) : Keeps Settled (persistOutput env result) := by
  apply Keeps.bind (keeps_observe _)
  intro wsRoot
  cases wsRoot with
  | none => exact .pure _
  | some wsRoot => exact .ite (keeps_attempting (keeps_ask _) fun _ => .pure _) (.pure _)

theorem keeps_verifyAttempt (savedFiles : List String) (before : Option WorkspaceSnapshot)
    (cwd : Option String) : Keeps Settled (verifyAttempt env savedFiles before cwd) := by
  apply keeps_attempting
  · apply Keeps.bind
    · exact .ite (.pure _) (.bind (keeps_ask _) fun _ => .pure _)
    · intro after
      apply Keeps.bind (keeps_observe _)
      intro files
      exact .bind .get fun _ => .pure _
  · exact fun _ => .pure _

theorem keeps_concludeAttempt (undisturbed : Undisturbed env)
    (verification : ArtifactVerification) : Keeps Settled (concludeAttempt env verification) := by
  intro state _
  exact (ends_concludeAttempt undisturbed verification state).1.1

section

variable (undisturbed : Undisturbed env) (agent : Agent)
  (before : Option WorkspaceSnapshot) (cwd : Option String)
include undisturbed

theorem keeps_executeAttempt : Keeps Settled (executeAttempt env agent before cwd) := by
  apply Keeps.bind (keeps_await undisturbed _)
  intro result
  apply Keeps.bind (keeps_record _)
  intro _
  apply Keeps.ite
  · apply Keeps.bind (keeps_ask _)
    intro _
    exact .bind (keeps_updateTask fun _ => rfl) fun _ => .pure _
  · apply Keeps.bind (keeps_markAgent _ _)
    intro _
    refine .bind (keeps_updateTask fun _ => rfl) fun _ => ?_
    apply Keeps.bind (keeps_persistOutput _)
    intro savedFiles
    exact .bind (keeps_verifyAttempt _ _ _) fun _ => keeps_concludeAttempt undisturbed _

theorem keeps_tryProvider : Keeps Settled (tryProvider env agent before cwd) :=
  keeps_attempting (keeps_executeAttempt undisturbed _ _ _) fun _ =>
    .bind (keeps_ask _) fun _ => .pure _

theorem keeps_retrySameProvider : Keeps Settled (retrySameProvider env agent before cwd) := by
  refine .bind .get fun state => ?_
  refine .ite ?_ (.pure _)
  refine .bind (keeps_updateTask fun _ => rfl) fun _ => ?_
  exact .bind (keeps_ask _) fun _ => keeps_tryProvider undisturbed _ _ _

end

theorem keeps_tryFallback (undisturbed : Undisturbed env) (agent : Agent)
    (provider fallbackProvider : ProviderInfo) (before : Option WorkspaceSnapshot) :
    Keeps Settled (tryFallback env agent provider fallbackProvider before) := by
  refine .bind (keeps_updateTask fun _ => rfl) fun _ => ?_
  apply Keeps.bind (keeps_ask _)
  intro id
  apply Keeps.bind (keeps_markAgent _ _)
  intro _
  refine .bind (keeps_updateTask fun _ => rfl) fun _ => ?_
  apply Keeps.bind (keeps_ask _)
  intro _
  apply Keeps.bind (keeps_await undisturbed _)
  intro cwd
  apply keeps_attempting
  · exact .bind (keeps_executeAttempt undisturbed _ _ _) fun _ => .pure _
  · intro message
    apply Keeps.bind (keeps_ask _)
    intro _
    exact .bind (keeps_giveUp undisturbed _ _ _ _) fun _ => .pure _

theorem keeps_pickFallbackProvider (currentName role : String) :
    Keeps Settled (pickFallbackProvider env currentName role) := by
  apply Keeps.bind (keeps_observe _)
  intro providers
  apply Keeps.bind (keeps_observe _)
  intro now
  refine .bind (.modify fun _ settled => settled) fun _ => ?_
  refine .bind .get fun state => ?_
  dsimp only
  split
  · exact .pure _
  · exact .bind (.modify fun _ settled => settled) fun _ => .pure _

theorem keeps_fallBack (undisturbed : Undisturbed env) (agent : Agent)
    (provider : ProviderInfo) (before : Option WorkspaceSnapshot) :
    Keeps Settled (fallBack env agent provider before) := by
  apply Keeps.bind
  · exact .bind (keeps_observe _) fun _ => .modify fun _ settled => settled
  intro _
  refine .bind .get fun state => ?_
  apply Keeps.bind (keeps_pickFallbackProvider _ _)
  intro fallbackProvider
  apply Keeps.bind
  · cases fallbackProvider with
    | none => exact .pure _
    | some fallbackProvider =>
      refine .bind .get fun state => ?_
      exact .ite (keeps_tryFallback undisturbed _ _ _ _) (.pure _)
  · intro settled
    exact .ite (.pure _) (keeps_giveUp undisturbed _ _ _ _)

end

/-! ## The parts of a run -/

section

variable {env : Environment} {state : RunState}

variable {β : Type}

theorem settling_ask {α : Type} (answer : Nat → Except Raised α) (next : α → Program β)
    (unsettled : ¬ Settled state) :
    Settling (ask answer >>= next) state ↔ ∃ value, answer state.calls = .ok value ∧
      Settling (next value) { state with calls := state.calls + 1 } := by
  unfold Settling
  rw [ends_bind, ends_ask]
  cases answer state.calls with
  | ok value => simp
  | error raised => exact iff_of_false unsettled fun ⟨_, impossible, _⟩ => nomatch impossible

section

variable (undisturbed : Undisturbed env)
include undisturbed

theorem settling_await {α : Type} (answer : Nat → Except Raised α) (next : α → Program β)
    (unsettled : ¬ Settled state) : Settling (await env answer >>= next) state ↔
      ∃ value, answer (state.calls + 1) = .ok value ∧ Settling (next value) { state with
        task := env.meanwhile state.calls state.task, calls := state.calls + 2 } := by
  unfold Settling
  rw [ends_bind, ends_await]
  cases answer (state.calls + 1) with
  | ok value => simp
  | error raised =>
    have unsettledNow : ¬ (env.meanwhile state.calls state.task).status.Terminal := by
      rw [undisturbed.status]
      exact unsettled
    exact iff_of_false unsettledNow fun ⟨_, impossible, _⟩ => nomatch impossible

theorem settling_publish (topic : String) (next : Unit → Program β) (unsettled : ¬ Settled state) :
    Settling (publish env topic >>= next) state ↔
      Served (env.publish (state.calls + 1)) ∧ Settling (next ()) { state with
        task := env.meanwhile state.calls state.task
        calls := state.calls + 2
        trace := state.trace ++ [.published topic] } := by
  unfold publish
  rw [bind_assoc, settling_await undisturbed _ _ unsettled]
  constructor
  · rintro ⟨value, answered, settling⟩
    exact ⟨⟨value, answered⟩, (ends_bind _ _).mp settling⟩
  · rintro ⟨⟨value, answered⟩, settling⟩
    exact ⟨value, answered, (ends_bind _ _).mpr settling⟩

/-- What is caught does not matter, unless it is a cancellation. -/
theorem settling_attempting_await (answer : Nat → Except Raised Unit) (next : Unit → Program β)
    (unsettled : ¬ Settled state) :
    Settling (attempting (await env answer) (fun _ => pure ()) >>= next) state ↔
      Uncancelled (answer (state.calls + 1)) ∧ Settling (next ()) { state with
        task := env.meanwhile state.calls state.task, calls := state.calls + 2 } := by
  have unsettledNow : ¬ (env.meanwhile state.calls state.task).status.Terminal := by
    rw [undisturbed.status]
    exact unsettled
  unfold Settling
  rw [ends_bind, ends_attempting, ends_await]
  cases answer (state.calls + 1) with
  | ok value => simp
  | error raised =>
    cases raised with
    | exception message => simp
    | cancelled => exact iff_of_false unsettledNow fun served => not_uncancelled_cancelled served.1

end

theorem settling_captureBefore (next : Option WorkspaceSnapshot → Program β)
    (unsettled : ¬ Settled state) : Settling (captureBefore env >>= next) state ↔
      Uncancelled (env.capture state.calls) ∧
        Settling (next (env.capture state.calls).toOption)
          { state with calls := state.calls + 1 } := by
  unfold Settling captureBefore
  rw [ends_bind, ends_attempting, ends_map, ends_ask]
  cases env.capture state.calls with
  | ok snapshot => simp [Except.toOption]
  | error raised =>
    cases raised with
    | exception message => simp [Except.toOption]
    | cancelled => exact iff_of_false unsettled fun served => not_uncancelled_cancelled served.1

section

variable (undisturbed : Undisturbed env) (agent : Agent)
  (before : Option WorkspaceSnapshot) (cwd : Option String) (unsettled : ¬ Settled state)
include undisturbed unsettled

/-- Whether a task that is not settled yet is settled behind an attempt, where `property` is
what is left to show: a settled task is enough, a broken off attempt is not, and otherwise
it depends on what comes next. -/
theorem settles_executeAttempt {property : Except Raised AttemptOutcome → RunState → Prop}
    {otherwise : Nat → Prop}
    (accepts : ∀ result after, Settled after → result ≠ .ok .error → property result after)
    (breaks : ∀ after, ¬ Settled after → ¬ property (.error .cancelled) after)
    (raises : ∀ message after, Unmoved state after →
      (property (.error (.exception message)) after ↔
        Served (env.finishExecution after.calls) ∧ otherwise (after.calls + 1)))
    (refuses : ∀ after, Unmoved state after →
      (property (.ok .error) after ↔ otherwise after.calls)) :
    Ends property (executeAttempt env agent before cwd) state ↔
      (replyAt env state.calls).Settles env cwd otherwise := by
  have ends := ends_executeAttempt undisturbed agent before cwd state
  unfold Ends at ends ⊢
  generalize ending (executeAttempt env agent before cwd state) = result at ends ⊢
  generalize finalState (executeAttempt env agent before cwd state) = after at ends ⊢
  have stays (sameStatus : after.task.status = state.task.status) : ¬ Settled after := by
    unfold Settled
    rw [sameStatus]
    exact unsettled
  cases reply : replyAt env state.calls with
  | cancelled =>
    rw [reply] at ends
    rcases ends with ⟨rfl, unmoved⟩
    exact iff_of_false (breaks after (stays unmoved.status)) id
  | raised next =>
    rw [reply] at ends
    rcases ends with ⟨⟨message, rfl⟩, unmoved, rfl⟩
    exact raises message after unmoved
  | refused next =>
    rw [reply] at ends
    rcases ends with ⟨rfl, unmoved, rfl⟩
    exact refuses after unmoved
  | accepted answer next =>
    rw [reply] at ends
    rcases ends with ⟨-, noError, -, settled, broken⟩
    by_cases verifies : Verifies env cwd answer next
    · exact iff_of_true (accepts result after (settled verifies) noError) verifies
    · rcases broken verifies with ⟨rfl, sameStatus⟩
      exact iff_of_false (breaks after (stays sameStatus)) verifies

theorem settling_tryProvider {next : AttemptOutcome → Program Unit} {otherwise : Nat → Prop}
    (keeps : ∀ outcome, Keeps Settled (next outcome)) (goesOn : ∀ after, Unmoved state after →
      (Settling (next .error) after ↔ otherwise after.calls)) :
    Settling (tryProvider env agent before cwd >>= next) state ↔
      (replyAt env state.calls).Settles env cwd otherwise := by
  unfold Settling tryProvider
  rw [ends_bind, ends_attempting]
  apply settles_executeAttempt undisturbed agent before cwd unsettled
  · intro result after settled noError
    cases result with
    | ok outcome => exact (keeps outcome).ends settled
    | error raised =>
      cases raised with
      | exception message =>
        rw [orCaught_exception, ends_bind, ends_ask]
        cases env.finishExecution after.calls with
        | ok value => exact (keeps .error).ends settled
        | error raised => exact settled
      | cancelled => exact settled
  · intro after unsettledAfter
    exact unsettledAfter
  · intro message after unmoved
    rw [orCaught_exception, ends_bind, ends_ask]
    have unmovedNext : Unmoved state { after with calls := after.calls + 1 } :=
      ⟨unmoved.toAlike.trans ⟨rfl, rfl, rfl, rfl, rfl⟩, unmoved.status, unmoved.agents⟩
    cases env.finishExecution after.calls with
    | ok value =>
      rw [and_iff_right (served_ok value)]
      exact goesOn _ unmovedNext
    | error raised =>
      apply iff_of_false
      · change ¬ after.task.status.Terminal
        rw [unmoved.status]
        exact unsettled
      · rintro ⟨served, -⟩
        exact not_served_error raised served
  · intro after unmoved
    exact goesOn after unmoved

end

/-- A task that is given up is failed, unless the report needs a workspace that cannot be
had. -/
theorem settling_giveUp (undisturbed : Undisturbed env) (agent failing : Agent)
    (provider : ProviderInfo) (message : Nat → String) (unsettled : ¬ Settled state) :
    Settling (giveUp env agent failing provider message) state ↔
      GiveUpSettles env state agent.provider provider state.calls := by
  unfold Settling giveUp GiveUpSettles
  rw [ends_bind, ends_get, andThen_ok, ends_ite]
  change (if Excused env agent.provider state.task.title provider then _ else _) ↔ _
  by_cases excused : Excused env agent.provider state.task.title provider
  · rw [if_pos excused]
    apply iff_of_true _ (.inl excused)
    rw [ends_bind, ends_markAgent, andThen_ok]
    unfold failTask
    rw [ends_bind, ends_markAgent, andThen_ok, ends_bind, ends_moveTo, andThen_ok, ends_bind,
      ends_updateTask, andThen_ok]
    exact (keeps_publishFailed undisturbed).ends (.inr (.inr rfl))
  · rw [if_neg excused, or_iff_right excused]
    unfold executeAutonomousFallback
    rw [ends_bind, ends_ask]
    cases env.reportRoot state.calls with
    | ok wsRoot =>
      apply iff_of_true _ (served_ok wsRoot)
      rw [andThen_ok, ends_bind, ends_observe, andThen_ok, ends_bind, ends_get, andThen_ok,
        ends_bind, ends_markAgent, andThen_ok, ends_bind, ends_moveTo, andThen_ok, ends_bind,
        ends_updateTask, andThen_ok]
      exact (keeps_publishFailed undisturbed).ends (.inr (.inr rfl))
    | error raised => exact iff_of_false unsettled (not_served_error raised)

variable {after : RunState}

section

variable (undisturbed : Undisturbed env) (agent : Agent)
include undisturbed

theorem settling_giveUp_of_title (failing : Agent) (provider : ProviderInfo)
    (message : Nat → String) (unsettled : ¬ Settled after)
    (title : after.task.title = state.task.title) :
    Settling (giveUp env agent failing provider message) after ↔
      GiveUpSettles env state agent.provider provider after.calls := by
  rw [settling_giveUp undisturbed agent failing provider message unsettled]
  unfold GiveUpSettles
  rw [title]

theorem settling_tryFallback (provider fallbackProvider : ProviderInfo)
    (before : Option WorkspaceSnapshot) (message : Nat → String) (unsettled : ¬ Settled state) :
    Settling (tryFallback env agent provider fallbackProvider before >>=
        fun settled => if settled = true then pure ()
          else giveUp env agent agent provider message) state ↔
      ThirdSettles env state agent.provider provider state.calls := by
  have keepsNext (settled : Bool) : Keeps Settled (if settled = true then pure ()
      else giveUp env agent agent provider message) :=
    .ite (.pure _) (keeps_giveUp undisturbed _ _ _ _)
  unfold tryFallback ThirdSettles Settling
  rw [bind_assoc, ends_bind, ends_updateTask, andThen_ok, bind_assoc]
  refine (settling_ask _ _ ?_).trans ?_
  · exact unsettled
  refine .trans ?_ exists_and_right
  apply exists_congr
  intro id
  apply and_congr_right
  intro _
  unfold Settling
  rw [bind_assoc, ends_bind, ends_markAgent, andThen_ok, bind_assoc, ends_bind,
    ends_updateTask, andThen_ok, bind_assoc]
  refine (settling_ask _ _ ?_).trans ?_
  · exact unsettled
  apply exists_and_right.trans
  apply and_congr_right
  intro _
  rw [bind_assoc]
  refine (settling_await undisturbed _ _ ?_).trans ?_
  · exact unsettled
  apply exists_congr
  intro cwd
  apply and_congr_right
  intro _
  unfold Settling
  rw [ends_bind, ends_attempting, ends_bind]
  have moved (after : RunState) (unmoved : Unmoved { state with
      task := env.meanwhile (state.calls + 2)
        { state.task with attempts := state.task.attempts + 1, assignedAgentId := some id }
      agents := state.agents.set id .running
      calls := state.calls + 4 } after) :
      ¬ Settled after ∧ after.task.title = state.task.title := by
    constructor
    · unfold Settled
      rw [unmoved.status, undisturbed.status]
      exact unsettled
    · exact unmoved.title.trans (undisturbed.title _ _)
  apply settles_executeAttempt undisturbed
  · unfold Settled
    rw [undisturbed.status]
    exact unsettled
  · intro result after settled noError
    cases result with
    | ok outcome => exact (keepsNext _).ends settled
    | error raised =>
      cases raised with
      | exception message =>
        rw [andThen_error, orCaught_exception, ← ends_bind]
        refine (Keeps.bind ?_ keepsNext).ends settled
        refine Keeps.bind (keeps_ask _) fun _ => ?_
        exact .bind (keeps_giveUp undisturbed _ _ _ _) fun _ => .pure _
      | cancelled => exact settled
  · intro after unsettledAfter
    exact unsettledAfter
  · intro text after unmoved
    rcases moved after unmoved with ⟨unsettledAfter, title⟩
    rw [andThen_error, orCaught_exception, ← ends_bind, bind_assoc]
    refine (settling_ask _ _ ?_).trans ?_
    · exact unsettledAfter
    apply exists_and_right.trans
    apply and_congr_right
    intro _
    unfold Settling
    rw [bind_assoc, ends_bind]
    refine .trans (iff_of_eq (congrArg (Ends · _ _) ?_))
      (settling_giveUp_of_title undisturbed agent _ provider _ unsettledAfter title)
    funext result final
    cases result <;> rfl
  · intro after unmoved
    rcases moved after unmoved with ⟨unsettledAfter, title⟩
    exact settling_giveUp_of_title undisturbed agent agent provider message unsettledAfter title

theorem settling_fallBack (provider : ProviderInfo) (before : Option WorkspaceSnapshot)
    (unsettled : ¬ Settled after) (title : after.task.title = state.task.title)
    (role : after.task.role = state.task.role)
    (failedProviders : after.failedProviders = state.failedProviders)
    (turn : after.providerRrIdx = state.providerRrIdx) :
    Settling (fallBack env agent provider before) after ↔
      FallBackSettles env state agent.provider provider after.task.attempts after.calls := by
  unfold fallBack markProviderFailed FallBackSettles Settling
  rw [ends_bind, ends_bind, ends_observe, andThen_ok, ends_modify, andThen_ok, ends_bind,
    ends_get, andThen_ok, ends_bind]
  have picked := ends_pickFallbackProvider env agent.provider state
    { after with
      calls := after.calls + 1
      failedProviders :=
        after.failedProviders.set agent.provider (env.monotonic after.calls) }
    after.calls role (congrArg (Dict.set · _ _) failedProviders) turn rfl
  unfold Ends at picked ⊢
  rcases picked with ⟨chosen, sameTask, -, calls⟩
  rw [chosen, andThen_ok]
  generalize finalState _ = current at sameTask calls ⊢
  have unsettledNow : ¬ Settled current := by
    unfold Settled
    rw [sameTask]
    exact unsettled
  have titleNow : current.task.title = state.task.title := sameTask ▸ title
  cases fallbackChoice env state agent.provider after.calls with
  | none =>
    rw [if_neg fun possible => possible.1 rfl, ← calls]
    unfold settleByFallback
    rw [ends_bind, ends_pure, andThen_ok, if_neg Bool.false_ne_true]
    exact settling_giveUp_of_title undisturbed agent agent provider _ unsettledNow titleNow
  | some fallbackProvider =>
    unfold settleByFallback
    by_cases again : (after.task.attempts : Int) < env.maxAttempts
    · rw [if_pos ⟨Option.some_ne_none _, again⟩, ← calls]
      rw [ends_bind, ends_bind, ends_get, andThen_ok, sameTask, if_pos again, ← ends_bind]
      apply (settling_tryFallback undisturbed agent provider fallbackProvider before _
        unsettledNow).trans
      unfold ThirdSettles GiveUpSettles
      rw [titleNow]
    · rw [if_neg fun possible => again possible.2, ← calls]
      rw [ends_bind, ends_bind, ends_get, andThen_ok, sameTask, if_neg again, ends_pure,
        andThen_ok, if_neg Bool.false_ne_true]
      exact settling_giveUp_of_title undisturbed agent agent provider _ unsettledNow titleNow

theorem settling_retry (provider : ProviderInfo) (before : Option WorkspaceSnapshot)
    (cwd : Option String) (unsettled : ¬ Settled after)
    (attempts : after.task.attempts = state.task.attempts)
    (title : after.task.title = state.task.title) (role : after.task.role = state.task.role)
    (failedProviders : after.failedProviders = state.failedProviders)
    (turn : after.providerRrIdx = state.providerRrIdx) :
    Settling (retrySameProvider env agent before cwd >>= fun second =>
        if second = .error then fallBack env agent provider before else pure ()) after ↔
      RetrySettles env state agent.provider provider cwd after.calls := by
  unfold retrySameProvider RetrySettles
  rw [bind_assoc]
  unfold Settling
  rw [ends_bind, ends_get, andThen_ok, ends_bind, ends_ite, attempts]
  by_cases again : (state.task.attempts : Int) < env.maxAttempts
  · rw [if_pos again, if_pos again, ← ends_bind, bind_assoc, ends_bind, ends_updateTask,
      andThen_ok, bind_assoc]
    refine (settling_ask _ _ ?_).trans ?_
    · exact unsettled
    apply exists_and_right.trans
    apply and_congr_right
    intro _
    apply settling_tryProvider undisturbed agent before cwd
    · exact unsettled
    · intro outcome
      exact .ite (keeps_fallBack undisturbed _ _ _) (.pure _)
    · intro final unmoved
      have tried : final.task.attempts = state.task.attempts + 1 :=
        unmoved.attempts.trans (congrArg (· + 1) attempts)
      have unsettledFinal : ¬ Settled final := by
        unfold Settled
        rw [unmoved.status]
        exact unsettled
      rw [if_pos rfl, ← tried]
      exact settling_fallBack undisturbed agent provider before unsettledFinal
        (unmoved.title.trans title) (unmoved.role.trans role)
        (unmoved.failedProviders.trans failedProviders) (unmoved.providerRrIdx.trans turn)
  · rw [if_neg again, if_neg again, ends_pure, andThen_ok, if_pos rfl, ← attempts]
    exact settling_fallBack undisturbed agent provider before unsettled title role
      failedProviders turn

theorem settling_runProvider {origin : RunState}
    (attempts : state.task.attempts = origin.task.attempts)
    (title : state.task.title = origin.task.title) (role : state.task.role = origin.task.role)
    (failedProviders : state.failedProviders = origin.failedProviders)
    (turn : state.providerRrIdx = origin.providerRrIdx) (calls : state.calls = origin.calls) :
    Settling (runProvider env agent) state ↔
      RunSettles env origin agent.provider := by
  unfold runProvider RunSettles Settling
  rw [ends_bind, ends_observe, andThen_ok, ← calls]
  cases (env.providers state.calls).get? agent.provider with
  | none =>
    apply iff_of_true _ trivial
    unfold failTask
    rw [ends_bind, ends_markAgent, andThen_ok, ends_bind, ends_moveTo, andThen_ok, ends_bind,
      ends_updateTask, andThen_ok]
    exact (keeps_publishFailed undisturbed).ends (.inr (.inr rfl))
  | some provider =>
    -- nothing that is done before the first attempt settles the task
    have running (current : RunState) (status : current.task.status = .inProgress) :
        ¬ Settled current := by
      unfold Settled
      rw [status]
      decide
    apply (settling_publish undisturbed _ _ (running _ rfl)).trans
    apply and_congr_right
    intro _
    refine (settling_attempting_await undisturbed _ _ (running _ ?_)).trans ?_
    · exact undisturbed.status _ _
    apply and_congr_right
    intro _
    refine (settling_ask _ _ (running _ ?_)).trans ?_
    · simp only [undisturbed.status]
    apply exists_and_right.trans
    apply and_congr_right
    intro _
    refine (settling_await undisturbed _ _ (running _ ?_)).trans ?_
    · simp only [undisturbed.status]
    apply exists_congr
    intro cwd
    apply and_congr_right
    intro _
    refine (settling_captureBefore _ (running _ ?_)).trans ?_
    · simp only [undisturbed.status]
    apply and_congr_right
    intro _
    apply settling_tryProvider undisturbed agent _ cwd
    · apply running
      simp only [undisturbed.status]
    · intro outcome
      refine .ite ?_ (.pure _)
      exact .bind (keeps_retrySameProvider undisturbed _ _ _) fun _ =>
        .ite (keeps_fallBack undisturbed _ _ _) (.pure _)
    · intro final unmoved
      apply settling_retry undisturbed agent provider _ cwd
      · apply running
        rw [unmoved.status]
        simp only [undisturbed.status]
      · rw [unmoved.attempts]
        simp only [undisturbed.attempts]
        exact attempts
      · rw [unmoved.title]
        simp only [undisturbed.title]
        exact title
      · rw [unmoved.role]
        simp only [undisturbed.role]
        exact role
      · exact unmoved.failedProviders.trans failedProviders
      · exact unmoved.providerRrIdx.trans turn

end

end

/-! ## Handling a task -/

section

variable {env : Environment} {state : RunState}

/-- Without a provider nothing happens; with one the handling goes on. -/
theorem settling_selectProvider {next : Option ProviderInfo → Program Unit}
    (dispatch : Dispatch) (origin : RunState) (unsettled : ¬ Settled state)
    (role : state.task.role = origin.task.role)
    (failedProviders : state.failedProviders = origin.failedProviders)
    (turn : state.providerRrIdx = origin.providerRrIdx)
    (nothing : ∀ after, ¬ Settled after → ¬ Settling (next none) after)
    (settles : ProviderInfo → Nat → Prop)
    (goesOn : ∀ provider after, after.task = state.task → after.calls = state.calls + 2 →
      after.failedProviders = coolDown (env.monotonic (state.calls + 1)) origin.failedProviders →
      (Settling (next (some provider)) after ↔ settles provider after.providerRrIdx)) :
    Settling (selectProvider env dispatch state.task.role >>= next) state ↔
      ∃ provider turn, selectionAt env dispatch origin state.calls =
        some (provider, turn) ∧ settles provider turn := by
  have selected := ends_selectProvider env dispatch origin state role failedProviders turn
  unfold Settling
  rw [ends_bind]
  unfold Ends at selected ⊢
  rcases selected with ⟨sameTask, -, chosen⟩
  generalize finalState (selectProvider env dispatch state.task.role state) = after
    at sameTask chosen ⊢
  cases selection : selectionAt env dispatch origin state.calls with
  | none =>
    rw [selection] at chosen
    rw [chosen, andThen_ok]
    apply iff_of_false
    · apply nothing after
      unfold Settled
      rw [sameTask]
      exact unsettled
    · rintro ⟨provider, turn, impossible, -⟩
      cases impossible
  | some choice =>
    rcases choice with ⟨provider, turn⟩
    rw [selection] at chosen
    rcases chosen with ⟨found, calls, rfl, cooled⟩
    rw [found, andThen_ok]
    apply (goesOn provider after sameTask calls cooled).trans
    simp

section

variable (undisturbed : Undisturbed env) (dispatch : Dispatch)
include undisturbed

/-- A dispatched task ends with a terminal status exactly if a provider is selected for it
and no call breaks the run off. -/
theorem settling_dispatchTask (unsettled : ¬ Settled state) :
    Settling (dispatchTask env dispatch) state ↔
      DispatchSettles env state dispatch := by
  refine settling_selectProvider dispatch state unsettled rfl rfl rfl ?_
    (fun provider turn => Served (env.spawn (state.calls + 2)) ∧ RunSettles env
        { state with
          task := { state.task with attempts := state.task.attempts + 1 }
          failedProviders :=
            coolDown (env.monotonic (state.calls + 1)) state.failedProviders
          providerRrIdx := turn
          calls := state.calls + 3 } provider.name) ?_
  · intro after unsettledAfter
    exact unsettledAfter
  · intro provider after sameTask calls cooled
    unfold assignAgent Settling
    rw [ends_bind, ends_updateTask, andThen_ok, bind_assoc]
    refine (settling_ask _ _ ?_).trans ?_
    · rw [sameTask]
      exact unsettled
    rw [calls]
    refine .trans ?_ exists_and_right
    apply exists_congr
    intro id
    apply and_congr_right
    intro _
    apply settling_runProvider undisturbed
    · rw [sameTask]
    · rw [sameTask]
    · rw [sameTask]
    · exact cooled
    · rfl
    · rfl

/-- What follows on the event of a planned task. -/
theorem settling_onTaskPlanned {origin : RunState} (unsettled : ¬ Settled state)
    (attempts : state.task.attempts = origin.task.attempts)
    (title : state.task.title = origin.task.title) (role : state.task.role = origin.task.role)
    (failedProviders : state.failedProviders = origin.failedProviders)
    (turn : state.providerRrIdx = origin.providerRrIdx) :
    Settling (onTaskPlanned env dispatch >>= onTaskDispatched env) state ↔
      PlanSettles env origin dispatch state.calls := by
  unfold onTaskPlanned Settling
  rw [bind_assoc, ends_bind, ends_get, andThen_ok, bind_assoc]
  refine settling_selectProvider dispatch origin unsettled role failedProviders turn ?_ _ ?_
  · intro after unsettledAfter
    exact unsettledAfter
  · intro provider after sameTask calls cooled
    unfold assignAgent
    rw [bind_assoc, bind_assoc]
    refine (settling_ask _ _ ?_).trans ?_
    · unfold Settled
      rw [sameTask]
      exact unsettled
    rw [calls]
    refine .trans ?_ exists_and_right
    apply exists_congr
    intro id
    apply and_congr_right
    intro _
    unfold Settling
    rw [bind_assoc, ends_bind, ends_markAgent, andThen_ok, bind_assoc, ends_bind, ends_moveTo,
      andThen_ok, bind_assoc, ends_bind, ends_updateTask, andThen_ok, pure_bind, bind_assoc]
    have dispatched : ¬ TaskStatus.Terminal .dispatched := by decide
    refine (settling_publish undisturbed _ _ ?_).trans ?_
    · exact dispatched
    apply and_congr_right
    intro _
    apply settling_runProvider undisturbed
    · rw [undisturbed.attempts, sameTask]
      exact attempts
    · rw [undisturbed.title, sameTask]
      exact title
    · rw [undisturbed.role, sameTask]
      exact role
    · exact cooled
    · rfl
    · rfl

/-- A created task ends with a terminal status exactly if its events are published, a
provider is selected for it and no call breaks the run off. -/
theorem settling_handleCreated : Settling (handleCreated env dispatch) state ↔
      CreationSettles env state dispatch := by
  have planned : ¬ TaskStatus.Terminal .planned := by decide
  refine (settling_publish undisturbed _ _ ?_).trans ?_
  · exact planned
  apply and_congr_right
  intro _
  apply settling_onTaskPlanned undisturbed dispatch
  · unfold Settled
    rw [undisturbed.status]
    exact planned
  · exact undisturbed.attempts _ _
  · exact undisturbed.title _ _
  · exact undisturbed.role _ _
  · rfl
  · rfl

end

end

/-- The handling of a created task, from each of its events on and by a dispatch at once, ends
with a terminal status exactly if the environment lets it: if a provider is selected, the
agent is spawned, the events are published, and no call raises, where nothing catches it,
before the status is written. -/
theorem handling_settles_iff (env : Environment) (undisturbed : Undisturbed env)
    (dispatch : Dispatch) (state : RunState) (unsettled : ¬ Settled state) :
    (Settled (finalState (handleCreated env dispatch state)) ↔
        CreationSettles env state dispatch) ∧
      (Settled (finalState ((onTaskPlanned env dispatch >>= onTaskDispatched env) state)) ↔
        PlanSettles env state dispatch state.calls) ∧
      (∀ agent, Settled (finalState (onTaskDispatched env (some agent) state)) ↔
        RunSettles env state agent.provider) ∧
      (Settled (finalState (dispatchTask env dispatch state)) ↔
        DispatchSettles env state dispatch) :=
  ⟨settling_handleCreated undisturbed dispatch,
    settling_onTaskPlanned undisturbed dispatch unsettled rfl rfl rfl rfl rfl,
    fun _ => settling_runProvider undisturbed _ rfl rfl rfl rfl rfl rfl,
    settling_dispatchTask undisturbed dispatch unsettled⟩

def createdTask : RunState where
  task := { id := "task", title := "Write", role := "coding" }
  agents := .empty
  failedProviders := .empty

theorem undisturbed_sampleEnvironment : Undisturbed sampleEnvironment where
  status _ _ := rfl
  attempts _ _ := rfl
  title _ _ := rfl
  role _ _ := rfl

theorem createdTask_settles_iff :
    ¬ Settled createdTask ∧
      (Settled (finalState
          (handleCreated sampleEnvironment { providerDefault := "mock" } createdTask)) ↔
        CreationSettles sampleEnvironment createdTask { providerDefault := "mock" }) :=
  ⟨by decide, (handling_settles_iff sampleEnvironment undisturbed_sampleEnvironment
    { providerDefault := "mock" } createdTask (by decide)).1⟩

/-- Without a provider a created task stays planned and a dispatched one pending, and so does
one whose role nobody has registered. -/
theorem createdTask_abandoned :
    ¬ Settled (finalState (handleCreated { sampleEnvironment with providers := fun _ => .empty }
        { providerDefault := "mock" } createdTask)) ∧
      ¬ Settled (finalState (dispatchTask { sampleEnvironment with providers := fun _ => .empty }
        { providerDefault := "mock" } createdTask)) ∧
      ¬ Settled (finalState (handleCreated
        { sampleEnvironment with
          spawn := fun _ => .error (.exception "unknown role: coding") }
        { providerDefault := "mock" } createdTask)) := by
  decide +kernel

end AgenticOS.Orchestrator
