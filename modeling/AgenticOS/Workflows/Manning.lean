import AgenticOS.Transition.Supervision.Failing
import AgenticOS.Workflows.Supervision

/-!
# Workflow executions that say that they run

A runner stops with a record that does not say so. Records come to say so without a runner
when an approval is granted, when a workflow is deleted before the resumption, and when a
cancellation waits for a runner that has not begun.
-/

namespace AgenticOS.Workflows

open AgenticOS.Transition AgenticOS.Transition.Supervised Runner Phase

variable {κ : Type} {workflow : Workflow} {runner : Runner} {store : WorkflowExecution}

def Runs (execution : WorkflowExecution) : Prop :=
  execution.status = .running
deriving Decidable

def Sane (runner : Runner) : Prop :=
  runner.phase.standing = .working → Runs runner.execution

/-- A runner goes on with a snapshot that runs, or stops working and leaves a record that does
not run, or was not at work and leaves the record alone. -/
def Mans (store : WorkflowExecution) (runner : Runner) (result : WorkflowExecution × Runner) :
    Prop :=
  result.2.phase.standing = .working ∧ Runs result.2.execution ∨
    result.2.phase.standing ≠ .working ∧
      (¬ Runs result.1 ∨
        result.1 = store ∧ runner.phase.standing ≠ .created ∧ runner.phase.standing ≠ .working)

variable {result : WorkflowExecution × Runner}

theorem Mans.sane (mans : Mans store runner result) : Sane result.2 := by
  intro working
  rcases mans with ⟨-, runs⟩ | ⟨stopped, -⟩
  · exact runs
  · exact absurd working stopped

theorem mans_of_stopped (stopped : result.2.phase.standing ≠ .working) (written : ¬ Runs result.1) :
    Mans store runner result :=
  .inr ⟨stopped, .inl written⟩

variable {other : Runner}

theorem mans_of_idle (notCreated : runner.phase.standing ≠ .created)
    (idle : runner.phase.standing ≠ .working) :
    Mans store runner (store, { other with phase := .done }) :=
  .inr ⟨by simp [standing], .inr ⟨rfl, notCreated, idle⟩⟩

theorem mans_crash (error : String) : Mans store runner (other.crash error) := by
  apply mans_of_stopped
  · simp [crash, save, standing]
  · simp [crash, save, Runs]

theorem mans_cancel : Mans store runner runner.cancel := by
  apply mans_of_stopped
  · simp [Runner.cancel, save, standing]
  · simp [Runner.cancel, save, Runs, WorkflowExecution.cancel]

/-- Behind the loop a running snapshot gives way to a result. -/
theorem mans_finalize (runs : Runs other.execution) : Mans store runner (other.finalize store) := by
  rw [finalize, if_pos (show other.execution.status = .running from runs)]
  split
  · apply mans_of_stopped
    · simp [save, standing]
    · simp [save, Runs]
  · apply mans_of_stopped
    · simp [save, standing]
    · simp [save, Runs, WorkflowExecution.complete]

theorem mans_loop (runs : Runs other.execution) (queue : List NodeId) :
    Mans store runner (other.loop workflow store queue) := by
  induction queue with
  | nil => exact mans_finalize runs
  | cons id rest ih =>
    rw [loop, if_neg (not_not.mpr (show other.execution.status = .running from runs))]
    split
    · exact mans_crash _
    · split
      · exact ih
      · split
        · exact .inl ⟨rfl, runs⟩
        · exact .inl ⟨rfl, runs⟩

theorem mans_begin : Mans store runner runner.begin :=
  .inl ⟨rfl, rfl⟩

theorem mans_failNode (node : WorkflowNode) (error : String) :
    Mans store runner (runner.failNode node error) := by
  apply mans_of_stopped
  · simp [failNode, save, standing]
  · simp [failNode, save, Runs]

theorem mans_proceed (sane : Sane runner) : Mans store runner (runner.proceed workflow store) := by
  rw [Runner.proceed]
  cases phase : runner.phase with
  | created => exact mans_begin
  | started =>
    have runs : Runs runner.execution := sane (by rw [phase]; rfl)
    apply mans_loop
    exact runs
  | spinning =>
    have runs : Runs runner.execution := sane (by rw [phase]; rfl)
    exact mans_loop runs runner.readyQueue
  | nodeStarted node =>
    have runs : Runs runner.execution := sane (by rw [phase]; rfl)
    dsimp only
    split
    · apply mans_of_stopped
      · simp [save, standing]
      · simp [save, Runs, WorkflowExecution.requestApproval]
    · exact .inl ⟨rfl, runs⟩
  | executing node =>
    have runs : Runs runner.execution := sane (by rw [phase]; rfl)
    exact .inl ⟨rfl, runs⟩
  | nodeCompleted node =>
    have runs : Runs runner.execution := sane (by rw [phase]; rfl)
    apply mans_loop
    rw [expand_execution]
    exact runs
  | nodeFailed node =>
    by_cases runs : Runs runner.execution
    · exact mans_finalize runs
    · rw [finalize, if_neg (show ¬ runner.execution.status = .running from runs)]
      apply mans_of_idle
      · simp [phase, standing]
      · simp [phase, standing]
  | approvalRequested | finished | crashed | cancelling | done =>
    apply mans_of_idle
    · simp [phase, standing]
    · simp [phase, standing]

theorem mans_raise (error : String) : Mans store runner (runner.raise store error) := by
  rw [raise]
  cases phase : runner.phase with
  | created => exact mans_begin
  | executing node | nodeCompleted node => exact mans_failNode node error
  | started | spinning | nodeStarted | nodeFailed | approvalRequested | finished =>
    exact mans_crash error
  | crashed | cancelling | done =>
    apply mans_of_idle
    · simp [phase, standing]
    · simp [phase, standing]

theorem mans_next (sane : Sane runner) (error : Option String) :
    Mans store runner (runner.next workflow error store) := by
  cases error with
  | none => exact mans_proceed sane
  | some error => exact mans_raise error

theorem interrupt_cases (store : WorkflowExecution) (runner : Runner) :
    runner.interrupt store = runner.cancel ∨
      runner.interrupt store = (store, { runner with phase := .done }) ∧
        runner.phase.standing ≠ .working ∧ runner.phase.standing ≠ .closing := by
  rw [Runner.interrupt]
  cases runner.phase with
  | created | crashed | cancelling | done => simp [standing]
  | started | spinning | nodeStarted | executing | nodeCompleted | nodeFailed
  | approvalRequested | finished => exact .inl rfl

theorem workflow_manning (κ : Type) : Manning (workflowEngine κ) Runs Sane where
  sane_create _ working := by cases working
  sane_proceed _ error _ _ sane := (mans_next sane error).sane
  sane_interrupt store worker _ := by
    rcases interrupt_cases store worker with cancelled | ⟨ended, -⟩
    · simp only [workflowEngine, cancelled]
      have mans : Mans store worker worker.cancel := mans_cancel
      exact mans.sane
    · simp only [workflowEngine, ended]
      intro working
      cases working
  created _ := rfl
  proceed definition error store worker sane := by
    have mans : Mans store worker
        (worker.next definition.toWorkflow error store) := mans_next sane error
    rcases mans with ⟨working, -⟩ | ⟨-, stopped⟩
    · exact .inl working
    · exact .inr stopped
  interrupt store worker _ := by
    rcases interrupt_cases store worker with cancelled | ⟨ended, idle, -⟩
    · left
      simp only [workflowEngine, cancelled]
      simp [Runs, Runner.cancel, save, WorkflowExecution.cancel]
    · right
      simp only [workflowEngine, ended]
      exact ⟨trivial, idle⟩
  cancel _ := by simp [workflowEngine, Runs, WorkflowExecution.cancel]

theorem not_cancelled_raise (working : runner.phase.standing = .working) (error : String) :
    (runner.raise store error).1.status ≠ .cancelled := by
  rw [raise]
  cases phase : runner.phase with
  | executing node | nodeCompleted node => simp [failNode, save]
  | started | spinning | nodeStarted => simp [crash, save]
  | created | nodeFailed | approvalRequested | finished | crashed | cancelling | done =>
    rw [phase] at working
    cases working

theorem workflow_obstinate (κ : Type) :
    Obstinate (workflowEngine κ) (fun execution => execution.status = .cancelled) Sane where
  overwrites _ error _ _ _ working := not_cancelled_raise working error
  begun store worker begun := by
    rcases interrupt_cases store worker with cancelled | ⟨-, idle, notClosing⟩
    · simp only [workflowEngine, cancelled]
      rfl
    · rcases begun with working | closing
      · exact absurd working idle
      · exact absurd closing notClosing
  handled definition error store worker handling := by
    simp only [workflowEngine, next_of_handling handling]
    rfl
  interrupted store worker retired := by
    simp only [workflowEngine, interrupt_of_retired retired]
    rfl

/-- Some runner is active. -/
def Attended (state : ExecutionState κ) : Prop :=
  ∃ supervisee ∈ state.workers, Active (workflowEngine κ) supervisee

/-- A granted approval finds an active runner; a resumption finds one, or the workflow; the
cancellation of a running execution finds one that it does not stop before it begins. -/
def KeepsRunner (state : ExecutionState κ) : ExecutionAction κ → Prop
  | .control (.approve id true _) =>
    state.store.status = .awaitingApproval → state.store.pendingApproval = some id → Attended state
  | .control .resume => state.store.status = .paused →
      state.definition.isSome ∨ Attended state
  | .cancel => state.store.status = .running → ∃ index supervisee,
      state.workers[index]? = some supervisee ∧ Active (workflowEngine κ) supervisee ∧
        (state.registered = some index → supervisee.worker.phase.standing = .working)
  | .control (.approve _ false _) | .control .pause | .next _ _ | .wake _ | .publish _ _
  | .redefine _ => True

theorem keepsRunner_iff (state : ExecutionState κ) (action : ExecutionAction κ) :
    KeepsManned (workflowEngine κ) Runs state action ↔ KeepsRunner state action := by
  cases action with
  | control operation =>
    cases operation with
    | pause =>
      refine iff_of_true ?_ trivial
      intro after accepted runs
      rw [(control_pause_eq_some_iff.mp accepted).2] at runs
      cases runs
    | resume =>
      constructor
      · intro kept paused
        rcases kept _ (control_resume_eq_some_iff.mpr ⟨paused, rfl⟩) rfl with
          ⟨-, present⟩ | attended
        · exact .inl present
        · exact .inr attended
      · intro kept after accepted _
        rcases kept (control_resume_eq_some_iff.mp accepted).1 with present | attended
        · exact .inl ⟨rfl, present⟩
        · exact .inr attended
    | approve id approved reason =>
      cases approved with
      | false =>
        refine iff_of_true ?_ trivial
        intro after accepted runs
        rw [(control_approve_eq_some_iff.mp accepted).2] at runs
        cases runs
      | true =>
        constructor
        · intro kept awaiting pending
          rcases kept _ (control_approve_eq_some_iff.mpr ⟨⟨awaiting, pending⟩, rfl⟩) rfl with
            ⟨impossible, -⟩ | attended
          · cases impossible
          · exact attended
        · intro kept after accepted _
          have awaited := (control_approve_eq_some_iff.mp accepted).1
          exact .inr (kept awaited.1 awaited.2)
  | cancel =>
    constructor
    · intro kept runs
      apply kept
      · simp [workflowEngine, runs]
      · exact runs
    · intro kept _ runs
      exact kept runs
  | next | wake | publish | redefine => exact Iff.rfl

end AgenticOS.Workflows
