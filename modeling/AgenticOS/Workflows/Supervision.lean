import Mathlib.Algebra.Order.Ring.Int
import AgenticOS.Transition.Supervision.Cancelling
import AgenticOS.Transition.Supervision.Manning
import AgenticOS.Transition.Supervision.Pinning
import AgenticOS.Workflows.Runner

/-!
# The supervised runners of workflows

As with pipelines, but for approvals: these replace the record and create no runner.
-/

namespace AgenticOS.Workflows

open AgenticOS.Transition AgenticOS.Transition.Supervised

variable {κ : Type}

def Phase.standing : Phase → Standing
  | .created => .created
  | .started | .spinning | .nodeStarted _ | .executing _ | .nodeCompleted _ => .working
  | .nodeFailed _ | .approvalRequested _ | .finished => .closing
  | .crashed | .cancelling => .handling
  | .done => .ended

/-- The node that the runner has taken up. -/
def Phase.node? : Phase → Option WorkflowNode
  | .nodeStarted node | .executing node | .nodeCompleted node | .nodeFailed node
  | .approvalRequested node => some node
  | .created | .started | .spinning | .finished | .crashed | .cancelling | .done => none

/-- The operations that replace the record. -/
inductive Control where
  | pause
  | resume
  | approve (nodeId : NodeId) (approved : Bool) (reason : Option String)
  deriving DecidableEq

def Control.perform : Control → WorkflowExecution → Except String WorkflowExecution
  | .pause => pauseExecution
  | .resume => resumeExecution
  | .approve nodeId approved reason => approveWorkflow nodeId approved reason

def changeDefinition (change : Option (WorkflowUpdate κ)) (execution : WorkflowExecution)
    (definition : WorkflowDefinition κ) : Option (WorkflowDefinition κ) :=
  match change with
  | some data => some (definition.update data)
  | none => if execution.status = .running then some definition else none

abbrev ExecutionState (κ : Type) := Supervised WorkflowExecution Runner (WorkflowDefinition κ)

/-- What can be done about one execution. -/
abbrev ExecutionAction (κ : Type) := Action Control (Option (WorkflowUpdate κ))

def workflowEngine (κ : Type) :
    Engine WorkflowExecution Runner (WorkflowDefinition κ) Control (Option (WorkflowUpdate κ)) where
  standing runner := runner.phase.standing
  create := Runner.create
  proceed definition error store runner := runner.next definition.toWorkflow error store
  interrupt store runner := runner.interrupt store
  cancellable execution :=
    execution.status = .running ∨ execution.status = .paused ∨ execution.status = .awaitingApproval
  cancel := WorkflowExecution.cancel
  control operation execution := (operation.perform execution).toOption
  starts operation := operation = .resume
  redefine := changeDefinition

section

variable {execution after : WorkflowExecution}

open Control

theorem control_pause_eq_some_iff : (workflowEngine κ).control .pause execution = some after ↔
      execution.status = .running ∧ after = execution.pause := by
  by_cases running : execution.status = .running
  · simp [workflowEngine, perform, pauseExecution, Except.toOption, running, eq_comm]
  · simp [workflowEngine, perform, pauseExecution, Except.toOption, running]

theorem control_resume_eq_some_iff : (workflowEngine κ).control .resume execution = some after ↔
      execution.status = .paused ∧ after = execution.start := by
  by_cases paused : execution.status = .paused
  · simp [workflowEngine, perform, resumeExecution, Except.toOption, paused, eq_comm]
  · simp [workflowEngine, perform, resumeExecution, Except.toOption, paused]

theorem control_approve_eq_some_iff {id : NodeId} {approved : Bool} {reason : Option String} :
    (workflowEngine κ).control (.approve id approved reason) execution = some after ↔
      (execution.status = .awaitingApproval ∧ execution.pendingApproval = some id) ∧
        after = execution.decideApproval id approved reason := by
  by_cases awaited :
      execution.status = .awaitingApproval ∧ execution.pendingApproval = some id
  · simp [workflowEngine, perform, approveWorkflow, Except.toOption, awaited, eq_comm]
  · simp [workflowEngine, perform, approveWorkflow, Except.toOption, awaited]

theorem status_of_control {operation : Control}
    (accepted : (workflowEngine κ).control operation execution = some after) :
    execution.status = .running ∨ execution.status = .paused ∨
      execution.status = .awaitingApproval := by
  cases operation with
  | pause => exact .inl (control_pause_eq_some_iff.mp accepted).1
  | resume => exact .inr (.inl (control_resume_eq_some_iff.mp accepted).1)
  | approve id approved reason => exact .inr (.inr (control_approve_eq_some_iff.mp accepted).1.1)

end

theorem next_of_handling {workflow : Workflow} {runner : Runner}
    (handling : runner.phase.standing = .handling) (error : Option String)
    (store : WorkflowExecution) :
    runner.next workflow error store = (store, { runner with phase := .done }) := by
  cases phase : runner.phase with
  | crashed | cancelling =>
    cases error with
    | none => simp only [Runner.next, Runner.proceed, phase]
    | some error => simp only [Runner.next, Runner.raise, phase]
  | created | started | spinning | nodeStarted | executing | nodeCompleted | nodeFailed
  | approvalRequested | finished | done =>
    rw [phase] at handling
    cases handling

theorem interrupt_of_retired {runner : Runner}
    (retired : runner.phase.standing = .handling ∨ runner.phase.standing = .created)
    (store : WorkflowExecution) :
    runner.interrupt store = (store, { runner with phase := .done }) := by
  rw [Runner.interrupt]
  cases phase : runner.phase with
  | created | crashed | cancelling | done => rfl
  | started | spinning | nodeStarted | executing | nodeCompleted | nodeFailed
  | approvalRequested | finished =>
    rw [phase] at retired
    rcases retired with impossible | impossible
    · cases impossible
    · cases impossible

theorem workflow_cancelling (κ : Type) :
    Cancelling (workflowEngine κ) (fun execution => execution.status = .cancelled)
      WorkflowExecution.completedNodes where
  cancelled_cancel _ := rfl
  done_cancel _ := rfl
  cancellable store cancelled := by simp [workflowEngine, cancelled]
  control operation store cancelled := by
    rw [Option.eq_none_iff_forall_ne_some]
    intro after accepted
    have live := status_of_control accepted
    rw [cancelled] at live
    simp at live
  proceed definition error store worker handling := by
    simp only [workflowEngine, next_of_handling handling]
    exact ⟨trivial, rfl⟩
  interrupt store worker retired := by
    simp only [workflowEngine, interrupt_of_retired retired]
    exact ⟨trivial, rfl⟩

def Follows (workflow : Workflow) (runner : Runner) : Prop :=
  ∀ node, runner.phase.node? = some node → node ∈ workflow.nodes

section

variable {workflow : Workflow} {runner : Runner}

theorem follows_of_none (idle : runner.phase.node? = none) : Follows workflow runner := by
  intro node atNode
  rw [idle] at atNode
  cases atNode

variable (store : WorkflowExecution)

theorem follows_finalize : Follows workflow (runner.finalize store).2 := by
  apply follows_of_none
  rw [Runner.finalize]
  split
  · split
    · rfl
    · rfl
  · rfl

theorem follows_loop (queue : List NodeId) :
    Follows workflow (runner.loop workflow store queue).2 := by
  induction queue with
  | nil => exact follows_finalize store
  | cons id rest ih =>
    rw [Runner.loop]
    split
    · exact follows_finalize store
    · split
      next => exact follows_of_none rfl
      next node found =>
        split
        · exact ih
        · split
          · exact follows_of_none rfl
          · intro other taken
            cases taken
            exact Workflow.mem_nodes_of_nodeMap found

theorem follows_interrupt : Follows workflow (runner.interrupt store).2 := by
  apply follows_of_none
  rw [Runner.interrupt]
  split
  · rfl
  · rfl
  · rfl
  · rfl
  · rfl

/-- A runner that has taken up a node keeps it until it enters the loop again. -/
theorem Follows.next (follows : Follows workflow runner) (error : Option String)
    (store : WorkflowExecution) : Follows workflow (runner.next workflow error store).2 := by
  cases error with
  | none =>
    rw [Runner.next, Runner.proceed]
    cases phase : runner.phase with
    | created | approvalRequested | finished | crashed | cancelling | done =>
      exact follows_of_none rfl
    | nodeStarted node =>
      have member : node ∈ workflow.nodes := follows node (by rw [phase]; rfl)
      dsimp only
      split
      · intro other taken
        cases taken
        exact member
      · intro other taken
        cases taken
        exact member
    | executing node =>
      intro other taken
      cases taken
      exact follows node (by rw [phase]; rfl)
    | nodeFailed node => exact follows_finalize store
    | _ => exact follows_loop store _
  | some error =>
    rw [Runner.next, Runner.raise]
    cases phase : runner.phase with
    | executing node | nodeCompleted node =>
      intro other taken
      cases taken
      exact follows node (by rw [phase]; rfl)
    | created | started | spinning | nodeStarted | nodeFailed | approvalRequested | finished
    | crashed | cancelling | done => exact follows_of_none rfl

end

def workflowVersioning (κ : Type) : Versioning (WorkflowDefinition κ) Runner WorkflowNode ℤ where
  version definition := definition.version
  nodes definition := definition.toWorkflow.nodes
  executing runner := runner.phase.node?

theorem update_revises (definition : WorkflowDefinition κ) (data : WorkflowUpdate κ) :
    ((definition.update data).version : ℤ) = definition.version ∧
        (definition.update data).toWorkflow.nodes = definition.toWorkflow.nodes ∨
      (definition.version : ℤ) < (definition.update data).version := by
  rw [WorkflowDefinition.update]
  split
  · exact .inr (Int.ofNat_lt.mpr (Nat.lt_succ_self definition.version))
  · exact .inl ⟨rfl, rfl⟩

/-- The order of the version numbers. -/
local instance versionOrder : Preorder ℤ := Int.instLinearOrder.toPreorder

theorem workflow_pinning (κ : Type) : Pinning (workflowEngine κ) (workflowVersioning κ)
      (fun definition runner => Follows definition.toWorkflow runner) where
  create _ _ := follows_of_none rfl
  proceed _ error store _ follows := follows.next error store
  interrupt _ store _ _ := follows_interrupt store
  executes _ _ node follows taken := follows node taken
  redefine change store before after redefined := by
    simp only [workflowEngine, changeDefinition] at redefined
    split at redefined
    next data =>
      cases redefined
      exact update_revises before data
    next =>
      split at redefined
      · cases redefined
        exact .inl ⟨rfl, rfl⟩
      · cases redefined

end AgenticOS.Workflows
