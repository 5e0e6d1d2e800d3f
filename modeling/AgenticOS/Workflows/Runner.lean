import AgenticOS.Workflows.Execution

/-!
# The runner of a workflow execution

A runner holds a snapshot of the execution, as those of pipelines do, and writes every change
of it to the store. At an approval node it asks for the approval and ends; nothing starts
another one when the approval is granted.

Of the nodes only agents are awaited. The others are modelled as awaits too, which only adds
points where a runner may be interrupted.
-/

namespace AgenticOS.Workflows

/-- What a runner awaits, with the node that it has taken up. -/
inductive Phase where
  /-- The task is created and has not run yet. -/
  | created
  /-- The publication that the execution started. -/
  | started
  /-- The sleep after a node with open dependencies was put back. -/
  | spinning
  /-- The publication that a node started. -/
  | nodeStarted (node : WorkflowNode)
  /-- The execution of a node. -/
  | executing (node : WorkflowNode)
  /-- The publication that a node completed. -/
  | nodeCompleted (node : WorkflowNode)
  /-- The publication that a node failed. -/
  | nodeFailed (node : WorkflowNode)
  /-- The publication that a node needs approval. -/
  | approvalRequested (node : WorkflowNode)
  /-- The publication of the result. -/
  | finished
  /-- The publication of the failure, in the handler of exceptions. -/
  | crashed
  /-- The publication of the cancellation, in its handler. -/
  | cancelling
  /-- Nothing; the task is over. -/
  | done

/-- The local state of `_run_execution`. -/
structure Runner where
  execution : WorkflowExecution
  inDegree : NodeId → ℤ
  readyQueue : List NodeId
  phase : Phase

namespace Runner

variable (workflow : Workflow)

/-- A new runner for a snapshot. -/
def create (execution : WorkflowExecution) : Runner where
  execution := execution
  inDegree := fun _ => 0
  readyQueue := []
  phase := .created

/-- Replace the snapshot, write it to the store and await something. -/
def save (runner : Runner) (execution : WorkflowExecution) (phase : Phase) :
    WorkflowExecution × Runner :=
  (execution, { runner with execution, phase })

/-- The handler of exceptions. -/
def crash (runner : Runner) (error : String) : WorkflowExecution × Runner :=
  runner.save (runner.execution.fail ("Execution crashed: " ++ error) none) .crashed

/-- The handler of cancellations. -/
def cancel (runner : Runner) : WorkflowExecution × Runner :=
  runner.save runner.execution.cancel .cancelling

variable (store : WorkflowExecution)

variable (runner : Runner)

/-- Behind the node loop. -/
def finalize : WorkflowExecution × Runner :=
  if runner.execution.status = .running then
    if runner.execution.failedNodes.Nonempty then
      runner.save (runner.execution.fail "Workflow failed due to node failures" none) .finished
    else runner.save runner.execution.complete .finished
  else (store, { runner with phase := .done })

def loop (store : WorkflowExecution) (runner : Runner) :
    List NodeId → WorkflowExecution × Runner
  | [] => finalize store { runner with readyQueue := [] }
  | id :: rest =>
    if runner.execution.status ≠ .running then
      finalize store { runner with readyQueue := id :: rest }
    else
      let taken := { runner with readyQueue := rest }
      match workflow.nodeMap id with
      | none => taken.crash ("'" ++ id ++ "'")
      | some node =>
        if id ∈ runner.execution.completedNodes then runner.loop store rest
        else if ¬ ∀ dep ∈ workflow.reverseAdj id, dep ∈ runner.execution.completedNodes then
          (store, { runner with readyQueue := rest ++ [id], phase := .spinning })
        else taken.save (runner.execution.setCurrentNode id) (.nodeStarted node)

/-- The beginning of the task, up to the publication that the execution started. -/
def begin : WorkflowExecution × Runner :=
  runner.save runner.execution.start .started

/-- The nodes to begin with. A replay begins with its node, whatever comes before it. -/
def initialQueue (execution : WorkflowExecution) : List NodeId :=
  match truthy execution.replayFromNode with
  | some id => [id]
  | none => workflow.nodeIds.filter fun id => workflow.inDegree id = 0

def enter : WorkflowExecution × Runner :=
  { runner with inDegree := workflow.inDegree }.loop workflow store
    (initialQueue workflow runner.execution)

/-- Count an edge into `target` as done; append a target without further open edges to
the ready queue. -/
def release (target : NodeId) : Runner :=
  let inDegree := Function.update runner.inDegree target (runner.inDegree target - 1)
  { runner with
    inDegree
    readyQueue :=
      if inDegree target ≤ 0 ∧ target ∉ runner.execution.completedNodes ∧
          target ∉ runner.readyQueue then
        runner.readyQueue ++ [target]
      else runner.readyQueue }

/-- Add the nodes downstream of a completed one. -/
def expand (id : NodeId) : Runner :=
  (workflow.adj id).foldl release runner

/-- A node fails, by an exception of its execution or of the publication behind it. -/
def failNode (node : WorkflowNode) (error : String) : WorkflowExecution × Runner :=
  runner.save (runner.execution.fail error (some node.id)) (.nodeFailed node)

/-- Continue a runner whose `await` ended normally. -/
def proceed : WorkflowExecution × Runner :=
  match runner.phase with
  | .created => runner.begin
  | .started => runner.enter workflow store
  | .spinning => runner.loop workflow store runner.readyQueue
  | .nodeStarted node =>
    -- `_execute_node` raises `ApprovalRequired` before it awaits anything.
    if node.type = .approval then
      runner.save (runner.execution.requestApproval node.id) (.approvalRequested node)
    else (store, { runner with phase := .executing node })
  | .executing node => runner.save (runner.execution.completeNode node.id) (.nodeCompleted node)
  | .nodeCompleted node =>
    let expanded := runner.expand workflow node.id
    expanded.loop workflow store expanded.readyQueue
  | .nodeFailed _ => finalize store runner
  | .approvalRequested _ | .finished | .crashed | .cancelling | .done =>
    (store, { runner with phase := .done })

/-- Continue a runner whose `await` raised an exception. Inside the `try` of a node the node
fails, in the handlers of the task it is over, elsewhere the execution crashes. A task that
has not run yet starts: nothing was awaited that could raise. -/
def raise (error : String) : WorkflowExecution × Runner :=
  match runner.phase with
  | .created => runner.begin
  | .executing node | .nodeCompleted node => runner.failNode node error
  | .started | .spinning | .nodeStarted _ | .nodeFailed _ | .approvalRequested _ | .finished =>
    runner.crash error
  | .crashed | .cancelling | .done => (store, { runner with phase := .done })

/-- Continue a runner whose task was cancelled. A task that has not run yet is over before its
first statement. -/
def interrupt : WorkflowExecution × Runner :=
  match runner.phase with
  | .created | .crashed | .cancelling | .done => (store, { runner with phase := .done })
  | _ => runner.cancel

/-- Run a runner to its next suspension, behind an await that was not cancelled. -/
def next (error : Option String) (store : WorkflowExecution) (runner : Runner) :
    WorkflowExecution × Runner :=
  match error with
  | none => runner.proceed workflow store
  | some error => runner.raise store error

variable {workflow} {runner : Runner}

@[simp]
theorem foldl_release_execution (targets : List NodeId) :
    (targets.foldl release runner).execution = runner.execution := by
  induction targets generalizing runner with
  | nil => rfl
  | cons target targets ih =>
    rw [List.foldl_cons, ih]
    rfl

@[simp]
theorem expand_execution (id : NodeId) : (runner.expand workflow id).execution = runner.execution :=
  foldl_release_execution (workflow.adj id)

end Runner

end AgenticOS.Workflows
