import Mathlib.Data.Finset.Basic
import AgenticOS.Workflows.Definition

/-!
# Workflow executions

An execution is an immutable record, replaced by changed copies. It runs, rests, awaits an
approval, or is over. Texts that are empty count as absent where the source asks for truth.
-/

namespace AgenticOS.Workflows

namespace Workflow

def nodeIds (workflow : Workflow) : List NodeId :=
  workflow.nodes.map WorkflowNode.id

def nodeMap (workflow : Workflow) (id : NodeId) : Option WorkflowNode :=
  workflow.nodes.reverse.find? fun node => node.id = id

def adj (workflow : Workflow) (id : NodeId) : List NodeId :=
  (workflow.edges.filter fun edge => edge.source = id).map WorkflowEdge.target

def reverseAdj (workflow : Workflow) (id : NodeId) : List NodeId :=
  (workflow.edges.filter fun edge => edge.target = id).map WorkflowEdge.source

def inDegree (workflow : Workflow) (id : NodeId) : ℤ :=
  workflow.edges.countP fun edge => edge.target = id

/-- The node that a runner finds for the id asks for an approval. -/
def NeedsApproval (workflow : Workflow) (id : NodeId) : Prop :=
  ∃ node, workflow.nodeMap id = some node ∧ node.type = .approval

theorem not_needsApproval {workflow : Workflow} {id : NodeId} {node : WorkflowNode}
    (found : workflow.nodeMap id = some node) (unasked : node.type ≠ .approval) :
    ¬ workflow.NeedsApproval id := by
  rintro ⟨other, otherFound, asked⟩
  rw [found] at otherFound
  cases otherFound
  exact unasked asked

theorem mem_nodes_of_nodeMap {workflow : Workflow} {id : NodeId} {node : WorkflowNode}
    (found : workflow.nodeMap id = some node) : node ∈ workflow.nodes :=
  List.mem_reverse.mp (List.mem_of_find?_eq_some found)

end Workflow

inductive WorkflowExecutionStatus where
  | pending
  | running
  | paused
  | awaitingApproval
  | completed
  | failed
  | cancelled
  deriving DecidableEq

/-- The status as it appears in messages. -/
def WorkflowExecutionStatus.value : WorkflowExecutionStatus → String
  | .pending => "pending"
  | .running => "running"
  | .paused => "paused"
  | .awaitingApproval => "awaiting_approval"
  | .completed => "completed"
  | .failed => "failed"
  | .cancelled => "cancelled"

structure WorkflowExecution where
  workflowVersion : ℤ
  status : WorkflowExecutionStatus := .pending
  currentNode : Option NodeId := none
  completedNodes : Finset NodeId := ∅
  failedNodes : Finset NodeId := ∅
  nodeErrors : Dict NodeId String := Dict.empty
  /-- The node that awaits approval. -/
  pendingApproval : Option NodeId := none
  error : Option String := none
  replayFromNode : Option NodeId := none

/-- A text that counts as true. -/
def truthy (text : Option String) : Option String :=
  text.filter fun text => text ≠ ""

namespace WorkflowExecution

variable (execution : WorkflowExecution)

def start : WorkflowExecution :=
  { execution with status := .running, error := none }

def pause : WorkflowExecution :=
  { execution with status := .paused }

def complete : WorkflowExecution :=
  { execution with
    status := .completed
    currentNode := none
    pendingApproval := none
    error := none }

def fail (error : String) (failedNode : Option NodeId) : WorkflowExecution :=
  match truthy failedNode with
  | none => { execution with status := .failed, pendingApproval := none, error := some error }
  | some id =>
    { execution with
      status := .failed
      failedNodes := insert id execution.failedNodes
      nodeErrors := execution.nodeErrors.set id error
      pendingApproval := none
      error := some error }

def cancel : WorkflowExecution :=
  { execution with
    status := .cancelled
    currentNode := none
    pendingApproval := none
    error := some "Cancelled by user" }

def setCurrentNode (id : NodeId) : WorkflowExecution :=
  { execution with currentNode := some id }

def completeNode (id : NodeId) : WorkflowExecution :=
  { execution with completedNodes := insert id execution.completedNodes }

def requestApproval (id : NodeId) : WorkflowExecution :=
  { execution with
    status := .awaitingApproval
    currentNode := some id
    pendingApproval := some id }

def decideApproval (id : NodeId) (approved : Bool) (reason : Option String) : WorkflowExecution :=
  if approved then
    { execution with
      status := .running
      currentNode := some id
      completedNodes := insert id execution.completedNodes
      pendingApproval := none
      error := none }
  else
    { execution with
      status := .failed
      currentNode := none
      failedNodes := insert id execution.failedNodes
      nodeErrors := execution.nodeErrors.set id (orElse reason "Approval denied")
      pendingApproval := none
      error := some (orElse reason "Approval denied") }

@[simp]
theorem fail_status (error : String) (failedNode : Option NodeId) :
    (execution.fail error failedNode).status = .failed := by
  rw [fail]
  split
  · rfl
  · rfl

end WorkflowExecution

def pauseExecution (execution : WorkflowExecution) : Except String WorkflowExecution :=
  if execution.status ≠ .running then
    .error ("Cannot pause execution in status " ++ execution.status.value)
  else .ok execution.pause

/-- Resume a stored execution; the record that is stored is also the snapshot with which
a new runner starts. -/
def resumeExecution (execution : WorkflowExecution) : Except String WorkflowExecution :=
  if execution.status ≠ .paused then
    .error ("Cannot resume execution in status " ++ execution.status.value)
  else .ok execution.start

def approveWorkflow (nodeId : NodeId) (approved : Bool) (reason : Option String)
    (execution : WorkflowExecution) : Except String WorkflowExecution :=
  if execution.status = .awaitingApproval ∧ execution.pendingApproval = some nodeId then
    .ok (execution.decideApproval nodeId approved reason)
  else .error ("No execution awaiting approval for node " ++ nodeId)

def executeWorkflow (version : ℤ) (replayFromNode : Option NodeId) : WorkflowExecution where
  workflowVersion := version
  replayFromNode := replayFromNode

/-- The record with which a workflow is replayed. A requested version is recorded, except for
zero, which counts as none; it is the current workflow that runs. -/
def replayWorkflow (version : ℤ) (requested : Option ℤ) (fromNode : Option NodeId) :
    WorkflowExecution where
  workflowVersion := (requested.filter fun requested => requested ≠ 0).getD version
  replayFromNode := fromNode

end AgenticOS.Workflows
