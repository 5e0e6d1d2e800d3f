import AgenticOS.Data.Clock
import AgenticOS.Data.Dict
import AgenticOS.Transition.Pool
import AgenticOS.Transition.Run

/-!
# The distributed executor

The executor sends tasks to other nodes and waits for what they answer. While one call of
`dispatch` waits for the transport, everything else may happen to its task: the remote node
acknowledges it or completes it, once or several times, or it runs out of time.

Ids are never given twice, so a task is known by its id, and whoever dispatches a task again
dispatches the one that is registered. The publication of events is left out: nothing is
written behind one. Of the result of a task only what is read of it is kept.
-/

namespace AgenticOS.Distributed

open Transition

inductive DistributedTaskStatus where
  | pending
  | dispatched
  | acknowledged
  | executing
  | completed
  | failed
  | timeout
  | cancelled
deriving DecidableEq

structure TaskResult where
  executedLocally : Bool := false
  error : Option String := none

inductive TaskError where
  | dispatchFailed
  | rejected (reason : String)
  | remote (message : String)
  | timedOut (seconds : ℚ)

def TaskError.text (printed : ℚ → String) : TaskError → String
  | .dispatchFailed => "Dispatch failed after retries"
  | .rejected reason => reason
  | .remote message => message
  | .timedOut seconds => "Timed out after " ++ printed seconds ++ "s"

structure DistributedTask where
  id : String
  sourceNodeId : String := ""
  status : DistributedTaskStatus := .pending
  assignedNodeId : String := ""
  assignedBrainId : String := ""
  dispatchTime : Option Timestamp := none
  ackTime : Option Timestamp := none
  completionTime : Option Timestamp := none
  result : TaskResult := {}
  error : Option TaskError := none
  timeoutS : ℚ := 60
  retries : Int := 0
  maxRetries : Int := 2

structure TaskAcknowledgement where
  taskId : String
  nodeId : String
  brainId : String := ""
  accepted : Bool := true
  reason : String := ""

structure ExecutorStats where
  dispatched : Nat := 0
  acknowledged : Nat := 0
  completed : Nat := 0
  failed : Nat := 0
  timedOut : Nat := 0
  retried : Nat := 0

structure DistributedExecutor where
  localNodeId : String := ""
  tasks : Dict String DistributedTask := .empty
  acks : Dict String TaskAcknowledgement := .empty
  stats : ExecutorStats := {}

/-- A call of `dispatch` waits for the transport, or is finished. -/
inductive Dispatching where
  | waiting (taskId : String)
  | finished

namespace DistributedExecutor

variable (executor : DistributedExecutor)

def listTasks (status : DistributedTaskStatus) : List DistributedTask :=
  executor.tasks.values.filter fun task => task.status = status

/-- `dispatch`, up to the answer of the transport. -/
def launch (task : DistributedTask) (now : Timestamp) : DistributedExecutor × Dispatching :=
  let task := { task with sourceNodeId := executor.localNodeId }
  if task.assignedNodeId = "" ∨ task.assignedNodeId = executor.localNodeId then
    let task :=
      { task with
        status := .completed
        completionTime := some now
        result := { executedLocally := true } }
    ({ executor with
        tasks := executor.tasks.set task.id task
        stats := { executor.stats with completed := executor.stats.completed + 1 } },
      .finished)
  else
    let task :=
      { task with
        status := .dispatched
        dispatchTime := some now }
    ({ executor with
        tasks := executor.tasks.set task.id task
        stats := { executor.stats with dispatched := executor.stats.dispatched + 1 } },
      .waiting task.id)

/-- `dispatch`, behind the answer of the transport. A task that is sent again keeps what has
happened to it in the meantime. -/
def returned (delivered : Bool) (now : Timestamp) (executor : DistributedExecutor) :
    Dispatching → DistributedExecutor × Dispatching
  | .finished => (executor, .finished)
  | .waiting taskId =>
    match executor.tasks.get? taskId with
    | none => (executor, .finished)
    | some task =>
      if delivered then
        let task :=
          { task with
            status := .acknowledged
            ackTime := some now }
        ({ executor with
            tasks := executor.tasks.set taskId task
            stats :=
              { executor.stats with acknowledged := executor.stats.acknowledged + 1 } },
          .finished)
      else if task.retries < task.maxRetries then
        let retrying :=
          { executor with
            stats := { executor.stats with retried := executor.stats.retried + 1 } }
        retrying.launch { task with retries := task.retries + 1 } now
      else
        let task :=
          { task with
            status := .failed
            error := some .dispatchFailed }
        ({ executor with
            tasks := executor.tasks.set taskId task
            stats := { executor.stats with failed := executor.stats.failed + 1 } },
          .finished)

def receiveAcknowledgement (ack : TaskAcknowledgement) (now : Timestamp) :
    DistributedExecutor × Bool :=
  match executor.tasks.get? ack.taskId with
  | none => (executor, false)
  | some task =>
    let task :=
      { task with
        assignedNodeId := ack.nodeId
        assignedBrainId := ack.brainId }
    let acks := executor.acks.set ack.taskId ack
    if ack.accepted then
      let task :=
        { task with
          status := .acknowledged
          ackTime := some now }
      ({ executor with
          tasks := executor.tasks.set ack.taskId task
          acks := acks
          stats := { executor.stats with acknowledged := executor.stats.acknowledged + 1 } },
        true)
    else
      let task :=
        { task with
          status := .failed
          error := some (.rejected ack.reason) }
      ({ executor with
          tasks := executor.tasks.set ack.taskId task
          acks := acks
          stats := { executor.stats with failed := executor.stats.failed + 1 } },
        true)

def receiveCompletion (taskId : String) (result : TaskResult) (success : Bool)
    (now : Timestamp) : DistributedExecutor × Bool :=
  match executor.tasks.get? taskId with
  | none => (executor, false)
  | some task =>
    let task :=
      { task with
        completionTime := some now
        result := result }
    if success then
      let task := { task with status := .completed }
      ({ executor with
          tasks := executor.tasks.set taskId task
          stats := { executor.stats with completed := executor.stats.completed + 1 } },
        true)
    else
      let task :=
        { task with
          status := .failed
          error := some (.remote (result.error.getD "Remote execution failed")) }
      ({ executor with
          tasks := executor.tasks.set taskId task
          stats := { executor.stats with failed := executor.stats.failed + 1 } },
        true)

/-- A task is out of time: it is under way, and has been for too long. -/
def outOfTime (now : Timestamp) (task : DistributedTask) : Bool :=
  task.status ∈ [DistributedTaskStatus.dispatched, .acknowledged, .executing] &&
    task.dispatchTime.any fun dispatched => task.timeoutS < now - dispatched

/-- What `check_timeouts` makes of a task. -/
def timeOut (now : Timestamp) (task : DistributedTask) : DistributedTask :=
  if outOfTime now task then
    { task with
      status := .timeout
      error := some (.timedOut task.timeoutS) }
  else task

def checkTimeouts (now : Timestamp) : DistributedExecutor × Nat :=
  let count := executor.tasks.values.countP (outOfTime now)
  ({ executor with
      tasks := executor.tasks.mapValues (timeOut now)
      stats := { executor.stats with timedOut := executor.stats.timedOut + count } },
    count)

/-- What happens at an executor, uninterrupted. -/
inductive Action where
  | dispatch (task : DistributedTask) (now : Timestamp)
  | dispatchReturns (index : Nat) (delivered : Bool) (now : Timestamp)
  | acknowledge (ack : TaskAcknowledgement) (now : Timestamp)
  | complete (taskId : String) (result : TaskResult) (success : Bool) (now : Timestamp)
  | checkTimeouts (now : Timestamp)

/-- An executor and the calls of `dispatch`. -/
abbrev Execution := Pool DistributedExecutor Dispatching

def step (execution : Execution) : Action → Execution
  | .dispatch task now =>
    let task := (execution.store.tasks.get? task.id).getD task
    let (executor, dispatching) := execution.store.launch task now
    execution.spawn executor dispatching
  | .dispatchReturns index delivered now => Pool.resume (returned delivered now) execution index
  | .acknowledge ack now =>
    { execution with store := (execution.store.receiveAcknowledgement ack now).1 }
  | .complete taskId result success now =>
    { execution with store := (execution.store.receiveCompletion taskId result success now).1 }
  | .checkTimeouts now => { execution with store := (execution.store.checkTimeouts now).1 }

end DistributedExecutor

end AgenticOS.Distributed
