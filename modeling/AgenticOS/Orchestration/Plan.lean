import Mathlib.Data.Int.Notation
import Mathlib.Data.List.Nodup

/-!
# Orchestration plans

A goal is worked on by plans, a plan is a list of subtasks. Goals, plans and tasks are
immutable records; every operation builds a changed copy.
-/

namespace AgenticOS.Orchestration

open List

abbrev TaskId := String
abbrev AgentId := String
abbrev PlanId := String
abbrev GoalId := String
abbrev SwarmId := String

/-- A dictionary of arbitrary values, in insertion order. -/
abbrev Payload := List (String × String)

inductive AgentTaskStatus
  | pending | assigned | running | completed | failed | cancelled | timeout
  deriving DecidableEq

/-- The status as it appears in messages. -/
def AgentTaskStatus.value : AgentTaskStatus → String
  | .pending => "pending"
  | .assigned => "assigned"
  | .running => "running"
  | .completed => "completed"
  | .failed => "failed"
  | .cancelled => "cancelled"
  | .timeout => "timeout"

/-- How the subtasks of a plan are executed. -/
inductive CoordinationPattern
  | sequential | parallel | fanOut | fanIn | hierarchical | voting
  deriving DecidableEq

/-- A single subtask within a plan, assigned to at most one agent. -/
structure AgentTask where
  id : TaskId
  status : AgentTaskStatus := .pending
  assignedAgentId : Option AgentId := none
  dependsOn : List TaskId := []
  coordinationPattern : Option CoordinationPattern := none
  outputData : Payload := []
  error : Option String := none
  priority : ℤ := 0
  /-- The number of seconds as it appears in messages. -/
  timeoutSeconds : String := "300.0"
  deriving DecidableEq

namespace AgentTask

variable (task : AgentTask)

def withAssigned (agentId : AgentId) : AgentTask :=
  { task with status := .assigned, assignedAgentId := some agentId }

def withStatus (status : AgentTaskStatus) : AgentTask :=
  { task with status }

def withOutput (output : Payload) : AgentTask :=
  { task with status := .completed, outputData := output }

/-- The task fails. An engine may report a failure without an error text. -/
def withError (error : Option String) : AgentTask :=
  { task with status := .failed, error }

@[simp] theorem withAssigned_id (agentId : AgentId) : (task.withAssigned agentId).id = task.id :=
  rfl

@[simp] theorem withStatus_id (status : AgentTaskStatus) :
    (task.withStatus status).id = task.id :=
  rfl

@[simp] theorem withStatus_status (status : AgentTaskStatus) :
    (task.withStatus status).status = status :=
  rfl

@[simp] theorem withOutput_id (output : Payload) : (task.withOutput output).id = task.id :=
  rfl

@[simp] theorem withOutput_status (output : Payload) :
    (task.withOutput output).status = .completed :=
  rfl

@[simp] theorem withError_id (error : Option String) : (task.withError error).id = task.id :=
  rfl

@[simp] theorem withError_status (error : Option String) :
    (task.withError error).status = .failed :=
  rfl

end AgentTask

structure OrchestrationPlan where
  id : PlanId
  goalId : GoalId
  subtasks : List AgentTask
  status : String := "pending"
  metadata : Payload := []

namespace OrchestrationPlan

variable (plan : OrchestrationPlan)

def withStatus (status : String) : OrchestrationPlan :=
  { plan with status }

def taskIds : List TaskId :=
  plan.subtasks.map AgentTask.id

def taskMap (id : TaskId) : Option AgentTask :=
  plan.subtasks.reverse.find? fun task => task.id = id

def dependencies (id : TaskId) : List TaskId :=
  match plan.taskMap id with
  | none => []
  | some task => task.dependsOn

variable {plan}

variable {task : AgentTask}

theorem id_of_taskMap {id : TaskId} (found : plan.taskMap id = some task) : task.id = id := by
  have satisfied := find?_some found
  simpa using satisfied

theorem mem_of_taskMap {id : TaskId} (found : plan.taskMap id = some task) :
    task ∈ plan.subtasks := by
  simpa using mem_of_find?_eq_some found

theorem exists_taskMap {id : TaskId} (member : id ∈ plan.taskIds) :
    ∃ task, plan.taskMap id = some task := by
  rcases mem_map.mp member with ⟨task, listed, same⟩
  apply Option.isSome_iff_exists.mp
  rw [taskMap, find?_isSome]
  exact ⟨task, mem_reverse.mpr listed, by simpa using same⟩

section

variable (distinct : plan.taskIds.Nodup) (member : task ∈ plan.subtasks)
include distinct member

theorem eq_of_id_eq {other : AgentTask} (otherMember : other ∈ plan.subtasks)
    (same : task.id = other.id) : task = other :=
  inj_on_of_nodup_map distinct member otherMember same

theorem taskMap_eq : plan.taskMap task.id = some task := by
  obtain ⟨found, lookup⟩ := exists_taskMap (mem_map_of_mem (f := AgentTask.id) member)
  have same := eq_of_id_eq distinct (mem_of_taskMap lookup) member (id_of_taskMap lookup)
  rw [lookup, same]

theorem dependencies_eq : plan.dependencies task.id = task.dependsOn := by
  rw [dependencies, taskMap_eq distinct member]

end

end OrchestrationPlan

/-- A high-level goal. -/
structure OrchestrationGoal where
  id : GoalId
  swarmId : Option SwarmId := none
  status : String := "pending"

def OrchestrationGoal.withStatus (goal : OrchestrationGoal) (status : String) : OrchestrationGoal :=
  { goal with status }

end AgenticOS.Orchestration
