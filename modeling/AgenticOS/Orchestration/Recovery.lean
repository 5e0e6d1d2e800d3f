import AgenticOS.Data.Dict
import AgenticOS.Orchestration.Plan

/-!
# Checkpoints and recovery

A checkpoint records which tasks of a plan are completed or failed, and the outputs.
Recovery and rollback rebuild the tasks of a later form of the plan from it, each with a
rule of its own for completed, failed and other tasks.
-/

namespace AgenticOS.Orchestration

open List

abbrev CheckpointId := String

/-- The execution state of a plan at some time. -/
structure Checkpoint where
  id : CheckpointId
  planId : PlanId
  stageId : String
  taskStates : Dict TaskId String
  completedTaskIds : List TaskId
  failedTaskIds : List TaskId
  partialOutputs : Dict TaskId Payload
  metadata : Payload

def recordOutput (outputs : Dict TaskId Payload) (task : AgentTask) : Dict TaskId Payload :=
  if task.outputData = [] then outputs else outputs.set task.id task.outputData

def saveCheckpoint (id : CheckpointId) (plan : OrchestrationPlan) (stageId : Option String)
    (metadata : Option Payload) : Checkpoint where
  id := id
  planId := plan.id
  stageId := stageId.getD ""
  taskStates := .ofList (plan.subtasks.map fun task => (task.id, task.status.value))
  completedTaskIds :=
    (plan.subtasks.filter fun task => task.status = .completed).map AgentTask.id
  failedTaskIds := (plan.subtasks.filter fun task => task.status = .failed).map AgentTask.id
  partialOutputs := plan.subtasks.foldl recordOutput Dict.empty
  metadata := metadata.getD []

def AgentTask.reset (task : AgentTask) : AgentTask :=
  { task with status := .pending, assignedAgentId := none, outputData := [], error := none }

def AgentTask.restore (task : AgentTask) (output : Payload) : AgentTask :=
  { task with status := .completed, outputData := output, error := none }

/-- What recovery makes of a task. -/
def recoverTask (checkpoint : Checkpoint) (task : AgentTask) : AgentTask :=
  if task.id ∈ checkpoint.completedTaskIds then
    task.restore ((checkpoint.partialOutputs.get? task.id).getD [])
  else if task.id ∈ checkpoint.failedTaskIds then task.reset
  else task

/-- What recovery makes of a task without a checkpoint. -/
def resetFailed (task : AgentTask) : AgentTask :=
  if task.status = .failed then task.reset else task

def recoverPlan (plan : OrchestrationPlan) : Option Checkpoint → OrchestrationPlan
  | some checkpoint =>
    { plan with
      subtasks := plan.subtasks.map (recoverTask checkpoint)
      status := "recovering"
      metadata := Dict.assign "recovered_from" checkpoint.id plan.metadata }
  | none => { plan with subtasks := plan.subtasks.map resetFailed, status := "pending" }

def rollbackTask (checkpoint : Checkpoint) (task : AgentTask) : AgentTask :=
  if task.id ∈ checkpoint.completedTaskIds then task
  else if task.id ∈ checkpoint.failedTaskIds then task.reset
  else task.reset

def rollbackPlan (plan : OrchestrationPlan) (checkpoint : Checkpoint) : OrchestrationPlan :=
  { plan with
    subtasks := plan.subtasks.map (rollbackTask checkpoint)
    status := "pending"
    metadata := Dict.assign "rolled_back_to" checkpoint.id plan.metadata }

section

variable {plan : OrchestrationPlan} {id : CheckpointId} {stageId : Option String}
  {metadata : Option Payload} {task : AgentTask} {taskId : TaskId}

def OrchestrationPlan.Has (plan : OrchestrationPlan) (status : AgentTaskStatus)
    (taskId : TaskId) : Prop :=
  ∃ task ∈ plan.subtasks, task.id = taskId ∧ task.status = status

theorem mem_completedTaskIds_iff :
    taskId ∈ (saveCheckpoint id plan stageId metadata).completedTaskIds ↔
      plan.Has .completed taskId := by
  simp only [saveCheckpoint, mem_map, mem_filter, decide_eq_true_eq, OrchestrationPlan.Has]
  constructor
  · rintro ⟨task, ⟨member, completed⟩, same⟩
    exact ⟨task, member, same, completed⟩
  · rintro ⟨task, member, same, completed⟩
    exact ⟨task, ⟨member, completed⟩, same⟩

theorem mem_failedTaskIds_iff : taskId ∈ (saveCheckpoint id plan stageId metadata).failedTaskIds ↔
      plan.Has .failed taskId := by
  simp only [saveCheckpoint, mem_map, mem_filter, decide_eq_true_eq, OrchestrationPlan.Has]
  constructor
  · rintro ⟨task, ⟨member, failed⟩, same⟩
    exact ⟨task, member, same, failed⟩
  · rintro ⟨task, member, same, failed⟩
    exact ⟨task, ⟨member, failed⟩, same⟩

/-- The last output under an id, among those that are not empty. -/
def OrchestrationPlan.lastOutput (plan : OrchestrationPlan) (taskId : TaskId) : Payload :=
  match plan.subtasks.reverse.find? fun task => task.id = taskId ∧ task.outputData ≠ [] with
  | none => []
  | some task => task.outputData

theorem partialOutputs_eq :
    ((saveCheckpoint id plan stageId metadata).partialOutputs.get? taskId).getD [] =
      plan.lastOutput taskId := by
  change ((plan.subtasks.foldl recordOutput .empty).get? taskId).getD [] = _
  rw [OrchestrationPlan.lastOutput]
  generalize plan.subtasks = tasks
  induction tasks using List.reverseRecOn with
  | nil => rfl
  | append_singleton tasks last ih =>
    rw [foldl_append, foldl_cons, foldl_nil, reverse_append,
      reverse_singleton, singleton_append, recordOutput]
    by_cases empty : last.outputData = []
    · rw [if_pos empty, find?_cons_of_neg (by simp [empty]), ih]
    · rw [if_neg empty, Dict.get?_set]
      by_cases same : taskId = last.id
      · rw [if_pos same, find?_cons_of_pos (by simp [same, empty])]
        rfl
      · rw [if_neg same, find?_cons_of_neg (by simp [Ne.symm same]),
          ih]

end

structure OrchestrationPlan.RestoredBy (base result : OrchestrationPlan) : Prop where
  completed : ∀ task ∈ base.subtasks, task.status = .completed →
    ∀ other ∈ result.subtasks, other.id = task.id →
      other.status = .completed ∧ other.outputData = task.outputData
  only : ∀ other ∈ result.subtasks, other.status = .completed → base.Has .completed other.id

/-- No task stands in the way of a further execution: none is failed, and none is cancelled
behind a task that had failed. -/
def OrchestrationPlan.UnblockedBy (later result : OrchestrationPlan) : Prop :=
  ∀ (index : Nat) (task : AgentTask), result.subtasks[index]? = some task →
    task.status ≠ .failed ∧
      ((∃ earlier < index, ∃ failed, later.subtasks[earlier]? = some failed ∧
        failed.status = .failed) → task.status ≠ .cancelled)

/-- Completed tasks stay completed, with their outputs. -/
def OrchestrationPlan.KeepsCompleted (base later : OrchestrationPlan) : Prop :=
  ∀ task ∈ base.subtasks, task.status = .completed →
    ∀ other ∈ later.subtasks, other.id = task.id →
      other.status = .completed ∧ other.outputData = task.outputData

/-- Only tasks that had failed are completed besides. -/
def OrchestrationPlan.CompletesNoOther (base later : OrchestrationPlan) : Prop :=
  ∀ other ∈ later.subtasks, other.status = .completed →
    base.Has .completed other.id ∨ base.Has .failed other.id

/-- The last output of a completed task is its own. -/
def OrchestrationPlan.OutputsAgree (base : OrchestrationPlan) : Prop :=
  ∀ task ∈ base.subtasks, task.status = .completed → base.lastOutput task.id = task.outputData

/-- No task behind a failed one is cancelled. -/
def OrchestrationPlan.NoneCancelledBehindFailure (later : OrchestrationPlan) : Prop :=
  ∀ (index : Nat) (task : AgentTask), later.subtasks[index]? = some task →
    (∃ earlier < index, ∃ failed, later.subtasks[earlier]? = some failed ∧
      failed.status = .failed) → task.status ≠ .cancelled

section

variable {base later : OrchestrationPlan} {id : CheckpointId} {stageId : Option String}
  {metadata : Option Payload}

theorem rollbackTask_eq (base : OrchestrationPlan) (id : CheckpointId) (stageId : Option String)
    (metadata : Option Payload) (task : AgentTask) : (base.Has .completed task.id ∧
        rollbackTask (saveCheckpoint id base stageId metadata) task = task) ∨
      (¬ base.Has .completed task.id ∧
        rollbackTask (saveCheckpoint id base stageId metadata) task = task.reset) := by
  rw [rollbackTask, ite_self]
  by_cases completed : base.Has .completed task.id
  · exact .inl ⟨completed, if_pos (mem_completedTaskIds_iff.mpr completed)⟩
  · exact .inr ⟨completed, if_neg (mt mem_completedTaskIds_iff.mp completed)⟩

theorem rollbackPlan_restored_iff :
    base.RestoredBy (rollbackPlan later (saveCheckpoint id base stageId metadata)) ↔
      base.KeepsCompleted later := by
  constructor
  · intro restored task member completed other otherMember same
    have present : base.Has .completed other.id := ⟨task, member, same.symm, completed⟩
    rcases rollbackTask_eq base id stageId metadata other with ⟨-, kept⟩ | ⟨absent, -⟩
    · have listed : other ∈
          (rollbackPlan later (saveCheckpoint id base stageId metadata)).subtasks :=
        mem_map.mpr ⟨other, otherMember, kept⟩
      exact restored.completed task member completed other listed same
    · exact absurd present absent
  · intro keeps
    constructor
    · intro task member completed result resultMember same
      rcases mem_map.mp resultMember with ⟨other, otherMember, rfl⟩
      rcases rollbackTask_eq base id stageId metadata other with ⟨-, kept⟩ | ⟨absent, reset⟩
      · rw [kept] at same ⊢
        exact keeps task member completed other otherMember same
      · rw [reset] at same
        exact absurd ⟨task, member, same.symm, completed⟩ absent
    · intro result resultMember completed
      rcases mem_map.mp resultMember with ⟨other, otherMember, rfl⟩
      rcases rollbackTask_eq base id stageId metadata other with ⟨present, kept⟩ | ⟨-, reset⟩
      · rw [kept]
        exact present
      · rw [reset] at completed
        cases completed

theorem recoverTask_eq (base : OrchestrationPlan) (id : CheckpointId) (stageId : Option String)
    (metadata : Option Payload) (task : AgentTask) : (base.Has .completed task.id ∧
        recoverTask (saveCheckpoint id base stageId metadata) task =
          task.restore (base.lastOutput task.id)) ∨
      (¬ base.Has .completed task.id ∧ base.Has .failed task.id ∧
        recoverTask (saveCheckpoint id base stageId metadata) task = task.reset) ∨
      (¬ base.Has .completed task.id ∧ ¬ base.Has .failed task.id ∧
        recoverTask (saveCheckpoint id base stageId metadata) task = task) := by
  rw [recoverTask, partialOutputs_eq]
  by_cases completed : base.Has .completed task.id
  · exact .inl ⟨completed, if_pos (mem_completedTaskIds_iff.mpr completed)⟩
  · rw [if_neg (mt mem_completedTaskIds_iff.mp completed)]
    by_cases failed : base.Has .failed task.id
    · exact .inr (.inl ⟨completed, failed, if_pos (mem_failedTaskIds_iff.mpr failed)⟩)
    · exact .inr (.inr ⟨completed, failed, if_neg (mt mem_failedTaskIds_iff.mp failed)⟩)

theorem recoverPlan_restored_iff (sameTasks : later.taskIds.Perm base.taskIds) :
    base.RestoredBy (recoverPlan later (some (saveCheckpoint id base stageId metadata))) ↔
      base.OutputsAgree ∧ base.CompletesNoOther later := by
  constructor
  · intro restored
    constructor
    · intro task member completed
      have listed := sameTasks.mem_iff.mpr (mem_map_of_mem (f := AgentTask.id) member)
      rcases mem_map.mp listed with ⟨other, otherMember, same⟩
      have present : base.Has .completed other.id := ⟨task, member, same.symm, completed⟩
      rcases recoverTask_eq base id stageId metadata other with
        ⟨-, restore⟩ | ⟨absent, -⟩ | ⟨absent, -⟩
      · have result := (restored.completed task member completed _
          (mem_map_of_mem otherMember) (by rw [restore]; exact same)).2
        rw [restore, same] at result
        exact result
      · exact absurd present absent
      · exact absurd present absent
    · intro other otherMember completed
      rcases recoverTask_eq base id stageId metadata other with
        ⟨present, -⟩ | ⟨-, failed, -⟩ | ⟨-, -, kept⟩
      · exact .inl present
      · exact .inr failed
      · have listed : other ∈ (recoverPlan later
            (some (saveCheckpoint id base stageId metadata))).subtasks :=
          mem_map.mpr ⟨other, otherMember, kept⟩
        exact .inl (restored.only other listed completed)
  · rintro ⟨outputs, noOther⟩
    constructor
    · intro task member completed result resultMember same
      rcases mem_map.mp resultMember with ⟨other, otherMember, rfl⟩
      have sameId : other.id = task.id := by
        rcases recoverTask_eq base id stageId metadata other with
          ⟨-, eq⟩ | ⟨-, -, eq⟩ | ⟨-, -, eq⟩ <;>
          (rw [eq] at same; exact same)
      have present : base.Has .completed other.id := ⟨task, member, sameId.symm, completed⟩
      rcases recoverTask_eq base id stageId metadata other with
        ⟨-, restore⟩ | ⟨absent, -⟩ | ⟨absent, -⟩
      · rw [restore]
        refine ⟨rfl, ?_⟩
        rw [sameId]
        exact outputs task member completed
      · exact absurd present absent
      · exact absurd present absent
    · intro result resultMember completed
      rcases mem_map.mp resultMember with ⟨other, otherMember, rfl⟩
      rcases recoverTask_eq base id stageId metadata other with ⟨present, restore⟩ | ⟨-, -, reset⟩ |
          ⟨absent, notFailed, kept⟩
      · rw [restore]
        exact present
      · rw [reset] at completed
        cases completed
      · rw [kept] at completed ⊢
        exact (noOther other otherMember completed).resolve_right notFailed

theorem resetFailed_status (task : AgentTask) : (resetFailed task).status ≠ .failed ∧
      ((resetFailed task).status ≠ .cancelled ↔ task.status ≠ .cancelled) := by
  rw [resetFailed]
  by_cases failed : task.status = .failed
  · rw [if_pos failed, failed]
    exact ⟨by simp [AgentTask.reset], by simp [AgentTask.reset]⟩
  · rw [if_neg failed]
    exact ⟨failed, .rfl⟩

theorem recoverPlan_unblocked_iff :
    later.UnblockedBy (recoverPlan later none) ↔ later.NoneCancelledBehindFailure := by
  constructor
  · intro unblocked index task present behind
    have result : (recoverPlan later none).subtasks[index]? = some (resetFailed task) := by
      simp [recoverPlan, present]
    exact (resetFailed_status task).2.mp ((unblocked index _ result).2 behind)
  · intro noneCancelled index result present
    simp only [recoverPlan, getElem?_map, Option.map_eq_some_iff] at present
    rcases present with ⟨task, present, rfl⟩
    exact ⟨(resetFailed_status task).1, fun behind =>
      (resetFailed_status task).2.mpr (noneCancelled index task present behind)⟩

/-- For every plan, every checkpoint of it and every later form of the plan: rollback and
recovery restore what the checkpoint captured, and recovery without a checkpoint unblocks
the plan, exactly under these four conditions. -/
theorem checkpoint_restores_iff (base later : OrchestrationPlan) (id : CheckpointId)
    (stageId : Option String) (metadata : Option Payload)
    (sameTasks : later.taskIds.Perm base.taskIds) :
    (base.RestoredBy (rollbackPlan later (saveCheckpoint id base stageId metadata)) ∧
        base.RestoredBy (recoverPlan later (some (saveCheckpoint id base stageId metadata))) ∧
        later.UnblockedBy (recoverPlan later none)) ↔
      base.KeepsCompleted later ∧ (base.OutputsAgree ∧ base.CompletesNoOther later) ∧
        later.NoneCancelledBehindFailure := by
  rw [rollbackPlan_restored_iff, recoverPlan_restored_iff sameTasks, recoverPlan_unblocked_iff]

/-- A plan with one completed task, and what has become of it later. -/
def capturedPlan : OrchestrationPlan where
  id := "plan"
  goalId := "goal"
  subtasks :=
    [{ id := "collect", status := .completed, outputData := [("rows", "7")] },
      { id := "draft" }, { id := "review" }]

def disturbedPlan : OrchestrationPlan where
  id := "plan"
  goalId := "goal"
  subtasks :=
    [{ id := "collect", status := .failed }, { id := "draft", status := .completed },
      { id := "review", status := .cancelled }]

theorem capturedPlan_restores_iff : (capturedPlan.RestoredBy
        (rollbackPlan disturbedPlan (saveCheckpoint "checkpoint" capturedPlan none none)) ∧
        capturedPlan.RestoredBy (recoverPlan disturbedPlan
          (some (saveCheckpoint "checkpoint" capturedPlan none none))) ∧
        disturbedPlan.UnblockedBy (recoverPlan disturbedPlan none)) ↔
      capturedPlan.KeepsCompleted disturbedPlan ∧
        (capturedPlan.OutputsAgree ∧ capturedPlan.CompletesNoOther disturbedPlan) ∧
        disturbedPlan.NoneCancelledBehindFailure :=
  checkpoint_restores_iff capturedPlan disturbedPlan "checkpoint" none none (by decide)

/-- The rollback leaves the completed task failed, the recovery leaves another task completed,
and without a checkpoint the last task stays cancelled behind the failed one. -/
theorem disturbedPlan_not_restored : ¬ capturedPlan.RestoredBy
        (rollbackPlan disturbedPlan (saveCheckpoint "checkpoint" capturedPlan none none)) ∧
      ¬ capturedPlan.RestoredBy (recoverPlan disturbedPlan
        (some (saveCheckpoint "checkpoint" capturedPlan none none))) ∧
      ¬ disturbedPlan.UnblockedBy (recoverPlan disturbedPlan none) := by
  rw [rollbackPlan_restored_iff, recoverPlan_restored_iff (by decide),
    recoverPlan_unblocked_iff]
  constructor
  · intro keeps
    have kept := keeps { id := "collect", status := .completed, outputData := [("rows", "7")] }
      (by decide) rfl { id := "collect", status := .failed } (by decide) rfl
    exact absurd kept.1 (by decide)
  constructor
  · rintro ⟨-, noOther⟩
    rcases noOther { id := "draft", status := .completed } (by decide) rfl with
      completed | failed
    · exact absurd completed (by simp [OrchestrationPlan.Has, capturedPlan])
    · exact absurd failed (by simp [OrchestrationPlan.Has, capturedPlan])
  · intro noneCancelled
    exact noneCancelled 2 { id := "review", status := .cancelled } rfl
      ⟨0, by decide, { id := "collect", status := .failed }, rfl, rfl⟩ rfl

end

end AgenticOS.Orchestration
