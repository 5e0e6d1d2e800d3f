import Mathlib.Data.Finset.Basic
import AgenticOS.Data.Dict

/-!
# Pipelines and their executions

A pipeline is a list of stages and a list of edges. `create_pipeline` accepts any two
lists: ids may repeat, edges may close cycles or end in ids of no stage.

An execution is an immutable record. The runner and the control operations replace it
by changed copies.
-/

namespace AgenticOS.Pipelines

open List

abbrev StageId := String

structure PipelineStage where
  id : StageId
  /-- How often a failed stage is tried again. -/
  retryCount : ℤ := 0
  deriving DecidableEq

structure PipelineEdge where
  id : String
  fromStage : StageId
  toStage : StageId

structure Pipeline where
  stages : List PipelineStage
  edges : List PipelineEdge

namespace Pipeline

def stageIds (pipeline : Pipeline) : List StageId :=
  pipeline.stages.map PipelineStage.id

def stageMap (pipeline : Pipeline) (id : StageId) : Option PipelineStage :=
  pipeline.stages.reverse.find? fun stage => stage.id = id

def adj (pipeline : Pipeline) (id : StageId) : List StageId :=
  (pipeline.edges.filter fun edge => edge.fromStage = id).map PipelineEdge.toStage

def reverseAdj (pipeline : Pipeline) (id : StageId) : List StageId :=
  (pipeline.edges.filter fun edge => edge.toStage = id).map PipelineEdge.fromStage

def inDegree (pipeline : Pipeline) (id : StageId) : ℤ :=
  pipeline.edges.countP fun edge => edge.toStage = id

variable {pipeline : Pipeline}

section

variable {id : StageId} {stage : PipelineStage} (found : pipeline.stageMap id = some stage)
include found

theorem id_of_stageMap : stage.id = id := by
  have satisfied := find?_some found
  simpa using satisfied

theorem mem_stageIds_of_stageMap : id ∈ pipeline.stageIds := by
  have member : stage ∈ pipeline.stages := by simpa using mem_of_find?_eq_some found
  rw [← id_of_stageMap found]
  exact mem_map_of_mem member

end

theorem mem_reverseAdj_iff {source target : StageId} : source ∈ pipeline.reverseAdj target ↔
      ∃ edge ∈ pipeline.edges, edge.fromStage = source ∧ edge.toStage = target := by
  constructor
  · intro member
    rcases mem_map.mp member with ⟨edge, kept, same⟩
    have parts := mem_filter.mp kept
    exact ⟨edge, parts.1, same, by simpa using parts.2⟩
  · rintro ⟨edge, member, source, target⟩
    exact mem_map.mpr ⟨edge, mem_filter.mpr ⟨member, by simpa using target⟩, source⟩

end Pipeline

inductive PipelineExecutionStatus
  | pending | running | paused | completed | failed | cancelled
  deriving DecidableEq

/-- The status as it appears in messages. -/
def PipelineExecutionStatus.value : PipelineExecutionStatus → String
  | .pending => "pending"
  | .running => "running"
  | .paused => "paused"
  | .completed => "completed"
  | .failed => "failed"
  | .cancelled => "cancelled"

structure PipelineExecution where
  status : PipelineExecutionStatus := .pending
  currentStage : Option StageId := none
  completedStages : Finset StageId := ∅
  failedStages : Finset StageId := ∅
  stageErrors : Dict StageId String := Dict.empty
  stageRetries : Dict StageId Nat := Dict.empty
  error : Option String := none

namespace PipelineExecution

variable (execution : PipelineExecution)

def start : PipelineExecution :=
  { execution with status := .running, error := none }

def pause : PipelineExecution :=
  { execution with status := .paused }

def complete : PipelineExecution :=
  { execution with status := .completed, currentStage := none, error := none }

/-- The whole execution fails; no stage is blamed. -/
def fail (error : String) : PipelineExecution :=
  { execution with status := .failed, error := some error }

def cancel : PipelineExecution :=
  { execution with
    status := .cancelled
    currentStage := none
    error := some "Cancelled by user" }

def setCurrentStage (id : StageId) : PipelineExecution :=
  { execution with currentStage := some id }

def completeStage (id : StageId) : PipelineExecution :=
  { execution with
    completedStages := insert id execution.completedStages
    failedStages := execution.failedStages.erase id }

def failStage (id : StageId) (error : String) : PipelineExecution :=
  { execution with
    currentStage := some id
    failedStages := insert id execution.failedStages
    stageErrors := execution.stageErrors.set id error }

/-- How often a stage has been tried again. -/
def retries (id : StageId) : Nat :=
  (execution.stageRetries.get? id).getD 0

def incrementRetry (id : StageId) : PipelineExecution :=
  { execution with
    currentStage := some id
    stageRetries := execution.stageRetries.set id (execution.retries id + 1) }

end PipelineExecution

def pauseExecution (execution : PipelineExecution) : Except String PipelineExecution :=
  if execution.status ≠ .running then
    .error ("Cannot pause execution in status " ++ execution.status.value)
  else .ok execution.pause

/-- Resume a stored execution; the record that is stored is also the snapshot with which
a new runner starts. -/
def resumeExecution (execution : PipelineExecution) : Except String PipelineExecution :=
  if execution.status ≠ .paused then
    .error ("Cannot resume execution in status " ++ execution.status.value)
  else .ok execution.start

theorem pauseExecution_eq_ok_iff {execution paused : PipelineExecution} :
    pauseExecution execution = .ok paused ↔
      execution.status = .running ∧ paused = execution.pause := by
  unfold pauseExecution
  by_cases running : execution.status = .running
  · simp [running, eq_comm]
  · simp [running]

theorem resumeExecution_eq_ok_iff {execution resumed : PipelineExecution} :
    resumeExecution execution = .ok resumed ↔
      execution.status = .paused ∧ resumed = execution.start := by
  unfold resumeExecution
  by_cases paused : execution.status = .paused
  · simp [paused, eq_comm]
  · simp [paused]

end AgenticOS.Pipelines
