import AgenticOS.Pipelines.Definition
import AgenticOS.Pipelines.Runner
import AgenticOS.Transition.Supervision.Cancelling
import AgenticOS.Transition.Supervision.Pinning

/-!
# The supervised runners of pipelines

The table of tasks names the runner that was created last. The runners of one execution are
supervised workers: `cancel_execution` awaits the one in the table, and `resume_execution`
creates one for the definition that is current then.
-/

namespace AgenticOS.Pipelines

open AgenticOS.Transition AgenticOS.Transition.Supervised Outcome

variable {κ : Type}

def Phase.standing : Phase → Standing
  | .created => .created
  | .started | .spinning | .stageStarted _ _ | .executing _ _ | .stageCompleted _ _
  | .stageFailed _ _ | .retrySleep _ => .working
  | .finished => .closing
  | .crashed | .cancelling => .handling
  | .done => .ended

/-- The stage that the runner has taken up. -/
def Phase.stage? : Phase → Option PipelineStage
  | .stageStarted stage _ | .executing stage _ | .stageCompleted stage _ | .stageFailed stage _
  | .retrySleep stage => some stage
  | .created | .started | .spinning | .finished | .crashed | .cancelling | .done => none

/-- How an await ends that is not cancelled. -/
def Outcome.of : Option String → Outcome
  | none => .ok
  | some error => .raised error

/-- The operations that replace the record. -/
inductive Control where
  | pause
  | resume
  deriving DecidableEq

def Control.perform : Control → PipelineExecution → Except String PipelineExecution
  | .pause => pauseExecution
  | .resume => resumeExecution

def changeDefinition (change : Option (PipelineUpdate κ)) (execution : PipelineExecution)
    (definition : PipelineDefinition κ) : Option (PipelineDefinition κ) :=
  match change with
  | some data => some (definition.update data)
  | none => if execution.status = .running then some definition else none

/-- What can be done about one execution. -/
abbrev ExecutionAction (κ : Type) := Action Control (Option (PipelineUpdate κ))

def pipelineEngine (κ : Type) :
    Engine PipelineExecution Runner (PipelineDefinition κ) Control (Option (PipelineUpdate κ)) where
  standing runner := runner.phase.standing
  create := Runner.create
  proceed definition error store runner :=
    runner.next definition.toPipeline (of error) store
  interrupt store runner := runner.interrupt store
  cancellable execution := execution.status = .running ∨ execution.status = .paused
  cancel := PipelineExecution.cancel
  control operation execution := (operation.perform execution).toOption
  starts operation := operation = .resume
  redefine := changeDefinition

theorem next_of_handling {pipeline : Pipeline} {runner : Runner}
    (handling : runner.phase.standing = .handling) (error : Option String)
    (store : PipelineExecution) :
    runner.next pipeline (of error) store = (store, { runner with phase := .done }) := by
  cases phase : runner.phase with
  | crashed | cancelling =>
    cases error with
    | none => simp only [of, Runner.next, Runner.proceed, phase]
    | some error => simp only [of, Runner.next, Runner.raise, phase]
  | created | started | spinning | stageStarted | executing | stageCompleted | stageFailed
  | retrySleep | finished | done =>
    rw [phase] at handling
    cases handling

theorem interrupt_of_retired {runner : Runner}
    (retired : runner.phase.standing = .handling ∨ runner.phase.standing = .created)
    (store : PipelineExecution) :
    runner.interrupt store = (store, { runner with phase := .done }) := by
  rw [Runner.interrupt]
  cases phase : runner.phase with
  | created | crashed | cancelling | done => rfl
  | started | spinning | stageStarted | executing | stageCompleted | stageFailed
  | retrySleep | finished =>
    rw [phase] at retired
    rcases retired with impossible | impossible
    · cases impossible
    · cases impossible

theorem pipeline_cancelling (κ : Type) :
    Cancelling (pipelineEngine κ) (fun execution => execution.status = .cancelled)
      PipelineExecution.completedStages where
  cancelled_cancel _ := rfl
  done_cancel _ := rfl
  cancellable store cancelled := by simp [pipelineEngine, cancelled]
  control operation store cancelled := by
    cases operation with
    | pause => simp [pipelineEngine, Control.perform, pauseExecution, cancelled, Except.toOption]
    | resume => simp [pipelineEngine, Control.perform, resumeExecution, cancelled, Except.toOption]
  proceed definition error store worker handling := by
    simp only [pipelineEngine, next_of_handling handling]
    exact ⟨trivial, rfl⟩
  interrupt store worker retired := by
    simp only [pipelineEngine, interrupt_of_retired retired]
    exact ⟨trivial, rfl⟩

def Follows (pipeline : Pipeline) (runner : Runner) : Prop :=
  ∀ stage, runner.phase.stage? = some stage → stage ∈ pipeline.stages

section

variable {pipeline : Pipeline} {runner : Runner}

theorem follows_of_none (idle : runner.phase.stage? = none) : Follows pipeline runner := by
  intro stage atStage
  rw [idle] at atStage
  cases atStage

variable (store : PipelineExecution)

theorem follows_finalize : Follows pipeline (runner.finalize store).2 := by
  apply follows_of_none
  rw [Runner.finalize]
  split
  · split
    · rfl
    · rfl
  · rfl

theorem mem_stages_of_stageMap {id : StageId} {stage : PipelineStage}
    (found : pipeline.stageMap id = some stage) : stage ∈ pipeline.stages :=
  List.mem_reverse.mp (List.mem_of_find?_eq_some found)

theorem follows_loop (queue : List StageId) :
    Follows pipeline (runner.loop pipeline store queue).2 := by
  induction queue with
  | nil => exact follows_finalize store
  | cons id rest ih =>
    rw [Runner.loop]
    split
    · exact follows_finalize store
    · split
      · exact ih
      · split
        next => exact follows_of_none rfl
        next stage found =>
          split
          · exact follows_of_none rfl
          · dsimp only
            split
            · exact follows_finalize _
            · intro other taken
              cases taken
              exact mem_stages_of_stageMap found

theorem follows_interrupt : Follows pipeline (runner.interrupt store).2 := by
  apply follows_of_none
  rw [Runner.interrupt]
  split
  · rfl
  · rfl
  · rfl
  · rfl
  · rfl

/-- A runner that has taken up a stage keeps it until it enters the loop again. -/
theorem Follows.next (follows : Follows pipeline runner) (error : Option String)
    (store : PipelineExecution) :
    Follows pipeline (runner.next pipeline (of error) store).2 := by
  cases error with
  | none =>
    simp only [of, Runner.next]
    rw [Runner.proceed]
    cases phase : runner.phase with
    | created | finished | crashed | cancelling | done => exact follows_of_none rfl
    | stageStarted stage retryCount | executing stage retryCount =>
      intro other taken
      cases taken
      exact follows stage (by rw [phase]; rfl)
    | stageFailed stage retryCount =>
      dsimp only
      split
      · intro other taken
        cases taken
        exact follows stage (by rw [phase]; rfl)
      · exact follows_finalize store
    | retrySleep stage => exact follows_loop _ _
    | _ => exact follows_loop store _
  | some error =>
    simp only [of, Runner.next]
    rw [Runner.raise]
    cases phase : runner.phase with
    | executing stage retryCount | stageCompleted stage retryCount =>
      intro other taken
      cases taken
      exact follows stage (by rw [phase]; rfl)
    | created | started | spinning | stageStarted | stageFailed | retrySleep | finished
    | crashed | cancelling | done => exact follows_of_none rfl

end

def pipelineVersioning (κ : Type) : Versioning (PipelineDefinition κ) Runner PipelineStage Nat where
  version := PipelineDefinition.version
  nodes definition := definition.toPipeline.stages
  executing runner := runner.phase.stage?

theorem update_revises (definition : PipelineDefinition κ) (data : PipelineUpdate κ) :
    (definition.update data).version = definition.version ∧
        (definition.update data).toPipeline.stages = definition.toPipeline.stages ∨
      definition.version < (definition.update data).version := by
  rw [PipelineDefinition.update]
  split
  · exact .inr (Nat.lt_succ_self definition.version)
  · exact .inl ⟨rfl, rfl⟩

theorem pipeline_pinning (κ : Type) : Pinning (pipelineEngine κ) (pipelineVersioning κ)
      (fun definition runner => Follows definition.toPipeline runner) where
  create _ _ := follows_of_none rfl
  proceed _ error store _ follows := follows.next error store
  interrupt _ store _ _ := follows_interrupt store
  executes _ _ stage follows taken := follows stage taken
  redefine change store before after redefined := by
    simp only [pipelineEngine, changeDefinition] at redefined
    split at redefined
    next data =>
      cases redefined
      exact update_revises before data
    next =>
      split at redefined
      · cases redefined
        exact .inl ⟨rfl, rfl⟩
      · cases redefined

end AgenticOS.Pipelines
