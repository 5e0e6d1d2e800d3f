import AgenticOS.Pipelines.Supervision
import AgenticOS.Pipelines.Traversal
import AgenticOS.Transition.Supervision.Failing

/-!
# Pipeline executions that are worked on

A pipeline execution that runs or is paused has a runner at work: pausing does not stop the
runner, and a runner stops only with a result.
-/

namespace AgenticOS.Pipelines

open AgenticOS.Transition AgenticOS.Transition.Supervised Runner Phase

variable {κ : Type} {pipeline : Pipeline} {runner : Runner} {store : PipelineExecution}

/-- The statuses in which an execution can be cancelled. -/
def Live (execution : PipelineExecution) : Prop :=
  execution.status = .running ∨ execution.status = .paused

def Sane (runner : Runner) : Prop :=
  runner.phase.standing = .working → runner.execution.status = .running

/-- A runner goes on with a snapshot that runs, or stops working and leaves a record that is
not live, or was not at work and leaves the record alone. -/
def Mans (store : PipelineExecution) (runner : Runner) (result : PipelineExecution × Runner) :
    Prop :=
  result.2.phase.standing = .working ∧ result.2.execution.status = .running ∨
    result.2.phase.standing ≠ .working ∧
      (¬ Live result.1 ∨
        result.1 = store ∧ runner.phase.standing ≠ .created ∧ runner.phase.standing ≠ .working)

variable {result : PipelineExecution × Runner}

theorem Mans.sane (mans : Mans store runner result) : Sane result.2 := by
  intro working
  rcases mans with ⟨-, runs⟩ | ⟨stopped, -⟩
  · exact runs
  · exact absurd working stopped

theorem mans_of_stopped (stopped : result.2.phase.standing ≠ .working) (written : ¬ Live result.1) :
    Mans store runner result :=
  .inr ⟨stopped, .inl written⟩

variable {other : Runner}

theorem mans_of_idle (notCreated : runner.phase.standing ≠ .created)
    (idle : runner.phase.standing ≠ .working) :
    Mans store runner (store, { other with phase := .done }) :=
  .inr ⟨by simp [standing], .inr ⟨rfl, notCreated, idle⟩⟩

theorem mans_crash (error : String) : Mans store runner (other.crash error) := by
  apply mans_of_stopped
  · simp [crash, save, standing]
  · simp [crash, save, Live, PipelineExecution.fail]

theorem mans_cancel : Mans store runner runner.cancel := by
  apply mans_of_stopped
  · simp [Runner.cancel, save, standing]
  · simp [Runner.cancel, save, Live, PipelineExecution.cancel]

/-- Behind the loop a running snapshot gives way to a result. -/
theorem mans_finalize {written : PipelineExecution} (runs : other.execution.status = .running) :
    Mans store runner (other.finalize written) := by
  rw [finalize, if_pos runs]
  split
  · apply mans_of_stopped
    · simp [save, standing]
    · simp [save, Live, PipelineExecution.fail]
  · apply mans_of_stopped
    · simp [save, standing]
    · simp [save, Live, PipelineExecution.complete]

theorem mans_loop {written : PipelineExecution} (runs : other.execution.status = .running)
    (queue : List StageId) : Mans store runner (other.loop pipeline written queue) := by
  induction queue with
  | nil => exact mans_finalize runs
  | cons id rest ih =>
    rw [loop, if_neg (not_not.mpr runs)]
    split
    · exact ih
    · split
      next => exact mans_crash _
      next stage found =>
        split
        · exact .inl ⟨rfl, runs⟩
        · dsimp only
          split
          · apply mans_finalize
            exact runs
          · exact .inl ⟨rfl, runs⟩

theorem mans_proceed (sane : Sane runner) : Mans store runner (runner.proceed pipeline store) := by
  rw [Runner.proceed]
  cases phase : runner.phase with
  | created => exact .inl ⟨rfl, rfl⟩
  | started | retrySleep =>
    have runs : runner.execution.status = .running := sane (by rw [phase]; rfl)
    apply mans_loop
    exact runs
  | spinning =>
    have runs : runner.execution.status = .running := sane (by rw [phase]; rfl)
    exact mans_loop runs runner.readyQueue
  | stageStarted stage retryCount | executing stage retryCount =>
    have runs : runner.execution.status = .running := sane (by rw [phase]; rfl)
    exact .inl ⟨rfl, runs⟩
  | stageCompleted stage retryCount =>
    have runs : runner.execution.status = .running := sane (by rw [phase]; rfl)
    have unchanged : (runner.expand pipeline stage.id).execution = runner.execution :=
      runner.foldl_release_execution _
    apply mans_loop
    rw [unchanged]
    exact runs
  | stageFailed stage retryCount =>
    have runs : runner.execution.status = .running := sane (by rw [phase]; rfl)
    dsimp only
    split
    · exact .inl ⟨rfl, runs⟩
    · exact mans_finalize runs
  | finished | crashed | cancelling | done =>
    apply mans_of_idle
    · simp [phase, standing]
    · simp [phase, standing]

theorem mans_raise (sane : Sane runner) (error : String) :
    Mans store runner (runner.raise store error) := by
  rw [raise]
  cases phase : runner.phase with
  | created => exact .inl ⟨rfl, rfl⟩
  | executing stage retryCount | stageCompleted stage retryCount =>
    have runs : runner.execution.status = .running := sane (by rw [phase]; rfl)
    exact .inl ⟨rfl, runs⟩
  | started | spinning | stageStarted | stageFailed | retrySleep | finished =>
    exact mans_crash error
  | crashed | cancelling | done =>
    apply mans_of_idle
    · simp [phase, standing]
    · simp [phase, standing]

theorem mans_next (sane : Sane runner) (error : Option String) :
    Mans store runner (runner.next pipeline (Outcome.of error) store) := by
  cases error with
  | none => exact mans_proceed sane
  | some error => exact mans_raise sane error

theorem interrupt_cases (store : PipelineExecution) (runner : Runner) :
    runner.interrupt store = runner.cancel ∨
      runner.interrupt store = (store, { runner with phase := .done }) ∧
        runner.phase.standing ≠ .working ∧ runner.phase.standing ≠ .closing := by
  rw [Runner.interrupt]
  cases runner.phase with
  | created | crashed | cancelling | done => simp [standing]
  | started | spinning | stageStarted | executing | stageCompleted | stageFailed
  | retrySleep | finished => exact .inl rfl

theorem pipeline_manning (κ : Type) : Manning (pipelineEngine κ) Live Sane where
  sane_create _ working := by cases working
  sane_proceed _ error _ _ sane := (mans_next sane error).sane
  sane_interrupt store worker _ := by
    rcases interrupt_cases store worker with cancelled | ⟨ended, -⟩
    · simp only [pipelineEngine, cancelled]
      have mans : Mans store worker worker.cancel := mans_cancel
      exact mans.sane
    · simp only [pipelineEngine, ended]
      intro working
      cases working
  created _ := rfl
  proceed definition error store worker sane := by
    have mans : Mans store worker
        (worker.next definition.toPipeline (Outcome.of error) store) := mans_next sane error
    rcases mans with ⟨working, -⟩ | ⟨-, stopped⟩
    · exact .inl working
    · exact .inr stopped
  interrupt store worker _ := by
    rcases interrupt_cases store worker with cancelled | ⟨ended, idle, -⟩
    · left
      simp only [pipelineEngine, cancelled]
      simp [Live, Runner.cancel, save, PipelineExecution.cancel]
    · right
      simp only [pipelineEngine, ended]
      exact ⟨trivial, idle⟩
  cancel _ := by simp [pipelineEngine, Live, PipelineExecution.cancel]

theorem live_of_control (operation : Control) (before after : PipelineExecution)
    (accepted : (pipelineEngine κ).control operation before = some after) : Live before := by
  cases operation with
  | pause =>
    left
    by_contra refused
    simp [pipelineEngine, Control.perform, pauseExecution, refused, Except.toOption] at accepted
  | resume =>
    right
    by_contra refused
    simp [pipelineEngine, Control.perform, resumeExecution, refused, Except.toOption] at accepted

theorem not_cancelled_raise (sane : Sane runner) (working : runner.phase.standing = .working)
    (error : String) : (runner.raise store error).1.status ≠ .cancelled := by
  have runs := sane working
  rw [raise]
  cases phase : runner.phase with
  | executing stage retryCount | stageCompleted stage retryCount =>
    simp [failStage, save, PipelineExecution.failStage, runs]
  | started | spinning | stageStarted | stageFailed | retrySleep =>
    simp [crash, save, PipelineExecution.fail]
  | created | finished | crashed | cancelling | done =>
    rw [phase] at working
    cases working

theorem pipeline_obstinate (κ : Type) :
    Obstinate (pipelineEngine κ) (fun execution => execution.status = .cancelled) Sane where
  overwrites _ error _ _ sane working := not_cancelled_raise sane working error
  begun store worker begun := by
    rcases interrupt_cases store worker with cancelled | ⟨-, idle, notClosing⟩
    · simp only [pipelineEngine, cancelled]
      rfl
    · rcases begun with working | closing
      · exact absurd working idle
      · exact absurd closing notClosing
  handled definition error store worker handling := by
    simp only [pipelineEngine, next_of_handling handling]
    rfl
  interrupted store worker retired := by
    simp only [pipelineEngine, interrupt_of_retired retired]
    rfl

end AgenticOS.Pipelines
