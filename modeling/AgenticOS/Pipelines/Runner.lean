import AgenticOS.Pipelines.Execution
import AgenticOS.Transition.Pool
import AgenticOS.Transition.Run

/-!
# The runner of a pipeline execution

A runner holds a snapshot of the execution and writes every change of it back to the
store. It only sees its own snapshot: what `pause_execution` and `resume_execution` write
to the store in the meantime is overwritten by the next change. A resumed execution
gets a new runner, and the store says nothing about runners that are still going.

A runner is suspended where the source awaits: a publication on the event bus, the
execution of a stage, a sleep. An await ends normally, with an exception, or with the
cancellation of the task. Between two awaits a runner is not interrupted.
-/

namespace AgenticOS.Pipelines

open AgenticOS.Transition

/-- How an `await` ends. -/
inductive Outcome
  | ok
  | raised (error : String)
  | cancelled
  deriving DecidableEq

/-- What a runner awaits. In the stage loop it carries the stage and the retry count that
was read when the stage was taken up. -/
inductive Phase
  /-- The task is created and has not run yet. -/
  | created
  /-- The publication that the execution started. -/
  | started
  /-- The sleep after a stage with open dependencies was put back. -/
  | spinning
  /-- The publication that a stage started. -/
  | stageStarted (stage : PipelineStage) (retryCount : Nat)
  /-- The execution of a stage. -/
  | executing (stage : PipelineStage) (retryCount : Nat)
  /-- The publication that a stage completed. -/
  | stageCompleted (stage : PipelineStage) (retryCount : Nat)
  /-- The publication that a stage failed. -/
  | stageFailed (stage : PipelineStage) (retryCount : Nat)
  /-- The sleep before a failed stage is tried again. -/
  | retrySleep (stage : PipelineStage)
  /-- The publication of the result. -/
  | finished
  /-- The publication of the failure, in the handler of exceptions. -/
  | crashed
  /-- The publication of the cancellation, in its handler. -/
  | cancelling
  /-- Nothing; the task is over. -/
  | done
  deriving DecidableEq

/-- The local state of `_run_execution`. -/
structure Runner where
  execution : PipelineExecution
  inDegree : StageId → ℤ
  readyQueue : List StageId
  phase : Phase

/-- The state of one execution: the stored record and its runners. -/
abbrev ExecutionPool := Pool PipelineExecution Runner

namespace Runner

variable (pipeline : Pipeline)

/-- A new runner for a snapshot. -/
def create (execution : PipelineExecution) : Runner where
  execution := execution
  inDegree := fun _ => 0
  readyQueue := []
  phase := .created

/-- Replace the snapshot, write it to the store and await something. -/
def save (runner : Runner) (execution : PipelineExecution) (phase : Phase) :
    PipelineExecution × Runner :=
  (execution, { runner with execution, phase })

/-- The handler of exceptions. -/
def crash (runner : Runner) (error : String) : PipelineExecution × Runner :=
  runner.save (runner.execution.fail ("Execution crashed: " ++ error)) .crashed

/-- The handler of cancellations. -/
def cancel (runner : Runner) : PipelineExecution × Runner :=
  runner.save runner.execution.cancel .cancelling

variable (store : PipelineExecution)

variable (runner : Runner)

/-- Behind the stage loop. -/
def finalize : PipelineExecution × Runner :=
  if runner.execution.status = .running then
    if runner.execution.failedStages.Nonempty then
      runner.save (runner.execution.fail "Pipeline failed due to stage failures") .finished
    else runner.save runner.execution.complete .finished
  else (store, { runner with phase := .done })

def loop (store : PipelineExecution) (runner : Runner) :
    List StageId → PipelineExecution × Runner
  | [] => finalize store { runner with readyQueue := [] }
  | id :: rest =>
    if runner.execution.status ≠ .running then
      finalize store { runner with readyQueue := id :: rest }
    else if id ∈ runner.execution.completedStages then runner.loop store rest
    else
      let taken := { runner with readyQueue := rest }
      match pipeline.stageMap id with
      | none => taken.crash ("'" ++ id ++ "'")
      | some stage =>
        if ¬ ∀ dep ∈ pipeline.reverseAdj id, dep ∈ runner.execution.completedStages then
          (store, { runner with readyQueue := rest ++ [id], phase := .spinning })
        else
          let retryCount := runner.execution.retries id
          if stage.retryCount < retryCount then
            let failed := runner.execution.failStage id
              ("Max retries (" ++ toString stage.retryCount ++ ") exceeded")
            finalize failed { taken with execution := failed }
          else
            taken.save (runner.execution.setCurrentStage id) (.stageStarted stage retryCount)

/-- The beginning of the task, up to the publication that the execution started. -/
def begin : PipelineExecution × Runner :=
  runner.save runner.execution.start .started

def enter : PipelineExecution × Runner :=
  { runner with inDegree := pipeline.inDegree }.loop pipeline store
    (pipeline.stageIds.filter fun id => pipeline.inDegree id = 0)

/-- Count an edge into `target` as done; append a target without further open edges to
the ready queue. -/
def release (target : StageId) : Runner :=
  let inDegree := Function.update runner.inDegree target (runner.inDegree target - 1)
  { runner with
    inDegree
    readyQueue :=
      if inDegree target ≤ 0 ∧ target ∉ runner.execution.completedStages ∧
          target ∉ runner.readyQueue then
        runner.readyQueue ++ [target]
      else runner.readyQueue }

/-- Add the stages downstream of a completed one. -/
def expand (id : StageId) : Runner :=
  (pipeline.adj id).foldl release runner

/-- A stage fails, by an exception of its execution or of the publication behind it. -/
def failStage (stage : PipelineStage) (retryCount : Nat) (error : String) :
    PipelineExecution × Runner :=
  runner.save (runner.execution.failStage stage.id error) (.stageFailed stage retryCount)

/-- Continue a runner whose `await` ended normally. -/
def proceed : PipelineExecution × Runner :=
  match runner.phase with
  | .created => runner.begin
  | .started => runner.enter pipeline store
  | .spinning => runner.loop pipeline store runner.readyQueue
  | .stageStarted stage retryCount => (store, { runner with phase := .executing stage retryCount })
  | .executing stage retryCount =>
    runner.save (runner.execution.completeStage stage.id) (.stageCompleted stage retryCount)
  | .stageCompleted stage _ =>
    let expanded := runner.expand pipeline stage.id
    expanded.loop pipeline store expanded.readyQueue
  | .stageFailed stage retryCount =>
    if retryCount < stage.retryCount then
      (store, { runner with phase := .retrySleep stage })
    else finalize store runner
  | .retrySleep stage =>
    let retried := runner.execution.incrementRetry stage.id
    { runner with execution := retried }.loop pipeline retried (stage.id :: runner.readyQueue)
  | .finished | .crashed | .cancelling | .done => (store, { runner with phase := .done })

/-- Continue a runner whose `await` raised an exception. Inside the `try` of a stage the
stage fails, in the handlers the task is over, elsewhere the execution crashes. A task
that has not run yet starts: nothing was awaited that could raise. -/
def raise (error : String) : PipelineExecution × Runner :=
  match runner.phase with
  | .created => runner.begin
  | .executing stage retryCount | .stageCompleted stage retryCount =>
    runner.failStage stage retryCount error
  | .started | .spinning | .stageStarted _ _ | .stageFailed _ _ | .retrySleep _ | .finished =>
    runner.crash error
  | .crashed | .cancelling | .done => (store, { runner with phase := .done })

/-- Continue a runner whose task was cancelled. A task that has not run yet is over
before its first statement. -/
def interrupt : PipelineExecution × Runner :=
  match runner.phase with
  | .created | .crashed | .cancelling | .done => (store, { runner with phase := .done })
  | _ => runner.cancel

def next (outcome : Outcome) (store : PipelineExecution) (runner : Runner) :
    PipelineExecution × Runner :=
  match outcome with
  | .ok => runner.proceed pipeline store
  | .raised error => runner.raise store error
  | .cancelled => runner.interrupt store

end Runner

namespace ExecutionPool

def executePipeline : ExecutionPool where
  store := {}
  processes := [Runner.create {}]

/-- Actions on one execution: a runner continues, or a control operation is called. -/
inductive Action
  | next (index : Nat) (outcome : Outcome)
  | pause
  | resume
  deriving DecidableEq

/-- Perform one action. A refused control operation changes nothing. -/
def step (pipeline : Pipeline) (state : ExecutionPool) : Action → ExecutionPool
  | .next index outcome => state.resume (Runner.next pipeline outcome) index
  | .pause =>
    match pauseExecution state.store with
    | .error _ => state
    | .ok execution => { state with store := execution }
  | .resume =>
    match resumeExecution state.store with
    | .error _ => state
    | .ok execution => state.spawn execution (Runner.create execution)

variable {pipeline : Pipeline} {state : ExecutionPool}

theorem step_pause_of_running (running : state.store.status = .running) :
    step pipeline state .pause = { state with store := state.store.pause } := by
  have accepted : pauseExecution state.store = .ok state.store.pause :=
    pauseExecution_eq_ok_iff.mpr ⟨running, rfl⟩
  unfold step
  rw [accepted]

theorem step_pause_of_not_running (refused : state.store.status ≠ .running) :
    step pipeline state .pause = state := by
  unfold step pauseExecution
  rw [if_pos refused]

theorem step_resume_of_paused (paused : state.store.status = .paused) :
    step pipeline state .resume =
      state.spawn state.store.start (Runner.create state.store.start) := by
  have accepted : resumeExecution state.store = .ok state.store.start :=
    resumeExecution_eq_ok_iff.mpr ⟨paused, rfl⟩
  unfold step
  rw [accepted]

theorem step_resume_of_not_paused (refused : state.store.status ≠ .paused) :
    step pipeline state .resume = state := by
  unfold step resumeExecution
  rw [if_pos refused]

end ExecutionPool

end AgenticOS.Pipelines
