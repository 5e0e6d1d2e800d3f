import AgenticOS.Pipelines.Traversal

/-!
# A completed execution

A runner that starts with a closed set of completed stages reaches every runnable stage,
so it stores a completed execution only if all stages are completed. A runner that a
`resume` starts with an open set skips the completed stages and never counts down the
edges out of them: the stages behind are left out, and the execution completes without them.
-/

namespace AgenticOS.Pipelines

open AgenticOS.Transition List PipelineExecution

/-- Every stage is completed. -/
def AllCompleted (pipeline : Pipeline) (execution : PipelineExecution) : Prop :=
  ∀ id ∈ pipeline.stageIds, id ∈ execution.completedStages
deriving Decidable

/-- What the store keeps: completed stages admitted an attempt, and the status is
`completed` only if all stages are. -/
structure StoreSound (pipeline : Pipeline) (store : PipelineExecution) : Prop where
  admitted : ∀ id ∈ store.completedStages, pipeline.Admits id
  completed : store.status = .completed → AllCompleted pipeline store

theorem StoreSound.of_ne_completed {pipeline : Pipeline} {store : PipelineExecution}
    (admitted : ∀ id ∈ store.completedStages, pipeline.Admits id)
    (status : store.status ≠ .completed) : StoreSound pipeline store where
  admitted := admitted
  completed := fun completed => absurd completed status

namespace Runner

structure Looping (pipeline : Pipeline) (current : Option StageId) (runner : Runner) :
    Prop where
  running : runner.execution.status = .running
  traversal : ∃ base expanded, Traversal pipeline base expanded current
    runner.execution.completedStages runner.execution.failedStages runner.inDegree
    runner.readyQueue

/-- What a runner keeps, depending on what it awaits. -/
def Progress (pipeline : Pipeline) (runner : Runner) : Prop :=
  match runner.phase with
  | .created => pipeline.Closed runner.execution.completedStages
  | .started =>
    runner.execution.status = .running ∧ pipeline.Closed runner.execution.completedStages
  | .spinning => runner.Looping pipeline none
  | .stageStarted stage _ | .executing stage _ =>
    runner.Looping pipeline (some stage.id) ∧ pipeline.Admits stage.id
  | .stageCompleted stage _ =>
    runner.Looping pipeline (some stage.id) ∧ stage.id ∈ runner.execution.completedStages
  | .stageFailed stage _ | .retrySleep stage =>
    runner.Looping pipeline (some stage.id) ∧ stage.id ∈ runner.execution.failedStages
  | .finished | .crashed | .cancelling | .done => True

structure Sound (pipeline : Pipeline) (runner : Runner) : Prop where
  admitted : ∀ id ∈ runner.execution.completedStages, pipeline.Admits id
  progress : runner.Progress pipeline

def Keeps (pipeline : Pipeline) (result : PipelineExecution × Runner) : Prop :=
  StoreSound pipeline result.1 ∧ result.2.Sound pipeline

variable {pipeline : Pipeline} {store : PipelineExecution} {runner : Runner}

theorem keeps_of_phase (stored : StoreSound pipeline store)
    (admitted : ∀ id ∈ runner.execution.completedStages, pipeline.Admits id) {phase : Phase}
    (progress : Progress pipeline { runner with phase }) :
    Keeps pipeline (store, { runner with phase }) :=
  ⟨stored, admitted, progress⟩

theorem keeps_save {execution : PipelineExecution} {phase : Phase}
    (admitted : ∀ id ∈ execution.completedStages, pipeline.Admits id)
    (status : execution.status ≠ .completed)
    (progress : Progress pipeline { runner with execution, phase }) :
    Keeps pipeline (runner.save execution phase) :=
  ⟨.of_ne_completed admitted status, admitted, progress⟩

section

variable (admitted : ∀ id ∈ runner.execution.completedStages, pipeline.Admits id)
include admitted

theorem keeps_crash (error : String) : Keeps pipeline (runner.crash error) :=
  keeps_save admitted (by simp [fail]) trivial

theorem keeps_cancel : Keeps pipeline runner.cancel :=
  keeps_save admitted (by simp [PipelineExecution.cancel]) trivial

end

/-- Behind the loop: without failed stages all stages have to be completed. -/
theorem keeps_finalize (stored : StoreSound pipeline store)
    (admitted : ∀ id ∈ runner.execution.completedStages, pipeline.Admits id)
    (all : ¬ runner.execution.failedStages.Nonempty → AllCompleted pipeline runner.execution) :
    Keeps pipeline (runner.finalize store) := by
  rw [finalize]
  split
  · split
    · exact keeps_save admitted (by simp [fail]) trivial
    · next none =>
        have completed : StoreSound pipeline runner.execution.complete :=
          ⟨admitted, fun _ => all none⟩
        exact ⟨completed, admitted, trivial⟩
  · exact keeps_of_phase stored admitted trivial

theorem keeps_loop (orderly : pipeline.Orderly) (stored : StoreSound pipeline store)
    (admitted : ∀ id ∈ runner.execution.completedStages, pipeline.Admits id)
    (queue : List StageId)
    (looping : { runner with readyQueue := queue }.Looping pipeline none) :
    Keeps pipeline (runner.loop pipeline store queue) := by
  induction queue with
  | nil =>
    apply keeps_finalize stored
    · exact admitted
    · intro none
      rcases looping.traversal with ⟨base, expanded, traversal⟩
      have empty : runner.execution.failedStages = ∅ := Finset.not_nonempty_iff_eq_empty.mp none
      rw [empty] at traversal
      exact traversal.all_completed orderly admitted
  | cons id rest ih =>
    have running : runner.execution.status = .running := looping.running
    have statusOk : runner.execution.status ≠ .completed := by
      rw [running]
      decide
    rcases looping.traversal with ⟨base, expanded, traversal⟩
    rw [loop, if_neg (not_not.mpr running)]
    split
    · next skipped =>
        exact ih ⟨running, base, expanded, traversal.skip skipped⟩
    · next pending =>
        split
        · apply keeps_crash
          exact admitted
        · next stage found =>
            split
            · -- The stage goes back to the end of the queue.
              have moved : id :: rest ⊆ rest ++ [id] := by
                intro other member
                rcases mem_cons.mp member with rfl | later
                · exact mem_append_right rest mem_cons_self
                · exact mem_append_left [id] later
              have spinning : { runner with
                  readyQueue := rest ++ [id], phase := .spinning }.Looping pipeline none :=
                ⟨running, base, expanded, traversal.requeue moved⟩
              exact ⟨stored, admitted, spinning⟩
            · dsimp only
              split
              · -- The retries are used up.
                apply keeps_finalize
                · exact .of_ne_completed admitted statusOk
                · exact admitted
                · intro none
                  exact absurd ⟨id, Finset.mem_insert_self id _⟩ none
              · next left =>
                  have sameId := Pipeline.id_of_stageMap found
                  have admits : pipeline.Admits stage.id := by
                    rw [sameId]
                    exact ⟨stage, found, by omega⟩
                  have taken := traversal.take pending
                  rw [← sameId] at taken ⊢
                  exact keeps_save admitted statusOk ⟨⟨running, base, expanded, taken⟩, admits⟩

theorem keeps_proceed (orderly : pipeline.Orderly) (stored : StoreSound pipeline store)
    (sound : runner.Sound pipeline) : Keeps pipeline (runner.proceed pipeline store) := by
  have admitted := sound.admitted
  have progress := sound.progress
  rw [Progress] at progress
  rw [proceed]
  cases phase : runner.phase with
  | created =>
    rw [phase] at progress
    exact keeps_save admitted (by simp [start]) ⟨rfl, progress⟩
  | started =>
    rw [phase] at progress
    apply keeps_loop orderly stored
    · exact admitted
    · exact ⟨progress.1, _, _, .enter progress.2⟩
  | spinning =>
    rw [phase] at progress
    exact keeps_loop orderly stored admitted _ ⟨progress.running, progress.traversal⟩
  | stageStarted stage retryCount =>
    rw [phase] at progress
    exact keeps_of_phase stored admitted ⟨⟨progress.1.running, progress.1.traversal⟩, progress.2⟩
  | executing stage retryCount =>
    rw [phase] at progress
    rcases progress with ⟨⟨running, base, expanded, traversal⟩, admits⟩
    have completedAdmit : ∀ id ∈ (runner.execution.completeStage stage.id).completedStages,
        pipeline.Admits id := by
      intro id member
      rcases Finset.mem_insert.mp member with rfl | before
      · exact admits
      · exact admitted id before
    have status : (runner.execution.completeStage stage.id).status ≠ .completed := by
      simp [completeStage, running]
    exact keeps_save completedAdmit status
      ⟨⟨running, base, expanded, traversal.complete⟩, Finset.mem_insert_self _ _⟩
  | stageCompleted stage retryCount =>
    rw [phase] at progress
    rcases progress with ⟨⟨running, base, expanded, traversal⟩, completed⟩
    have unchanged : (runner.expand pipeline stage.id).execution = runner.execution :=
      runner.foldl_release_execution _
    have expandedTraversal := Traversal.expand runner traversal completed
    rw [← unchanged] at admitted running expandedTraversal
    exact keeps_loop orderly stored admitted _ ⟨running, _, _, expandedTraversal⟩
  | stageFailed stage retryCount =>
    rw [phase] at progress
    dsimp only
    split
    · exact keeps_of_phase stored admitted ⟨⟨progress.1.running, progress.1.traversal⟩, progress.2⟩
    · apply keeps_finalize stored admitted
      intro none
      exact absurd ⟨stage.id, progress.2⟩ none
  | retrySleep stage =>
    rw [phase] at progress
    rcases progress with ⟨⟨running, base, expanded, traversal⟩, failed⟩
    have status : (runner.execution.incrementRetry stage.id).status ≠ .completed := by
      simp [incrementRetry, running]
    apply keeps_loop orderly
    · exact .of_ne_completed admitted status
    · exact admitted
    · exact ⟨running, base, expanded, traversal.retry failed⟩
  | finished | crashed | cancelling | done => exact keeps_of_phase stored admitted trivial

theorem keeps_failStage (admitted : ∀ id ∈ runner.execution.completedStages, pipeline.Admits id)
    {stage : PipelineStage} (looping : runner.Looping pipeline (some stage.id))
    (retryCount : Nat) (error : String) :
    Keeps pipeline (runner.failStage stage retryCount error) := by
  rcases looping with ⟨running, base, expanded, traversal⟩
  have status : (runner.execution.failStage stage.id error).status ≠ .completed := by
    simp [PipelineExecution.failStage, running]
  exact keeps_save admitted status
    ⟨⟨running, base, expanded, traversal.fail stage.id⟩, Finset.mem_insert_self _ _⟩

theorem keeps_raise (stored : StoreSound pipeline store) (sound : runner.Sound pipeline)
    (error : String) : Keeps pipeline (runner.raise store error) := by
  have admitted := sound.admitted
  have progress := sound.progress
  rw [Progress] at progress
  rw [raise]
  cases phase : runner.phase with
  | created =>
    rw [phase] at progress
    exact keeps_save admitted (by simp [start]) ⟨rfl, progress⟩
  | executing stage retryCount | stageCompleted stage retryCount =>
    rw [phase] at progress
    exact keeps_failStage admitted progress.1 retryCount error
  | started | spinning | stageStarted | stageFailed | retrySleep | finished =>
    exact keeps_crash admitted error
  | crashed | cancelling | done => exact keeps_of_phase stored admitted trivial

theorem keeps_interrupt (stored : StoreSound pipeline store) (sound : runner.Sound pipeline) :
    Keeps pipeline (runner.interrupt store) := by
  rw [interrupt]
  split
  · exact keeps_of_phase stored sound.admitted trivial
  · exact keeps_of_phase stored sound.admitted trivial
  · exact keeps_of_phase stored sound.admitted trivial
  · exact keeps_of_phase stored sound.admitted trivial
  · exact keeps_cancel sound.admitted

theorem keeps_next (orderly : pipeline.Orderly) (outcome : Outcome)
    (stored : StoreSound pipeline store) (sound : runner.Sound pipeline) :
    Keeps pipeline (runner.next pipeline outcome store) := by
  cases outcome with
  | ok => exact keeps_proceed orderly stored sound
  | raised error => exact keeps_raise stored sound error
  | cancelled => exact keeps_interrupt stored sound

end Runner

namespace ExecutionPool

/-- A resume finds a closed set of completed stages. -/
def ResumesClosed (pipeline : Pipeline) (state : ExecutionPool) (action : Action) : Prop :=
  action = .resume → state.store.status = .paused → pipeline.Closed state.store.completedStages
deriving Decidable

def Sound (pipeline : Pipeline) (state : ExecutionPool) : Prop :=
  StoreSound pipeline state.store ∧ ∀ runner ∈ state.processes, runner.Sound pipeline

variable {pipeline : Pipeline}

theorem sound_executePipeline : Sound pipeline executePipeline := by
  constructor
  · apply StoreSound.of_ne_completed
    · intro id member
      cases member
    · decide
  · intro runner member
    rw [mem_singleton.mp member]
    constructor
    · intro id impossible
      cases impossible
    · intro edge _ impossible
      cases impossible

theorem Sound.step (orderly : pipeline.Orderly) {state : ExecutionPool} {action : Action}
    (sound : Sound pipeline state) (closed : ResumesClosed pipeline state action) :
    Sound pipeline (step pipeline state action) := by
  cases action with
  | next index outcome =>
    exact Pool.resume_invariant
      (fun _ _ stored own => Runner.keeps_next orderly outcome stored own) index sound
  | pause =>
    by_cases running : state.store.status = .running
    · rw [step_pause_of_running running]
      have paused : StoreSound pipeline state.store.pause :=
        .of_ne_completed sound.1.admitted (by simp [PipelineExecution.pause])
      exact ⟨paused, sound.2⟩
    · rw [step_pause_of_not_running running]
      exact sound
  | resume =>
    by_cases paused : state.store.status = .paused
    · rw [step_resume_of_paused paused]
      have started : StoreSound pipeline state.store.start :=
        .of_ne_completed sound.1.admitted (by simp [start])
      have created : (Runner.create state.store.start).Sound pipeline :=
        ⟨sound.1.admitted, closed rfl paused⟩
      exact ⟨started, Pool.spawn_invariant state.store.start sound.2 created⟩
    · rw [step_resume_of_not_paused paused]
      exact sound

/-- In every run of an execution of an orderly pipeline that is only resumed where no
uncompleted stage lies behind a completed one, the status is `completed` only if all
stages are. -/
theorem allCompleted_of_resumesClosed (pipeline : Pipeline) (orderly : pipeline.Orderly)
    (actions : List Action)
    (along : Along (step pipeline) (ResumesClosed pipeline) executePipeline actions) :
    Always (step pipeline)
      (fun state => state.store.status = .completed → AllCompleted pipeline state.store)
      executePipeline actions := by
  intro done earlier
  have sound : Sound pipeline (run (.step pipeline) executePipeline done) :=
    (along.of_prefix earlier).invariant
      (fun _ _ sound closed => .step orderly sound closed) sound_executePipeline
  exact sound.1.completed

/-! ## Two stages in a row -/

/-- Stage `b` behind stage `a`. -/
def samplePipeline : Pipeline where
  stages := [{ id := "a" }, { id := "b" }]
  edges := [{ id := "ab", fromStage := "a", toStage := "b" }]

theorem orderly_samplePipeline : samplePipeline.Orderly := by
  intro _ id listed
  have first : samplePipeline.Runnable "a" := by
    apply Pipeline.Runnable.intro
    · decide
    · intro source impossible
      exact absurd impossible not_mem_nil
  have second : samplePipeline.Runnable "b" := by
    apply Pipeline.Runnable.intro
    · decide
    · intro source member
      rw [mem_singleton.mp member]
      exact first
  rcases mem_cons.mp listed with rfl | later
  · exact first
  · rw [mem_singleton.mp later]
    exact second

/-- The execution is paused and resumed before the first stage completes; the new runner
takes it to its end. -/
def resumedEarly : List Action :=
  [.next 0 .ok, .next 0 .ok, .pause, .resume] ++ replicate 8 (.next 1 .ok)

theorem resumedEarly_completes :
    (run (step samplePipeline) executePipeline resumedEarly).store.status = .completed ∧
      Always (step samplePipeline) (fun state => state.store.status = .completed →
          AllCompleted samplePipeline state.store) executePipeline resumedEarly := by
  constructor
  · decide +kernel
  · apply allCompleted_of_resumesClosed samplePipeline orderly_samplePipeline
    decide +kernel

/-- The execution is paused and resumed while the first runner publishes that the first
stage is completed. -/
def resumedBetween : List Action :=
  replicate 4 (.next 0 .ok) ++ [.pause, .resume, .next 1 .ok, .next 1 .ok]

/-- The new runner skips the completed stage, finds its queue empty and completes the
execution without the second stage. -/
theorem resumedBetween_completes_without_second :
    (run (step samplePipeline) executePipeline resumedBetween).store.status = .completed ∧
      ¬ AllCompleted samplePipeline
        (run (step samplePipeline) executePipeline resumedBetween).store := by
  decide +kernel

/-- Without any control operation, an execution of a cycle completes with no stage done. -/
example :
    let cycle : Pipeline :=
      { stages := [{ id := "a" }]
        edges := [{ id := "aa", fromStage := "a", toStage := "a" }] }
    let final := run (step cycle) executePipeline [.next 0 .ok, .next 0 .ok]
    final.store.status = .completed ∧ final.store.completedStages = ∅ := by
  decide +kernel

end ExecutionPool

end AgenticOS.Pipelines
