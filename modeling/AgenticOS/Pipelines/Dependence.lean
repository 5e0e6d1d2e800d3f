import AgenticOS.Pipelines.Exclusion
import AgenticOS.Pipelines.Supervision
import AgenticOS.Pipelines.Validation

/-!
# Declared dependencies

A stage carries a list of the stages that it depends on, which a run does not read: its order
comes from the edges. A stage is only taken up when the stages that its edges come from are
completed, and so are, with them, all stages that lead to it. Where the declared dependencies
of each stage lead to it they are met; where one does not, its place in the queue decides.
-/

namespace AgenticOS.Pipelines

open AgenticOS.Transition

variable {κ : Type}

namespace PipelineDefinition

variable (definition : PipelineDefinition κ)

/-- The declared dependencies of every stage lead to it along the edges. -/
def Covered : Prop :=
  ∀ stage ∈ definition.stages, ∀ dep ∈ stage.dependsOn,
    Relation.TransGen (Dependencies.DependsOn definition.toPipeline.reverseAdj) stage.id dep

/-- The declared dependencies of the stages that are started or executed are completed. -/
def Honoured (state : ExecutionPool) : Prop :=
  ∀ runner ∈ state.processes, ∀ stage ∈ definition.stages,
    (runner.starting = some stage.id ∨ runner.inExecution = some stage.id) →
      ∀ dep ∈ stage.dependsOn, dep ∈ runner.execution.completedStages
deriving Decidable

end PipelineDefinition

/-- With a stage, the stages that its edges come from are in the set. -/
def SourceClosed (pipeline : Pipeline) (stages : Finset StageId) : Prop :=
  ∀ id ∈ stages, ∀ source ∈ pipeline.reverseAdj id, source ∈ stages

namespace Runner

structure Grounded (pipeline : Pipeline) (runner : Runner) : Prop where
  closed : SourceClosed pipeline runner.execution.completedStages
  sources : ∀ stage, runner.phase.stage? = some stage →
    ∀ source ∈ pipeline.reverseAdj stage.id, source ∈ runner.execution.completedStages

/-- The store and the runner at the next suspension. -/
def Grounds (pipeline : Pipeline) (result : PipelineExecution × Runner) : Prop :=
  SourceClosed pipeline result.1.completedStages ∧ result.2.Grounded pipeline

variable {pipeline : Pipeline} {store : PipelineExecution} {runner : Runner}

section

variable (stored : SourceClosed pipeline store.completedStages)
include stored

theorem grounds_of_none (closed : SourceClosed pipeline runner.execution.completedStages)
    (idle : runner.phase.stage? = none) : Grounds pipeline (store, runner) := by
  refine ⟨stored, closed, ?_⟩
  intro stage taken
  rw [idle] at taken
  cases taken

theorem Grounded.keeps (grounded : runner.Grounded pipeline) {next : Runner}
    (completed : next.execution.completedStages = runner.execution.completedStages)
    (taken : next.phase.stage? = runner.phase.stage?) : Grounds pipeline (store, next) := by
  refine ⟨stored, ?_, ?_⟩
  · rw [completed]
    exact grounded.closed
  · rw [completed, taken]
    exact grounded.sources

theorem grounds_finalize (closed : SourceClosed pipeline runner.execution.completedStages) :
    Grounds pipeline (runner.finalize store) := by
  rw [finalize]
  split
  · split
    · exact grounds_of_none closed closed rfl
    · exact grounds_of_none closed closed rfl
  · exact grounds_of_none stored closed rfl

theorem grounds_loop (closed : SourceClosed pipeline runner.execution.completedStages)
    (queue : List StageId) : Grounds pipeline (runner.loop pipeline store queue) := by
  induction queue with
  | nil => exact grounds_finalize stored closed
  | cons id rest ih =>
    rw [loop]
    split
    · exact grounds_finalize stored closed
    · split
      · exact ih
      · split
        next => exact grounds_of_none closed closed rfl
        next stage found =>
          split
          · exact grounds_of_none stored closed rfl
          · next met =>
              dsimp only
              split
              · exact grounds_finalize closed closed
              · refine ⟨closed, closed, ?_⟩
                rintro _ ⟨⟩
                rw [Pipeline.id_of_stageMap found]
                exact not_not.mp met

theorem Grounded.proceed (grounded : runner.Grounded pipeline) :
    Grounds pipeline (runner.proceed pipeline store) := by
  have closed := grounded.closed
  rw [Runner.proceed]
  cases phase : runner.phase with
  | created => exact grounds_of_none closed closed rfl
  | started =>
    apply grounds_loop stored
    exact closed
  | spinning => exact grounds_loop stored closed _
  | stageStarted stage retryCount => exact grounded.keeps stored rfl (by rw [phase]; rfl)
  | executing stage retryCount =>
    have sources := grounded.sources stage (by rw [phase]; rfl)
    have completed : SourceClosed pipeline
        (insert stage.id runner.execution.completedStages) := by
      intro id member source into
      apply Finset.mem_insert_of_mem
      rcases Finset.mem_insert.mp member with rfl | before
      · exact sources source into
      · exact closed id before source into
    refine ⟨completed, completed, ?_⟩
    rintro _ ⟨⟩ source into
    exact Finset.mem_insert_of_mem (sources source into)
  | stageCompleted stage retryCount =>
    apply grounds_loop stored
    rw [expand, foldl_release_execution]
    exact closed
  | stageFailed stage retryCount =>
    dsimp only
    split
    · exact grounded.keeps stored rfl (by rw [phase]; rfl)
    · exact grounds_finalize stored closed
  | retrySleep stage =>
    apply grounds_loop
    · exact closed
    · exact closed
  | finished | crashed | cancelling | done => exact grounds_of_none stored closed rfl

theorem Grounded.next (grounded : runner.Grounded pipeline) (outcome : Outcome) :
    Grounds pipeline (runner.next pipeline outcome store) := by
  have closed := grounded.closed
  cases outcome with
  | ok => exact grounded.proceed stored
  | raised error =>
    change Grounds pipeline (runner.raise store error)
    rw [Runner.raise]
    cases phase : runner.phase with
    | executing stage retryCount | stageCompleted stage retryCount =>
      exact grounded.keeps closed rfl (by rw [phase]; rfl)
    | created | started | spinning | stageStarted | stageFailed | retrySleep | finished =>
      exact grounds_of_none closed closed rfl
    | crashed | cancelling | done => exact grounds_of_none stored closed rfl
  | cancelled =>
    change Grounds pipeline (runner.interrupt store)
    rw [interrupt]
    split
    · exact grounds_of_none stored closed rfl
    · exact grounds_of_none stored closed rfl
    · exact grounds_of_none stored closed rfl
    · exact grounds_of_none stored closed rfl
    · exact grounds_of_none closed closed rfl

end

end Runner

namespace ExecutionPool

def Grounded (pipeline : Pipeline) (state : ExecutionPool) : Prop :=
  SourceClosed pipeline state.store.completedStages ∧
    ∀ runner ∈ state.processes, runner.Grounded pipeline

variable {pipeline : Pipeline} {state : ExecutionPool}

theorem grounded_executePipeline : Grounded pipeline executePipeline := by
  have empty : SourceClosed pipeline ∅ := fun _ impossible => by cases impossible
  refine ⟨empty, ?_⟩
  intro runner member
  rw [List.mem_singleton.mp member]
  exact ⟨empty, fun _ impossible => by cases impossible⟩

theorem Grounded.step (grounded : Grounded pipeline state) (action : Action) :
    Grounded pipeline (step pipeline state action) := by
  cases action with
  | next index outcome =>
    exact Pool.resume_invariant
      (fun (store : PipelineExecution) (runner : Runner)
          (stored : SourceClosed pipeline store.completedStages)
          (own : runner.Grounded pipeline) => own.next stored outcome) index grounded
  | pause =>
    by_cases running : state.store.status = .running
    · rw [step_pause_of_running running]
      exact grounded
    · rw [step_pause_of_not_running running]
      exact grounded
  | resume =>
    by_cases paused : state.store.status = .paused
    · rw [step_resume_of_paused paused]
      have created : (Runner.create state.store.start).Grounded pipeline :=
        ⟨grounded.1, fun _ impossible => by cases impossible⟩
      exact ⟨grounded.1, Pool.spawn_invariant state.store.start grounded.2 created⟩
    · rw [step_resume_of_not_paused paused]
      exact grounded

end ExecutionPool

namespace PipelineDefinition

variable {definition : PipelineDefinition κ}

theorem taken_of_starting {runner : Runner} {id : StageId}
    (started : runner.starting = some id ∨ runner.inExecution = some id) :
    ∃ stage, runner.phase.stage? = some stage ∧ stage.id = id := by
  revert started
  rw [Runner.starting, Runner.inExecution]
  cases runner.phase <;> simp [Phase.stage?]

theorem Covered.honoured (covered : definition.Covered) {state : ExecutionPool}
    (grounded : state.Grounded definition.toPipeline) : definition.Honoured state := by
  intro runner member stage listed started dep declared
  obtain ⟨taken, atStage, same⟩ := taken_of_starting started
  have own := grounded.2 runner member
  have sources := own.sources taken atStage
  rw [same] at sources
  exact Dependencies.of_transGen own.closed sources (covered stage listed dep declared)

/-- In every run of a pipeline whose declared dependencies lead to their stages, no stage is
started or executed before its declared dependencies are completed. -/
theorem honoured_of_covered (covered : definition.Covered) (actions : List ExecutionPool.Action) :
    Always (ExecutionPool.step definition.toPipeline) definition.Honoured
      ExecutionPool.executePipeline actions := by
  intro done earlier
  apply covered.honoured
  clear earlier
  induction done using List.reverseRecOn with
  | nil => exact ExecutionPool.grounded_executePipeline
  | append_singleton done action ih =>
    rw [run_append]
    exact ih.step action

/-- A stage `b` that depends on a stage `a` behind it. -/
def declaring (edges : List (EdgeDefinition Unit)) : PipelineDefinition Unit where
  id := "p"
  name := "p"
  description := ""
  stages := [
    { id := "b", type := .custom, label := "b", config := (), dependsOn := ["a"] },
    { id := "a", type := .custom, label := "a", config := () }]
  edges := edges
  version := 1
  status := .active

/-- The edge from `a` to `b`. -/
def declaredEdge : EdgeDefinition Unit where
  id := "ab"
  fromStage := "a"
  toStage := "b"

theorem declaring_honoured : Always (ExecutionPool.step (declaring [declaredEdge]).toPipeline)
      (declaring [declaredEdge]).Honoured ExecutionPool.executePipeline
      (List.replicate 9 (.next 0 .ok)) := by
  have direct : ∀ stage ∈ (declaring [declaredEdge]).stages, ∀ dep ∈ stage.dependsOn,
      dep ∈ (declaring [declaredEdge]).toPipeline.reverseAdj stage.id := by
    decide
  apply honoured_of_covered
  intro stage listed dep declared
  exact .single (direct stage listed dep declared)

/-- Without an edge the pipeline is valid, and `b` starts first. -/
theorem declaring_not_honoured :
    (validatePipeline (declaring []).toPipeline.stages (declaring []).toPipeline.edges).valid =
      true ∧
    ¬ (declaring []).Honoured (run (ExecutionPool.step (declaring []).toPipeline)
      ExecutionPool.executePipeline [.next 0 .ok, .next 0 .ok]) := by
  decide +kernel

end PipelineDefinition

end AgenticOS.Pipelines
