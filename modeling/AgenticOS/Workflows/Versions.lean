import AgenticOS.Pipelines.Definition
import AgenticOS.Workflows.Definition

/-!
# What the definition stores keep

Both engines compare only the ids of what an update supplies, and neither writes its table of
versions. A definition is therefore kept as asked exactly as long as every update supplies
the stages and edges, or the nodes and edges, that it finds.
-/

namespace AgenticOS.Workflows

open Transition Versions Pipelines Audit

/-- For both engines, behind any run of the store and for any definition in it: through all
later updates the current stages and edges are those supplied last, and every version that was
ever current can be had as it was, exactly if every update of the definition supplies what it
finds. -/
theorem definitions_kept_iff (κ : Type) :
    (∀ (earlier : List (Shelf.Action String (PipelineDefinition κ) (PipelineUpdate κ)))
        (updates : List (String × PipelineUpdate κ)) (pipelineId : String)
        (pipeline : PipelineDefinition κ),
      (run (Shelf.step (pipelineKind κ)) .empty earlier).current.get? pipelineId =
          some pipeline →
        (Always (Audit.step (pipelineKind κ) pipelineId) (Audit.Kept (pipelineKind κ) pipelineId)
            (begin (pipelineKind κ) (run (Shelf.step (pipelineKind κ)) .empty earlier)
              pipeline) updates ↔
          Along (Audit.step (pipelineKind κ) pipelineId) (Audit.Repeats (pipelineKind κ) pipelineId)
            (begin (pipelineKind κ) (run (Shelf.step (pipelineKind κ)) .empty earlier)
              pipeline) updates)) ∧
      ∀ (earlier : List (Shelf.Action String (WorkflowDefinition κ) (WorkflowUpdate κ)))
          (updates : List (String × WorkflowUpdate κ)) (workflowId : String)
          (workflow : WorkflowDefinition κ),
        (run (Shelf.step (workflowKind κ)) .empty earlier).current.get? workflowId =
            some workflow →
          (Always (Audit.step (workflowKind κ) workflowId) (Audit.Kept (workflowKind κ) workflowId)
              (begin (workflowKind κ) (run (Shelf.step (workflowKind κ)) .empty earlier)
                workflow) updates ↔
            Along (Audit.step (workflowKind κ) workflowId)
              (Audit.Repeats (workflowKind κ) workflowId)
              (begin (workflowKind κ) (run (Shelf.step (workflowKind κ)) .empty earlier)
                workflow) updates) :=
  ⟨fun earlier updates _ _ current => always_kept_iff earlier updates current,
    fun earlier updates _ _ current => always_kept_iff earlier updates current⟩


/-- A stage with a configuration, and a pipeline of it. -/
def sampleStage (config : String) : StageDefinition String where
  id := "fetch"
  type := .tool
  label := "Fetch"
  config := config

def samplePipeline : PipelineDefinition String where
  id := "pipeline"
  name := "Pipeline"
  description := ""
  stages := [sampleStage "url=old"]
  edges := []
  version := 1
  status := .draft

def sampleWorkflow : WorkflowDefinition String where
  id := "workflow"
  name := "Workflow"
  description := ""
  nodes := [{ id := "ask", type := .llm, label := "Ask", config := "", position := "" }]
  edges := []
  version := 1
  status := .draft

theorem samples_kept_iff :
    (Always (Audit.step (pipelineKind String) "pipeline")
        (Audit.Kept (pipelineKind String) "pipeline")
        (begin (pipelineKind String)
          (run (Shelf.step (pipelineKind String)) .empty [.create "pipeline" samplePipeline])
          samplePipeline)
        [("pipeline", { stages := some [sampleStage "url=new"] })] ↔
      Along (Audit.step (pipelineKind String) "pipeline")
        (Audit.Repeats (pipelineKind String) "pipeline")
        (begin (pipelineKind String)
          (run (Shelf.step (pipelineKind String)) .empty [.create "pipeline" samplePipeline])
          samplePipeline)
        [("pipeline", { stages := some [sampleStage "url=new"] })]) ∧
      (Always (Audit.step (workflowKind String) "workflow")
          (Audit.Kept (workflowKind String) "workflow")
          (begin (workflowKind String)
            (run (Shelf.step (workflowKind String)) .empty [.create "workflow" sampleWorkflow])
            sampleWorkflow)
          [("workflow", { nodes := some [] })] ↔
        Along (Audit.step (workflowKind String) "workflow")
          (Audit.Repeats (workflowKind String) "workflow")
          (begin (workflowKind String)
            (run (Shelf.step (workflowKind String)) .empty [.create "workflow" sampleWorkflow])
            sampleWorkflow)
          [("workflow", { nodes := some [] })]) :=
  ⟨(definitions_kept_iff String).1 _ _ _ _ rfl, (definitions_kept_iff String).2 _ _ _ _ rfl⟩

/-- The new configuration of a stage is dropped, and with an added stage the first version
cannot be had any more. -/
theorem samplePipeline_not_kept :
    (∃ store pipeline,
      PipelineStore.updatePipeline
          (run (Shelf.step (pipelineKind String)) .empty [.create "pipeline" samplePipeline])
          "pipeline" { stages := some [sampleStage "url=new"] } = .ok (store, pipeline) ∧
        pipeline.stages = [sampleStage "url=old"] ∧ pipeline.version = 1) ∧
      ∃ store pipeline,
        PipelineStore.updatePipeline
            (run (Shelf.step (pipelineKind String)) .empty [.create "pipeline" samplePipeline])
            "pipeline"
            { stages := some [sampleStage "url=old", { sampleStage "" with id := "store" }] } =
              .ok (store, pipeline) ∧
          pipeline.version = 2 ∧ (store.getPipelineVersion "pipeline" 1).isNone :=
  ⟨⟨_, _, rfl, rfl, rfl⟩, ⟨_, _, rfl, rfl, rfl⟩⟩

end AgenticOS.Workflows
