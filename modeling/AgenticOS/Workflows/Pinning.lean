import AgenticOS.Pipelines.Supervision
import AgenticOS.Workflows.Supervision

/-!
# Executions and the versions that they record

An execution records the version of its definition. A resumption takes the definition that is
current then, and a replay runs the current one whatever version it was asked for.
-/

namespace AgenticOS.Workflows

open AgenticOS.Transition AgenticOS.Transition.Supervised List
open AgenticOS.Transition.Supervised.Chronicle AgenticOS.Pipelines

variable {κ : Type}

attribute [local instance] versionOrder

/-- How an execution of a workflow is begun. -/
inductive Launch where
  | execute (replayFromNode : Option NodeId)
  | replay (requested : Option ℤ) (fromNode : Option NodeId)

def Launch.record (definition : WorkflowDefinition κ) : Launch → WorkflowExecution
  | .execute replayFromNode => executeWorkflow definition.version replayFromNode
  | .replay requested fromNode => replayWorkflow definition.version requested fromNode

open Revisions

def pipelineRevisions (definition : PipelineDefinition κ) (updates : List (PipelineUpdate κ)) :
    Revisions (PipelineDefinition κ) :=
  run (revise PipelineDefinition.update) (Revisions.first definition) updates

def workflowRevisions (definition : WorkflowDefinition κ) (updates : List (WorkflowUpdate κ)) :
    Revisions (WorkflowDefinition κ) :=
  run (revise WorkflowDefinition.update) (Revisions.first definition) updates

theorem pipelineRevisions_latest (definition : PipelineDefinition κ)
    (updates : List (PipelineUpdate κ)) :
    Latest (pipelineVersioning κ) (pipelineRevisions definition updates).history
        (pipelineRevisions definition updates).current ∧
      Unambiguous (pipelineVersioning κ) (pipelineRevisions definition updates).history :=
  latest_run Pipelines.update_revises definition updates

theorem workflowRevisions_latest (definition : WorkflowDefinition κ)
    (updates : List (WorkflowUpdate κ)) :
    Latest (workflowVersioning κ) (workflowRevisions definition updates).history
        (workflowRevisions definition updates).current ∧
      Unambiguous (workflowVersioning κ) (workflowRevisions definition updates).history :=
  latest_run update_revises definition updates

/-- An execution runs only the stages, or the nodes, of the version that it records, if every
resumption finds this version current and a replay asks for no other one. -/
theorem executions_pinned (κ : Type) :
    (∀ (definition : PipelineDefinition κ) (updates : List (PipelineUpdate κ))
      (actions : List (Pipelines.ExecutionAction κ)), Along (Chronicle.step (pipelineEngine κ))
          (StartsRecorded (pipelineEngine κ) (pipelineVersioning κ)
            (pipelineRevisions definition updates).current.version)
          ((pipelineRevisions definition updates).execute (pipelineEngine κ) {}) actions →
        Always (Chronicle.step (pipelineEngine κ)) (RunsRecorded (pipelineVersioning κ)
            (pipelineRevisions definition updates).current.version)
          ((pipelineRevisions definition updates).execute (pipelineEngine κ) {}) actions) ∧
      ∀ (definition : WorkflowDefinition κ) (updates : List (WorkflowUpdate κ))
        (launch : Launch) (actions : List (ExecutionAction κ)),
        (launch.record (workflowRevisions definition updates).current).workflowVersion =
            (workflowRevisions definition updates).current.version →
          Along (Chronicle.step (workflowEngine κ))
              (StartsRecorded (workflowEngine κ) (workflowVersioning κ)
                (launch.record (workflowRevisions definition updates).current).workflowVersion)
              ((workflowRevisions definition updates).execute (workflowEngine κ)
                (launch.record (workflowRevisions definition updates).current)) actions →
            Always (Chronicle.step (workflowEngine κ)) (RunsRecorded (workflowVersioning κ)
                (launch.record (workflowRevisions definition updates).current).workflowVersion)
              ((workflowRevisions definition updates).execute (workflowEngine κ)
                (launch.record (workflowRevisions definition updates).current)) actions := by
  constructor
  · intro definition updates actions allowed
    rcases pipelineRevisions_latest definition updates with ⟨latest, unambiguous⟩
    exact always_runsRecorded (pipeline_pinning κ) {} latest unambiguous rfl allowed
  · intro definition updates launch actions current allowed
    rcases workflowRevisions_latest definition updates with ⟨latest, unambiguous⟩
    exact always_runsRecorded (workflow_pinning κ) _ latest unambiguous current.symm allowed

def toolStage (id : StageId) : StageDefinition String where
  id := id
  type := .tool
  label := id
  config := ""

def fetchPipeline : PipelineDefinition String where
  id := "pipeline"
  name := "Pipeline"
  description := ""
  stages := [toolStage "fetch"]
  edges := []
  version := 1
  status := .active

def llmNode (id : NodeId) : NodeDefinition String where
  id := id
  type := .llm
  label := id
  config := ""
  position := ""

def draftWorkflow : WorkflowDefinition String where
  id := "workflow"
  name := "Workflow"
  description := ""
  nodes := [llmNode "draft"]
  edges := []
  version := 1
  status := .active

/-- A pipeline is paused and resumed in its version and takes up its stage twice, although the
definition changes behind that, and a workflow is replayed in its own version. -/
theorem samples_pinned : Always (Chronicle.step (pipelineEngine String))
        (RunsRecorded (pipelineVersioning String)
          (pipelineRevisions fetchPipeline []).current.version)
        ((pipelineRevisions fetchPipeline []).execute (pipelineEngine String) {})
        [.next 0 none, .next 0 none, .next 0 none, .control .pause, .control .resume,
          .redefine (some { stages := some [toolStage "store"] }), .next 1 none, .next 1 none,
          .next 1 none] ∧
      Always (Chronicle.step (workflowEngine String)) (RunsRecorded (workflowVersioning String)
          ((Launch.replay (some 1) (some "draft")).record
            (workflowRevisions draftWorkflow []).current).workflowVersion)
        ((workflowRevisions draftWorkflow []).execute (workflowEngine String)
          ((Launch.replay (some 1) (some "draft")).record
            (workflowRevisions draftWorkflow []).current))
        [.next 0 none, .next 0 none, .next 0 none] := by
  constructor
  · apply (executions_pinned String).1
    refine ⟨trivial, trivial, trivial, nofun, ?_, trivial, trivial, trivial, trivial, trivial⟩
    rintro _ _ definition ⟨⟩
    rfl
  · apply (executions_pinned String).2
    · rfl
    · exact ⟨trivial, trivial, trivial, trivial⟩

def resumedRun : List (Pipelines.ExecutionAction String) :=
  [.next 0 none, .next 0 none, .next 0 none, .control .pause,
    .redefine (some { stages := some [toolStage "store"] }), .control .resume, .next 1 none,
    .next 1 none]

/-- The execution of the first version runs a stage of the second one, and the replay of the
first version a node of the second one. -/
theorem resumed_and_replayed_elsewhere :
    ¬ Always (Chronicle.step (pipelineEngine String))
        (RunsRecorded (pipelineVersioning String)
          (pipelineRevisions fetchPipeline []).current.version)
        ((pipelineRevisions fetchPipeline []).execute (pipelineEngine String) {}) resumedRun ∧
      ¬ Always (Chronicle.step (workflowEngine String))
        (RunsRecorded (workflowVersioning String)
          ((Launch.replay (some 1) (some "revise")).record
            (workflowRevisions draftWorkflow
              [{ nodes := some [llmNode "revise"] }]).current).workflowVersion)
        ((workflowRevisions draftWorkflow [{ nodes := some [llmNode "revise"] }]).execute
          (workflowEngine String)
          ((Launch.replay (some 1) (some "revise")).record
            (workflowRevisions draftWorkflow [{ nodes := some [llmNode "revise"] }]).current))
        [.next 0 none, .next 0 none] := by
  constructor
  · intro always
    have taken : (run (.step (pipelineEngine String))
        ((pipelineRevisions fetchPipeline []).execute (pipelineEngine String) {})
          resumedRun).execution.workers.map (fun supervisee => supervisee.worker.phase.stage?) =
        [some ⟨"fetch", 0⟩, some ⟨"store", 0⟩] := by
      decide +kernel
    have later : some (PipelineStage.mk "store" 0) ∈ _ := taken ▸ mem_cons_of_mem _ mem_cons_self
    rcases mem_map.mp later with ⟨supervisee, member, atStage⟩
    have recorded := (always.last supervisee member _ atStage).2 fetchPipeline
      (run_history (mem_singleton.mpr rfl) _) rfl
    revert recorded
    decide +kernel
  · intro always
    have taken : (run (.step (workflowEngine String))
        ((workflowRevisions draftWorkflow [{ nodes := some [llmNode "revise"] }]).execute
          (workflowEngine String)
          ((Launch.replay (some 1) (some "revise")).record
            (workflowRevisions draftWorkflow [{ nodes := some [llmNode "revise"] }]).current))
          [.next 0 none, .next 0 none]).execution.workers.map
            (fun supervisee => supervisee.worker.phase.node?) =
        [some ⟨"revise", .llm⟩] := by
      decide +kernel
    have first : some (WorkflowNode.mk "revise" .llm) ∈ _ := taken ▸ mem_cons_self
    rcases mem_map.mp first with ⟨supervisee, member, atNode⟩
    have recorded := (always.last supervisee member _ atNode).2 draftWorkflow
      (run_history mem_cons_self _) rfl
    revert recorded
    decide +kernel

end AgenticOS.Workflows
