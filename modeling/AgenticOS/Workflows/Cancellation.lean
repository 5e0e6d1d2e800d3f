import AgenticOS.Pipelines.Manning
import AgenticOS.Workflows.Manning

/-!
# Cancelling executions

`cancel_execution` removes the task from the table after it has ended. A task that has begun
removes itself first, and the cancellation fails. The two engines share this.
-/

namespace AgenticOS.Workflows

open AgenticOS.Transition AgenticOS.Transition.Supervised AgenticOS.Pipelines WorkflowExecution

/-- In an orderly run every cancellation, of a pipeline and of a workflow, goes well: none has
raised, and behind those that have written the execution stays cancelled, with everything in it
that was completed. Outside of such runs, the first cancellation of a live pipeline can always
fail, and that of a workflow whenever a runner is at work. -/
theorem cancellations_succeed (κ : Type) :
    (∀ (definition : PipelineDefinition κ) (execution : PipelineExecution)
      (actions : List (Pipelines.ExecutionAction κ)), Along (step (pipelineEngine κ))
          (Orderly (pipelineEngine κ) PipelineExecution.completedStages)
          (start (pipelineEngine κ) execution definition) actions →
        Always (step (pipelineEngine κ))
          (CancelledForGood (pipelineEngine κ) (fun execution => execution.status = .cancelled)
            PipelineExecution.completedStages)
          (start (pipelineEngine κ) execution definition) actions) ∧
      (∀ (definition : WorkflowDefinition κ) (execution : WorkflowExecution)
        (actions : List (ExecutionAction κ)), Along (step (workflowEngine κ))
            (Orderly (workflowEngine κ) completedNodes)
            (start (workflowEngine κ) execution definition) actions →
          Always (step (workflowEngine κ))
            (CancelledForGood (workflowEngine κ) (fun execution => execution.status = .cancelled)
              completedNodes)
            (start (workflowEngine κ) execution definition) actions) ∧
      (∀ (definition : PipelineDefinition κ) (actions : List (Pipelines.ExecutionAction κ)),
        (∀ action ∈ actions, action ≠ .cancel) →
          Live (run (step (pipelineEngine κ)) (start (pipelineEngine κ) {} definition)
              actions).store →
            ∃ more, Failed (fun execution => execution.status = .cancelled)
              (run (step (pipelineEngine κ)) (start (pipelineEngine κ) {} definition)
                (actions ++ .cancel :: more))) ∧
      ∀ (definition : WorkflowDefinition κ) (execution : WorkflowExecution)
        (actions : List (ExecutionAction κ)), (∀ action ∈ actions, action ≠ .cancel) →
          (workflowEngine κ).cancellable (run (step (workflowEngine κ))
              (start (workflowEngine κ) execution definition) actions).store = true →
            (∃ supervisee ∈ (run (step (workflowEngine κ))
                (start (workflowEngine κ) execution definition) actions).workers,
              supervisee.worker.phase.standing = .working) →
              ∃ more, Failed (fun execution => execution.status = .cancelled)
                (run (step (workflowEngine κ)) (start (workflowEngine κ) execution definition)
                  (actions ++ .cancel :: more)) := by
  refine ⟨?_, ?_, ?_, ?_⟩
  · intro definition execution actions orderly
    exact always_cancelledForGood (pipeline_cancelling κ) execution definition orderly
  · intro definition execution actions orderly
    exact always_cancelledForGood (workflow_cancelling κ) execution definition orderly
  · intro definition actions first live
    have notYet : ¬ Live {} := by simp [Live]
    have worked := run_worked (pipeline_manning κ)
      (fun operation before after accepted _ => live_of_control operation before after accepted)
      notYet definition actions live
    apply first_cancel_fails (pipeline_manning κ) (pipeline_obstinate κ) _ definition first
    · exact decide_eq_true live
    · exact worked
  · intro definition execution actions first cancellable working
    exact first_cancel_fails (workflow_manning κ) (workflow_obstinate κ) execution definition
      first cancellable working

def buildPipeline : PipelineDefinition String where
  id := "pipeline"
  name := "Pipeline"
  description := ""
  stages := [{ id := "build", type := .tool, label := "Build", config := "" }]
  edges := []
  version := 1
  status := .active

def askWorkflow : WorkflowDefinition String where
  id := "workflow"
  name := "Workflow"
  description := ""
  nodes := [{ id := "ask", type := .agent, label := "Ask", config := "", position := "" }]
  edges := []
  version := 1
  status := .active

/-- Executions that say that they run are cancelled before their new runners have begun; others
when their runners have. -/
theorem samples_cancelled :
    Always (step (pipelineEngine String))
        (CancelledForGood (pipelineEngine String) (fun execution => execution.status = .cancelled)
          PipelineExecution.completedStages)
        (start (pipelineEngine String) { status := .running, completedStages := {"fetch"} }
          buildPipeline)
        [.cancel, .next 0 none, .wake 0, .publish 0 none] ∧
      Always (step (workflowEngine String))
        (CancelledForGood (workflowEngine String) (fun execution => execution.status = .cancelled)
          completedNodes)
        (start (workflowEngine String) { workflowVersion := 1, status := .running } askWorkflow)
        [.cancel, .next 0 none, .wake 0, .publish 0 none] ∧
      (∃ more, Failed (fun execution => execution.status = .cancelled)
        (run (step (pipelineEngine String)) (start (pipelineEngine String) {} buildPipeline)
          ([.next 0 none] ++ .cancel :: more))) ∧
      ∃ more, Failed (fun execution => execution.status = .cancelled)
        (run (step (workflowEngine String))
          (start (workflowEngine String) (executeWorkflow 1 none) askWorkflow)
          ([.next 0 none] ++ .cancel :: more)) := by
  refine ⟨?_, ?_, ?_, ?_⟩
  · apply (cancellations_succeed String).1
    exact ⟨fun _ => ⟨fun _ _ => List.not_mem_nil, .inr ⟨0, _, unbegun_start rfl _⟩⟩,
      trivial, trivial, rfl, trivial⟩
  · apply (cancellations_succeed String).2.1
    exact ⟨fun _ => ⟨fun _ _ => List.not_mem_nil, .inr ⟨0, _, unbegun_start rfl _⟩⟩,
      trivial, trivial, rfl, trivial⟩
  · apply (cancellations_succeed String).2.2.1
    · simp
    · exact .inl rfl
  · apply (cancellations_succeed String).2.2.2
    · simp
    · rfl
    · exact ⟨_, List.mem_singleton.mpr rfl, rfl⟩

/-- The runner is at its first stage when the execution is cancelled; it ends, and takes
itself off the table. -/
def interruptedRun (κ υ : Type) : List (Action κ υ) :=
  [.next 0 none, .next 0 none, .next 0 none, .cancel, .next 0 none, .next 0 none, .wake 0]

/-- The cancellation of a running execution raises, for pipelines and for workflows. -/
theorem cancellation_raises : ¬ Always (step (pipelineEngine String))
        (CancelledForGood (pipelineEngine String) (fun execution => execution.status = .cancelled)
          PipelineExecution.completedStages)
        (start (pipelineEngine String) {} buildPipeline) (interruptedRun _ _) ∧
      ¬ Always (step (workflowEngine String))
        (CancelledForGood (workflowEngine String) (fun execution => execution.status = .cancelled)
          completedNodes)
        (start (workflowEngine String) (executeWorkflow 1 none) askWorkflow)
        (interruptedRun _ _) := by
  constructor
  · intro always
    have raised : (run (step (pipelineEngine String))
        (start (pipelineEngine String) {} buildPipeline)
          (interruptedRun _ _)).cancellers.map Canceller.error? = [some "KeyError"] := by
      decide +kernel
    exact not_cancelledForGood_of_error (raised ▸ List.mem_singleton.mpr rfl) always.last
  · intro always
    have raised : (run (step (workflowEngine String))
        (start (workflowEngine String) (executeWorkflow 1 none) askWorkflow)
          (interruptedRun _ _)).cancellers.map Canceller.error? = [some "KeyError"] := by
      decide +kernel
    exact not_cancelledForGood_of_error (raised ▸ List.mem_singleton.mpr rfl) always.last

end AgenticOS.Workflows
