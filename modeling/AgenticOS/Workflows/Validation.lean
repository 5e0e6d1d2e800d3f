import AgenticOS.Pipelines.Validation
import AgenticOS.Workflows.Execution

/-!
# The validation of a workflow

`validate_workflow` asks of nodes and edges what `validate_pipeline` asks of stages and edges,
with texts of its own. It sorts them by the same lines, so that the sort is taken over here. In
addition it warns about a workflow without a start or an end.
-/

namespace AgenticOS.Workflows

open List

open AgenticOS.Pipelines (Pipeline PipelineStage PipelineEdge ValidationResult)

namespace Workflow

def graph (workflow : Workflow) : Pipeline where
  stages := workflow.nodes.map fun node => { id := node.id }
  edges := workflow.edges.map fun edge =>
    { id := edge.id, fromStage := edge.source, toStage := edge.target }

@[mk_iff]
structure WellLinked (workflow : Workflow) : Prop where
  nodeIds : workflow.nodeIds.Nodup
  edgeIds : (workflow.edges.map WorkflowEdge.id).Nodup
  ends : ∀ edge ∈ workflow.edges, edge.source ∈ workflow.nodeIds ∧ edge.target ∈ workflow.nodeIds

/-- No path along the edges leads from a node back to it. -/
def Acyclic (workflow : Workflow) : Prop :=
  ∀ id, ¬ Relation.TransGen (Dependencies.DependsOn workflow.reverseAdj) id id

end Workflow

def edgeErrors (nodeIds : List NodeId) (edge : WorkflowEdge) : List String :=
  (if edge.source ∉ nodeIds then
    ["Edge " ++ edge.id ++ ": source node " ++ edge.source ++ " does not exist"]
  else []) ++
  (if edge.target ∉ nodeIds then
    ["Edge " ++ edge.id ++ ": target node " ++ edge.target ++ " does not exist"]
  else [])

def idErrors (nodes : List WorkflowNode) (edges : List WorkflowEdge) : List String :=
  let nodeIds := nodes.map WorkflowNode.id
  let edgeIds := edges.map WorkflowEdge.id
  (if nodeIds.length ≠ nodeIds.toFinset.card then ["Duplicate node IDs found"] else []) ++
  (if edgeIds.length ≠ edgeIds.toFinset.card then ["Duplicate edge IDs found"] else []) ++
  edges.flatMap (edgeErrors nodeIds)

def validateWorkflow (nodes : List WorkflowNode) (edges : List WorkflowEdge) : ValidationResult :=
  let nodeIds := nodes.map WorkflowNode.id
  let linked : Workflow :=
    { nodes
      edges := edges.filter fun edge => edge.source ∈ nodeIds ∧ edge.target ∈ nodeIds }
  let found := idErrors nodes edges
  let errors :=
    if found = [] ∧ linked.graph.topoCount ≠ nodeIds.length then
      found ++ ["Workflow contains cycles (not a valid DAG)"]
    else found
  let hasStart := nodes.any fun node => node.type = .start
  let hasEnd := nodes.any fun node => node.type = .end
  { valid := errors.length = 0
    errors
    warnings := (if hasStart then [] else ["Workflow has no START node"]) ++
      (if hasEnd then [] else ["Workflow has no END node"]) }

variable (workflow : Workflow)

namespace Workflow

@[simp]
theorem stageIds_graph : workflow.graph.stageIds = workflow.nodeIds := by
  simp [graph, Pipeline.stageIds, nodeIds]

theorem reverseAdj_graph : workflow.graph.reverseAdj = workflow.reverseAdj := by
  funext id
  simp only [graph, Pipeline.reverseAdj, reverseAdj, filter_map, map_map]
  rfl

theorem wellLinked_graph_iff : workflow.graph.WellLinked ↔ workflow.WellLinked := by
  have edgeIds : workflow.graph.edges.map PipelineEdge.id =
      workflow.edges.map WorkflowEdge.id := by
    simp [graph]
  have ends : (∀ edge ∈ workflow.graph.edges,
      edge.fromStage ∈ workflow.nodeIds ∧ edge.toStage ∈ workflow.nodeIds) ↔
      ∀ edge ∈ workflow.edges,
        edge.source ∈ workflow.nodeIds ∧ edge.target ∈ workflow.nodeIds := by
    simp [graph]
  rw [Pipeline.wellLinked_iff, wellLinked_iff, stageIds_graph, edgeIds, ends]

end Workflow

theorem idErrors_eq_nil_iff :
    idErrors workflow.nodes workflow.edges = [] ↔ workflow.WellLinked := by
  have same : workflow.nodes.map WorkflowNode.id = workflow.nodeIds := rfl
  have ends : ∀ edge : WorkflowEdge, edgeErrors workflow.nodeIds edge = [] ↔
      edge.source ∈ workflow.nodeIds ∧ edge.target ∈ workflow.nodeIds := by
    intro edge
    simp [edgeErrors]
  unfold idErrors
  simp only [same, Pipelines.length_ne_card_iff, append_eq_nil_iff,
    flatMap_eq_nil_iff, ends, ite_eq_right_iff, cons_ne_nil, imp_false, not_not]
  rw [Workflow.wellLinked_iff, and_assoc]

theorem validateWorkflow_valid_iff : (validateWorkflow workflow.nodes workflow.edges).valid = true ↔
      workflow.WellLinked ∧ workflow.Acyclic := by
  have same : workflow.nodes.map WorkflowNode.id = workflow.nodeIds := rfl
  unfold validateWorkflow
  simp only [same]
  by_cases wellLinked : workflow.WellLinked
  · have found := (idErrors_eq_nil_iff workflow).mpr wellLinked
    have linked : (workflow.edges.filter fun edge =>
        edge.source ∈ workflow.nodeIds ∧ edge.target ∈ workflow.nodeIds) = workflow.edges :=
      filter_eq_self.mpr fun edge member => by simpa using wellLinked.ends edge member
    have graphLinked := workflow.wellLinked_graph_iff.mpr wellLinked
    have counted := (Pipeline.topoCount_eq_iff graphLinked).trans graphLinked.forall_runnable_iff
    rw [Pipeline.Acyclic, workflow.reverseAdj_graph, workflow.stageIds_graph] at counted
    simp only [linked, found]
    simp [wellLinked, counted, Workflow.Acyclic]
  · have found : idErrors workflow.nodes workflow.edges ≠ [] := fun none =>
      wellLinked ((idErrors_eq_nil_iff workflow).mp none)
    simp [found, wellLinked]

/-- A definition is reported valid if and only if its ids are unique, its edges have their ends
among its stages, or nodes, and there is no circle. -/
theorem valid_iff_wellLinked_acyclic : (∀ pipeline : Pipeline,
      (Pipelines.validatePipeline pipeline.stages pipeline.edges).valid = true ↔
        pipeline.WellLinked ∧ pipeline.Acyclic) ∧
    ∀ workflow : Workflow, (validateWorkflow workflow.nodes workflow.edges).valid = true ↔
      workflow.WellLinked ∧ workflow.Acyclic :=
  ⟨Pipelines.validatePipeline_valid_iff_acyclic, validateWorkflow_valid_iff⟩

end AgenticOS.Workflows
