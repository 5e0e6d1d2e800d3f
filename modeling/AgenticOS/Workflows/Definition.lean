import AgenticOS.Data.Versions

/-!
# Workflow definitions and their versions

A workflow is a list of nodes and a list of edges. Like the pipelines, the workflows are kept
in a table of current definitions beside a table of earlier versions. Configurations and
positions are of a type `κ`.
-/

namespace AgenticOS.Workflows

open Versions

abbrev NodeId := String

inductive WorkflowStatus where
  | draft
  | active
  | paused
  | completed
  | failed
  | archived
  deriving DecidableEq

inductive NodeType where
  | agent
  | tool
  | llm
  | condition
  | parallel
  | approval
  | subworkflow
  | start
  | «end»
  deriving DecidableEq

/-- What a run reads of a node. -/
structure WorkflowNode where
  id : NodeId
  type : NodeType
  deriving DecidableEq

/-- What a run reads of an edge. -/
structure WorkflowEdge where
  id : String
  source : NodeId
  target : NodeId

/-- What a run works on. -/
structure Workflow where
  nodes : List WorkflowNode
  edges : List WorkflowEdge

/-- A node with everything that the definition says about it. -/
structure NodeDefinition (κ : Type) extends WorkflowNode where
  label : String
  config : κ
  position : κ
  subworkflowId : Option String := none

structure EdgeDefinition (κ : Type) extends WorkflowEdge where
  sourceHandle : Option String := none
  targetHandle : Option String := none
  condition : Option κ := none

structure WorkflowDefinition (κ : Type) where
  id : String
  name : String
  description : String
  nodes : List (NodeDefinition κ)
  edges : List (EdgeDefinition κ)
  version : Nat
  status : WorkflowStatus
  templateId : Option String := none
  createdBy : String := "system"

structure WorkflowUpdate (κ : Type) where
  name : Option String := none
  description : Option String := none
  nodes : Option (List (NodeDefinition κ)) := none
  edges : Option (List (EdgeDefinition κ)) := none
  updatedBy : String := "system"

structure WorkflowVersion (κ : Type) where
  version : Nat
  workflowId : String
  name : String
  description : String
  nodes : List (NodeDefinition κ)
  edges : List (EdgeDefinition κ)
  createdBy : String

/-- `value or default` for texts. -/
def orElse (value : Option String) (default : String) : String :=
  match value with
  | none => default
  | some text => if text = "" then default else text

variable {κ : Type}

namespace WorkflowDefinition

variable (definition : WorkflowDefinition κ)

/-- What a run of the workflow works on. -/
def toWorkflow : Workflow where
  nodes := definition.nodes.map NodeDefinition.toWorkflowNode
  edges := definition.edges.map EdgeDefinition.toWorkflowEdge

def newVersion (name description : Option String)
    (nodes : Option (List (NodeDefinition κ))) (edges : Option (List (EdgeDefinition κ)))
    (createdBy : String) : WorkflowDefinition κ where
  id := definition.id
  name := orElse name definition.name
  description := orElse description definition.description
  nodes := nodes.getD definition.nodes
  edges := edges.getD definition.edges
  version := definition.version + 1
  status := .draft
  templateId := definition.templateId
  createdBy := createdBy

def structureChanged (data : WorkflowUpdate κ) : Bool :=
  differs (fun node => node.id) data.nodes definition.nodes ||
    differs (fun edge => edge.id) data.edges definition.edges

def update (data : WorkflowUpdate κ) : WorkflowDefinition κ :=
  if definition.structureChanged data then
    definition.newVersion data.name data.description data.nodes data.edges data.updatedBy
  else
    { id := definition.id
      name := orElse data.name definition.name
      description := orElse data.description definition.description
      nodes := definition.nodes
      edges := definition.edges
      version := definition.version
      status := definition.status
      templateId := definition.templateId
      createdBy := definition.createdBy }

/-- `_workflow_detail_from_version`. -/
def ofVersion (version : WorkflowVersion κ) : WorkflowDefinition κ where
  id := version.workflowId
  name := version.name
  description := version.description
  nodes := version.nodes
  edges := version.edges
  version := version.version
  status := .draft
  templateId := none
  createdBy := version.createdBy

end WorkflowDefinition

def workflowKind (κ : Type) :
    Kind (WorkflowDefinition κ) (WorkflowUpdate κ) (WorkflowVersion κ) (NodeDefinition κ)
      (EdgeDefinition κ) where
  content definition := ⟨definition.nodes, definition.edges⟩
  version := WorkflowDefinition.version
  nodeId node := node.id
  edgeId edge := edge.id
  supply data := ⟨data.nodes, data.edges⟩
  update := WorkflowDefinition.update
  recordVersion := WorkflowVersion.version
  ofRecord := WorkflowDefinition.ofVersion
  update_changed definition data changed := by
    rw [WorkflowDefinition.update, WorkflowDefinition.structureChanged, if_pos changed]
    exact ⟨rfl, rfl⟩
  update_unchanged definition data unchanged := by
    rw [WorkflowDefinition.update, WorkflowDefinition.structureChanged, unchanged]
    exact ⟨rfl, rfl⟩

/-- The tables of the engine: the workflows and their earlier versions. -/
abbrev WorkflowStore (κ : Type) := Shelf String (WorkflowDefinition κ) (WorkflowVersion κ)

namespace WorkflowStore

def updateWorkflow (store : WorkflowStore κ) (workflowId : String) (data : WorkflowUpdate κ) :
    Except String (WorkflowStore κ × WorkflowDefinition κ) :=
  match store.current.get? workflowId with
  | none => .error ("Workflow " ++ workflowId ++ " not found")
  | some workflow =>
    let newWorkflow := workflow.update data
    .ok ({ store with current := store.current.set workflowId newWorkflow }, newWorkflow)

def getWorkflowVersion (store : WorkflowStore κ) (workflowId : String) (version : Nat) :
    Option (WorkflowDefinition κ) :=
  store.getVersion (workflowKind κ) workflowId version

/-- The engine updates and looks up workflows as the shelf does. -/
theorem shelf_workflows (store : WorkflowStore κ) (workflowId : String) :
    (∀ data, Shelf.step (workflowKind κ) store (.update workflowId data) =
      ((store.updateWorkflow workflowId data).map Prod.fst).toOption.getD store) ∧
    Shelf.getVersion (workflowKind κ) store workflowId = store.getWorkflowVersion workflowId := by
  refine ⟨fun data => ?_, rfl⟩
  simp only [Shelf.step, updateWorkflow]
  cases store.current.get? workflowId <;> rfl

end WorkflowStore

end AgenticOS.Workflows
