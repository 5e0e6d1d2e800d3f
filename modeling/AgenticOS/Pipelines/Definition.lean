import AgenticOS.Data.Versions
import AgenticOS.Pipelines.Execution

/-!
# Pipeline definitions and their versions

The engine keeps the current definition of every pipeline and a table of earlier versions.
What a configuration is does not matter here; it is a type `κ`.
-/

namespace AgenticOS.Pipelines

open Versions

inductive PipelineStatus where
  | draft
  | active
  | paused
  | running
  | completed
  | failed
  | archived
  deriving DecidableEq

inductive StageType where
  | agent
  | workflow
  | tool
  | llm
  | condition
  | parallel
  | approval
  | mcp
  | plugin
  | custom
  deriving DecidableEq

/-- A stage with everything that the definition says about it. -/
structure StageDefinition (κ : Type) extends PipelineStage where
  type : StageType
  label : String
  config : κ
  dependsOn : List StageId := []
  retryDelaySeconds : ℤ := 5
  timeoutSeconds : Option ℤ := none
  condition : Option κ := none
  children : List StageId := []

structure EdgeDefinition (κ : Type) extends PipelineEdge where
  condition : Option κ := none

structure PipelineDefinition (κ : Type) where
  id : String
  name : String
  description : String
  stages : List (StageDefinition κ)
  edges : List (EdgeDefinition κ)
  version : Nat
  status : PipelineStatus
  scheduleCron : Option String := none
  scheduleTimezone : String := "UTC"
  createdBy : String := "system"

structure PipelineUpdate (κ : Type) where
  name : Option String := none
  description : Option String := none
  stages : Option (List (StageDefinition κ)) := none
  edges : Option (List (EdgeDefinition κ)) := none
  scheduleCron : Option String := none
  scheduleTimezone : Option String := none
  status : Option PipelineStatus := none
  updatedBy : String := "system"

structure PipelineVersion (κ : Type) where
  version : Nat
  pipelineId : String
  name : String
  description : String
  stages : List (StageDefinition κ)
  edges : List (EdgeDefinition κ)
  scheduleCron : Option String
  scheduleTimezone : String
  createdBy : String

/-- `value or default` for texts. -/
def orElse (value : Option String) (default : String) : String :=
  match value with
  | none => default
  | some text => if text = "" then default else text

variable {κ : Type}

namespace PipelineDefinition

variable (definition : PipelineDefinition κ)

/-- What a run of the pipeline works on. -/
def toPipeline : Pipeline where
  stages := definition.stages.map StageDefinition.toPipelineStage
  edges := definition.edges.map EdgeDefinition.toPipelineEdge

def newVersion (name description : Option String)
    (stages : Option (List (StageDefinition κ))) (edges : Option (List (EdgeDefinition κ)))
    (scheduleCron scheduleTimezone : Option String) (createdBy : String) :
    PipelineDefinition κ where
  id := definition.id
  name := orElse name definition.name
  description := orElse description definition.description
  stages := stages.getD definition.stages
  edges := edges.getD definition.edges
  version := definition.version + 1
  status := .draft
  scheduleCron := scheduleCron.or definition.scheduleCron
  scheduleTimezone := orElse scheduleTimezone definition.scheduleTimezone
  createdBy := createdBy

def structureChanged (data : PipelineUpdate κ) : Bool :=
  differs (fun stage => stage.id) data.stages definition.stages ||
    differs (fun edge => edge.id) data.edges definition.edges

def update (data : PipelineUpdate κ) : PipelineDefinition κ :=
  if definition.structureChanged data then
    definition.newVersion data.name data.description data.stages data.edges data.scheduleCron
      data.scheduleTimezone data.updatedBy
  else
    { id := definition.id
      name := orElse data.name definition.name
      description := orElse data.description definition.description
      stages := definition.stages
      edges := definition.edges
      version := definition.version
      status := data.status.getD definition.status
      scheduleCron := data.scheduleCron.or definition.scheduleCron
      scheduleTimezone := orElse data.scheduleTimezone definition.scheduleTimezone
      createdBy := definition.createdBy }

/-- `_pipeline_detail_from_version`. -/
def ofVersion (version : PipelineVersion κ) : PipelineDefinition κ where
  id := version.pipelineId
  name := version.name
  description := version.description
  stages := version.stages
  edges := version.edges
  version := version.version
  status := .draft
  scheduleCron := version.scheduleCron
  scheduleTimezone := version.scheduleTimezone
  createdBy := version.createdBy

end PipelineDefinition

def pipelineKind (κ : Type) :
    Kind (PipelineDefinition κ) (PipelineUpdate κ) (PipelineVersion κ) (StageDefinition κ)
      (EdgeDefinition κ) where
  content definition := ⟨definition.stages, definition.edges⟩
  version := PipelineDefinition.version
  nodeId stage := stage.id
  edgeId edge := edge.id
  supply data := ⟨data.stages, data.edges⟩
  update := PipelineDefinition.update
  recordVersion := PipelineVersion.version
  ofRecord := PipelineDefinition.ofVersion
  update_changed definition data changed := by
    rw [PipelineDefinition.update, PipelineDefinition.structureChanged, if_pos changed]
    exact ⟨rfl, rfl⟩
  update_unchanged definition data unchanged := by
    rw [PipelineDefinition.update, PipelineDefinition.structureChanged, unchanged]
    exact ⟨rfl, rfl⟩

/-- The tables of the engine: the pipelines and their earlier versions. -/
abbrev PipelineStore (κ : Type) := Shelf String (PipelineDefinition κ) (PipelineVersion κ)

namespace PipelineStore

def updatePipeline (store : PipelineStore κ) (pipelineId : String) (data : PipelineUpdate κ) :
    Except String (PipelineStore κ × PipelineDefinition κ) :=
  match store.current.get? pipelineId with
  | none => .error ("Pipeline " ++ pipelineId ++ " not found")
  | some pipeline =>
    let newPipeline := pipeline.update data
    .ok ({ store with current := store.current.set pipelineId newPipeline }, newPipeline)

def getPipelineVersion (store : PipelineStore κ) (pipelineId : String) (version : Nat) :
    Option (PipelineDefinition κ) :=
  store.getVersion (pipelineKind κ) pipelineId version

/-- The engine updates and looks up pipelines as the shelf does. -/
theorem shelf_pipelines (store : PipelineStore κ) (pipelineId : String) :
    (∀ data, Shelf.step (pipelineKind κ) store (.update pipelineId data) =
      ((store.updatePipeline pipelineId data).map Prod.fst).toOption.getD store) ∧
    Shelf.getVersion (pipelineKind κ) store pipelineId = store.getPipelineVersion pipelineId := by
  refine ⟨fun data => ?_, rfl⟩
  simp only [Shelf.step, updatePipeline]
  cases store.current.get? pipelineId <;> rfl

end PipelineStore

end AgenticOS.Pipelines
