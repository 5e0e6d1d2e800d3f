import AgenticOS.Data.Dependencies
import AgenticOS.Pipelines.Traversal

/-!
# The validation of a pipeline

`validate_pipeline` collects errors about the ids of stages and edges. Without any it
sorts the stages topologically: a stage is counted once all edges into it come from
counted stages. The pipeline is accepted if every stage is counted.
-/

namespace AgenticOS.Pipelines

open List Pipeline Function

structure ValidationResult where
  valid : Bool
  errors : List String
  warnings : List String

structure TopologicalSort where
  inDegree : StageId → ℤ
  queue : List StageId
  topoCount : Nat

namespace TopologicalSort

/-- Remove an edge into `target`. -/
def relax (sort : TopologicalSort) (target : StageId) : TopologicalSort :=
  let inDegree := Function.update sort.inDegree target (sort.inDegree target - 1)
  { sort with
    inDegree
    queue := if inDegree target = 0 then sort.queue ++ [target] else sort.queue }

/-- One turn of the loop for the stage `id` at the head of the queue. -/
def visit (pipeline : Pipeline) (sort : TopologicalSort) (id : StageId)
    (rest : List StageId) : TopologicalSort :=
  (pipeline.adj id).foldl relax { sort with queue := rest, topoCount := sort.topoCount + 1 }

/-- The loop. The first argument bounds the number of turns. -/
def loop (pipeline : Pipeline) : Nat → TopologicalSort → TopologicalSort
  | 0, sort => sort
  | turns + 1, sort =>
    match sort.queue with
    | [] => sort
    | id :: rest => loop pipeline turns (sort.visit pipeline id rest)

/-- The sort before its first turn. -/
def begin (pipeline : Pipeline) : TopologicalSort where
  inDegree := pipeline.inDegree
  queue := pipeline.stageIds.filter fun id => pipeline.inDegree id = 0
  topoCount := 0

end TopologicalSort

/-- How many stages the topological sort counts. Without repeated ids no stage is counted
twice, so that one turn for each stage is enough. -/
def Pipeline.topoCount (pipeline : Pipeline) : Nat :=
  (TopologicalSort.loop pipeline pipeline.stages.length (.begin pipeline)).topoCount

def edgeErrors (stageIds : List StageId) (edge : PipelineEdge) : List String :=
  (if edge.fromStage ∉ stageIds then
    ["Edge " ++ edge.id ++ ": from_stage " ++ edge.fromStage ++ " does not exist"]
  else []) ++
  (if edge.toStage ∉ stageIds then
    ["Edge " ++ edge.id ++ ": to_stage " ++ edge.toStage ++ " does not exist"]
  else [])

def idErrors (stages : List PipelineStage) (edges : List PipelineEdge) : List String :=
  let stageIds := stages.map PipelineStage.id
  let edgeIds := edges.map PipelineEdge.id
  (if stageIds.length ≠ stageIds.toFinset.card then ["Duplicate stage IDs found"] else []) ++
  (if edgeIds.length ≠ edgeIds.toFinset.card then ["Duplicate edge IDs found"] else []) ++
  edges.flatMap (edgeErrors stageIds)

def validatePipeline (stages : List PipelineStage) (edges : List PipelineEdge) : ValidationResult :=
  let stageIds := stages.map PipelineStage.id
  let linked : Pipeline :=
    { stages
      edges := edges.filter fun edge => edge.fromStage ∈ stageIds ∧ edge.toStage ∈ stageIds }
  let found := idErrors stages edges
  let errors :=
    if found = [] ∧ linked.topoCount ≠ stageIds.length then
      found ++ ["Pipeline contains cycles (not a valid DAG)"]
    else found
  { valid := errors.length = 0, errors, warnings := [] }

/-- What a validation without errors about ids says. -/
@[mk_iff]
structure Pipeline.WellLinked (pipeline : Pipeline) : Prop where
  stageIds : pipeline.stageIds.Nodup
  edgeIds : (pipeline.edges.map PipelineEdge.id).Nodup
  ends : ∀ edge ∈ pipeline.edges,
    edge.fromStage ∈ pipeline.stageIds ∧ edge.toStage ∈ pipeline.stageIds

namespace TopologicalSort

/-- What holds of the counted stages `visited` and the queue, also between two edges. -/
structure Frontier (pipeline : Pipeline) (visited : List StageId) (sort : TopologicalSort) :
    Prop where
  nodup : (visited ++ sort.queue).Nodup
  listed : ∀ id ∈ visited ++ sort.queue, id ∈ pipeline.stageIds
  reached : ∀ id ∈ visited ++ sort.queue, sort.inDegree id ≤ 0
  accounted : ∀ id ∈ pipeline.stageIds, id ∈ visited ++ sort.queue ∨ 0 < sort.inDegree id

/-- What holds between two turns of the loop. -/
structure Sorted (pipeline : Pipeline) (visited : List StageId) (sort : TopologicalSort) :
    Prop where
  frontier : sort.Frontier pipeline visited
  topoCount : sort.topoCount = visited.length
  degrees : ∀ id, sort.inDegree id = pipeline.inDegree id - pipeline.degreeFrom visited.toFinset id
  runnable : ∀ id ∈ visited, pipeline.Runnable id

variable {pipeline : Pipeline} {visited : List StageId} {sort : TopologicalSort}

/-- An edge removed: a stage enters the queue at most once, when its degree becomes zero. -/
theorem Frontier.relax (frontier : sort.Frontier pipeline visited) {target : StageId}
    (listed : target ∈ pipeline.stageIds) : (sort.relax target).Frontier pipeline visited := by
  have degree : ∀ id, (sort.relax target).inDegree id ≤ sort.inDegree id := by
    intro id
    change Function.update sort.inDegree target (sort.inDegree target - 1) id ≤ sort.inDegree id
    by_cases same : id = target
    · subst same
      rw [update_self]
      omega
    · rw [update_of_ne same]
  have atTarget : (sort.relax target).inDegree target = sort.inDegree target - 1 :=
    update_self _ _ _
  by_cases zero : (sort.relax target).inDegree target = 0
  · have appended : (sort.relax target).queue = sort.queue ++ [target] := if_pos zero
    have fresh : target ∉ visited ++ sort.queue := by
      intro member
      have before := frontier.reached target member
      omega
    have same : visited ++ (sort.relax target).queue = (visited ++ sort.queue) ++ [target] := by
      rw [appended, append_assoc]
    constructor
    · rw [same]
      exact .append frontier.nodup (nodup_singleton target) (disjoint_singleton.mpr fresh)
    · intro id member
      rw [same] at member
      rcases mem_append.mp member with old | new
      · exact frontier.listed id old
      · rw [mem_singleton.mp new]
        exact listed
    · intro id member
      rw [same] at member
      rcases mem_append.mp member with old | new
      · exact (degree id).trans (frontier.reached id old)
      · rw [mem_singleton.mp new]
        exact Int.le_of_eq zero
    · intro id known
      rw [same]
      by_cases new : id = target
      · rw [new]
        exact .inl (mem_append_right _ mem_cons_self)
      · have other : (sort.relax target).inDegree id = sort.inDegree id :=
          update_of_ne new _ _
        rw [other]
        exact (frontier.accounted id known).imp_left (mem_append_left [target])
  · have unchanged : (sort.relax target).queue = sort.queue := if_neg zero
    constructor
    · rw [unchanged]
      exact frontier.nodup
    · rw [unchanged]
      exact frontier.listed
    · intro id member
      rw [unchanged] at member
      exact (degree id).trans (frontier.reached id member)
    · intro id known
      rw [unchanged]
      rcases frontier.accounted id known with found | open_
      · exact .inl found
      · by_cases new : id = target
        · subst new
          exact .inr (by omega)
        · have other : (sort.relax target).inDegree id = sort.inDegree id :=
            update_of_ne new _ _
          rw [other]
          exact .inr open_

variable (targets : List StageId)

theorem Frontier.foldl_relax (listed : ∀ target ∈ targets, target ∈ pipeline.stageIds)
    (frontier : sort.Frontier pipeline visited) :
    (targets.foldl TopologicalSort.relax sort).Frontier pipeline visited := by
  induction targets generalizing sort with
  | nil => exact frontier
  | cons target targets ih =>
    apply ih
    · intro other member
      exact listed other (mem_cons_of_mem target member)
    · exact frontier.relax (listed target mem_cons_self)

@[simp]
theorem topoCount_foldl_relax (sort : TopologicalSort) :
    (targets.foldl relax sort).topoCount = sort.topoCount := by
  induction targets generalizing sort with
  | nil => rfl
  | cons target targets ih =>
    rw [foldl_cons, ih]
    rfl

theorem inDegree_foldl_relax (sort : TopologicalSort) (id : StageId) :
    (targets.foldl relax sort).inDegree id = sort.inDegree id - targets.count id :=
  foldl_countdown (fun _ _ => rfl) targets sort id

section

variable (wellLinked : pipeline.WellLinked)
include wellLinked

theorem Sorted.begin : (TopologicalSort.begin pipeline).Sorted pipeline [] where
  frontier := by
    have queued : ∀ id, id ∈ [] ++ (TopologicalSort.begin pipeline).queue ↔
        id ∈ pipeline.stageIds ∧ pipeline.inDegree id = 0 := by
      intro id
      simp [TopologicalSort.begin]
    constructor
    · exact wellLinked.stageIds.filter _
    · intro id member
      exact ((queued id).mp member).1
    · intro id member
      exact Int.le_of_eq ((queued id).mp member).2
    · intro id known
      rcases lt_or_eq_of_le (pipeline.inDegree_nonneg id) with positive | zero
      · exact .inr positive
      · exact .inl ((queued id).mpr ⟨known, zero.symm⟩)
  topoCount := rfl
  degrees := by
    intro id
    rw [toFinset_nil, degreeFrom_empty, sub_zero]
    rfl
  runnable := fun _ impossible => absurd impossible not_mem_nil

theorem Sorted.visit {id : StageId} {rest : List StageId} (sorted : sort.Sorted pipeline visited)
    (head : sort.queue = id :: rest) :
    (sort.visit pipeline id rest).Sorted pipeline (visited ++ [id]) := by
  have frontier := sorted.frontier
  have moved : visited ++ sort.queue = (visited ++ [id]) ++ rest := by
    rw [head, append_assoc]
    rfl
  have member : id ∈ visited ++ sort.queue := by
    rw [head]
    exact mem_append_right visited mem_cons_self
  have fresh : id ∉ visited.toFinset := by
    intro old
    have distinct := frontier.nodup
    rw [head] at distinct
    exact (disjoint_of_nodup_append distinct) (mem_toFinset.mp old) mem_cons_self
  have targets : ∀ target ∈ pipeline.adj id, target ∈ pipeline.stageIds := by
    intro target into
    rcases mem_map.mp into with ⟨edge, kept, rfl⟩
    exact (wellLinked.ends edge (mem_filter.mp kept).1).2
  constructor
  · apply Frontier.foldl_relax _ targets
    constructor
    · rw [← moved]
      exact frontier.nodup
    · rw [← moved]
      exact frontier.listed
    · rw [← moved]
      exact frontier.reached
    · rw [← moved]
      exact frontier.accounted
  · unfold TopologicalSort.visit
    rw [topoCount_foldl_relax, length_append, sorted.topoCount]
    rfl
  · intro other
    have enlarged : (visited ++ [id]).toFinset = insert id visited.toFinset := by
      ext stage
      simp
    unfold TopologicalSort.visit
    rw [inDegree_foldl_relax, enlarged, degreeFrom_insert fresh, sorted.degrees, sub_sub]
  · intro other counted
    rcases mem_append.mp counted with old | new
    · exact sorted.runnable other old
    · rw [mem_singleton.mp new]
      have reached := frontier.reached id member
      rw [sorted.degrees] at reached
      have sources := sources_of_inDegree_le (by omega :
        pipeline.inDegree id ≤ pipeline.degreeFrom visited.toFinset id)
      apply Pipeline.Runnable.intro id (frontier.listed id member)
      intro source into
      exact sorted.runnable source (mem_toFinset.mp (sources source into))

theorem Sorted.loop (turns : Nat) (sorted : sort.Sorted pipeline visited) :
    ∃ counted, (TopologicalSort.loop pipeline turns sort).Sorted pipeline counted ∧
      ((TopologicalSort.loop pipeline turns sort).queue = [] ∨
        counted.length = visited.length + turns) := by
  induction turns generalizing sort visited with
  | zero => exact ⟨visited, sorted, .inr rfl⟩
  | succ turns ih =>
    cases head : sort.queue with
    | nil =>
      have stopped : .loop pipeline (turns + 1) sort = sort := by simp [TopologicalSort.loop, head]
      rw [stopped]
      exact ⟨visited, sorted, .inl head⟩
    | cons id rest =>
      have turned : TopologicalSort.loop pipeline (turns + 1) sort =
          TopologicalSort.loop pipeline turns (sort.visit pipeline id rest) := by
        simp [TopologicalSort.loop, head]
      rw [turned]
      rcases ih (sorted.visit wellLinked head) with ⟨counted, holds, ended⟩
      refine ⟨counted, holds, ended.imp_right fun all => ?_⟩
      rw [all, length_append, length_singleton]
      omega

end

theorem Sorted.visited_of_runnable (sorted : sort.Sorted pipeline visited)
    (empty : sort.queue = []) {id : StageId} (runnable : pipeline.Runnable id) : id ∈ visited := by
  induction runnable with
  | intro id listed _ ih =>
    have sources : ∀ source ∈ pipeline.reverseAdj id, source ∈ visited.toFinset :=
      fun source into => mem_toFinset.mpr (ih source into)
    have zero : sort.inDegree id = 0 := by
      rw [sorted.degrees, degreeFrom_eq_inDegree sources, sub_self]
    rcases sorted.frontier.accounted id listed with found | open_
    · rw [empty, append_nil] at found
      exact found
    · omega

end TopologicalSort

/-- The topological sort counts every stage if and only if every stage is runnable. -/
theorem Pipeline.topoCount_eq_iff {pipeline : Pipeline} (wellLinked : pipeline.WellLinked) :
    pipeline.topoCount = pipeline.stageIds.length ↔
      ∀ id ∈ pipeline.stageIds, pipeline.Runnable id := by
  have size : pipeline.stageIds.length = pipeline.stages.length := length_map _
  rcases (TopologicalSort.Sorted.begin wellLinked).loop wellLinked pipeline.stages.length with
    ⟨visited, sorted, ended⟩
  have count : pipeline.topoCount = visited.length := sorted.topoCount
  have distinct : visited.Nodup := sorted.frontier.nodup.of_append_left
  have listed : visited ⊆ pipeline.stageIds := fun id member =>
    sorted.frontier.listed id (mem_append_left _ member)
  have subperm : visited.Subperm pipeline.stageIds := distinct.subperm listed
  rw [count]
  constructor
  · intro all id member
    have same := subperm.perm_of_length_le (Nat.le_of_eq all.symm)
    exact sorted.runnable id (same.mem_iff.mpr member)
  · intro runnable
    rcases ended with empty | full
    · have converse : pipeline.stageIds ⊆ visited := fun id member =>
        sorted.visited_of_runnable empty (runnable id member)
      exact Nat.le_antisymm subperm.length_le (wellLinked.stageIds.subperm converse).length_le
    · rw [full, size, length_nil, Nat.zero_add]

/-! ## The accepted pipelines -/

theorem length_ne_card_iff {α : Type*} [DecidableEq α] (entries : List α) :
    entries.length ≠ entries.toFinset.card ↔ ¬ entries.Nodup := by
  rw [not_iff_not, eq_comm]
  exact Multiset.toFinset_card_eq_card_iff_nodup

theorem edgeErrors_eq_nil_iff {stageIds : List StageId} {edge : PipelineEdge} :
    edgeErrors stageIds edge = [] ↔ edge.fromStage ∈ stageIds ∧ edge.toStage ∈ stageIds := by
  unfold edgeErrors
  simp

theorem idErrors_eq_nil_iff (pipeline : Pipeline) :
    idErrors pipeline.stages pipeline.edges = [] ↔ pipeline.WellLinked := by
  have same : pipeline.stages.map PipelineStage.id = pipeline.stageIds := rfl
  unfold idErrors
  simp only [same, length_ne_card_iff, append_eq_nil_iff, flatMap_eq_nil_iff,
    edgeErrors_eq_nil_iff, ite_eq_right_iff, cons_ne_nil, imp_false, not_not]
  rw [wellLinked_iff, and_assoc]

/-- A pipeline is accepted if and only if it is well linked and each of its stages is
runnable. -/
theorem validatePipeline_valid_iff (pipeline : Pipeline) :
    (validatePipeline pipeline.stages pipeline.edges).valid = true ↔
      pipeline.WellLinked ∧ ∀ id ∈ pipeline.stageIds, pipeline.Runnable id := by
  have same : pipeline.stages.map PipelineStage.id = pipeline.stageIds := rfl
  unfold validatePipeline
  simp only [same]
  by_cases wellLinked : pipeline.WellLinked
  · have found := (idErrors_eq_nil_iff pipeline).mpr wellLinked
    have linked : (pipeline.edges.filter fun edge =>
        edge.fromStage ∈ pipeline.stageIds ∧ edge.toStage ∈ pipeline.stageIds) =
        pipeline.edges :=
      filter_eq_self.mpr fun edge member => by simpa using wellLinked.ends edge member
    have counted := topoCount_eq_iff wellLinked
    simp only [linked, found]
    by_cases all : pipeline.topoCount = pipeline.stageIds.length
    · simpa [all, wellLinked] using counted.mp all
    · simpa [all, wellLinked] using fun runnable => all (counted.mpr runnable)
  · have found : idErrors pipeline.stages pipeline.edges ≠ [] := fun none =>
      wellLinked ((idErrors_eq_nil_iff pipeline).mp none)
    simp [found, wellLinked]

namespace Pipeline

/-- No path along the edges leads from a stage back to it. -/
def Acyclic (pipeline : Pipeline) : Prop :=
  ∀ id, ¬ Relation.TransGen (Dependencies.DependsOn pipeline.reverseAdj) id id

variable {pipeline : Pipeline}

theorem runnable_iff_resolvable {id : StageId} : pipeline.Runnable id ↔
      Dependencies.Resolvable pipeline.stageIds pipeline.reverseAdj id := by
  constructor
  · intro runnable
    induction runnable with
    | intro id listed _ ih => exact .intro listed ih
  · intro resolvable
    induction resolvable with
    | intro listed _ ih => exact .intro _ listed ih

theorem WellLinked.forall_runnable_iff (wellLinked : pipeline.WellLinked) :
    (∀ id ∈ pipeline.stageIds, pipeline.Runnable id) ↔ pipeline.Acyclic := by
  simp only [runnable_iff_resolvable]
  apply Dependencies.forall_resolvable_iff
  intro target source into
  obtain ⟨edge, member, rfl, rfl⟩ := mem_reverseAdj_iff.mp into
  exact (wellLinked.ends edge member).symm

end Pipeline

theorem validatePipeline_valid_iff_acyclic (pipeline : Pipeline) :
    (validatePipeline pipeline.stages pipeline.edges).valid = true ↔
      pipeline.WellLinked ∧ pipeline.Acyclic := by
  rw [validatePipeline_valid_iff]
  exact and_congr_right Pipeline.WellLinked.forall_runnable_iff

end AgenticOS.Pipelines
