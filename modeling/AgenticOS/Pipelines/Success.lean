import AgenticOS.Pipelines.Validation
import Mathlib.Algebra.Order.BigOperators.Group.Finset
import Mathlib.Data.Finset.Order

/-!
# The uninterrupted execution of an accepted pipeline

Where nothing but the execution of a stage fails, the stages that the runner queues are exactly
those with all sources completed: the loop never puts a stage back for them. A stage that fails
is tried again up to its retry count, and then ends the loop, so that no stage behind it is
ever executed. Where every stage succeeds, all are executed once.
-/

namespace AgenticOS.Pipelines

open AgenticOS.Transition List

def Runner.executing (runner : Runner) : List StageId :=
  match runner.phase with
  | .executing stage _ => [stage.id]
  | _ => []

namespace ExecutionPool

/-- A new execution after some continuations of its runner, each with a normal end of
what the runner awaits. -/
def uninterrupted (pipeline : Pipeline) (steps : Nat) : ExecutionPool :=
  run (step pipeline) executePipeline (List.replicate steps (.next 0 .ok))

def executing (state : ExecutionPool) : List StageId :=
  state.processes.flatMap Runner.executing

/-- The stages executed in the course of an uninterrupted run. Every continuation ends
the execution that is awaited, so that what is awaited behind it has just begun. -/
def executed (pipeline : Pipeline) : Nat → List StageId
  | 0 => (uninterrupted pipeline 0).executing
  | steps + 1 => executed pipeline steps ++ (uninterrupted pipeline (steps + 1)).executing

/-- The execution of a stage ends as it is answered, everything else normally. -/
def outcome (state : ExecutionPool) : Option String → Outcome
  | none => .ok
  | some error => if state.executing = [] then .ok else .raised error

section

variable (pipeline : Pipeline) (answers : Nat → Option String)

/-- A new execution after some continuations of its runner, with an answer for each. -/
def answered : Nat → ExecutionPool
  | 0 => executePipeline
  | steps + 1 => step pipeline (answered steps) (.next 0 ((answered steps).outcome (answers steps)))

/-- The stages whose execution has begun in the course of such a run. -/
def attempts : Nat → List StageId
  | 0 => []
  | steps + 1 => attempts steps ++ (answered pipeline answers (steps + 1)).executing

/-- The stages whose execution has failed. -/
def failures : Nat → List StageId
  | 0 => []
  | steps + 1 => failures steps ++
      if (answers steps).isSome then (answered pipeline answers steps).executing else []

end

end ExecutionPool

theorem PipelineExecution.retries_incrementRetry (execution : PipelineExecution)
    (id other : StageId) : (execution.incrementRetry id).retries other =
      if other = id then execution.retries id + 1 else execution.retries other := by
  unfold incrementRetry
  simp only [retries, Dict.get?_set]
  split
  · rfl
  · rfl

namespace Pipeline

variable {pipeline : Pipeline}

theorem stageMap_of_mem {id : StageId} (listed : id ∈ pipeline.stageIds) :
    ∃ stage ∈ pipeline.stages, pipeline.stageMap id = some stage := by
  rcases mem_map.mp listed with ⟨stage, member, same⟩
  have present : (pipeline.stageMap id).isSome := by
    rw [stageMap, find?_isSome]
    exact ⟨stage, mem_reverse.mpr member, by simpa using same⟩
  rcases Option.isSome_iff_exists.mp present with ⟨found, lookup⟩
  exact ⟨found, mem_reverse.mp (mem_of_find?_eq_some lookup), lookup⟩

def openStages (pipeline : Pipeline) (completed : Finset StageId) : Finset StageId :=
  pipeline.stageIds.toFinset \ completed

theorem card_openStages_insert {completed : Finset StageId} {id : StageId}
    (listed : id ∈ pipeline.stageIds) (pending : id ∉ completed) :
    (pipeline.openStages (insert id completed)).card + 1 =
      (pipeline.openStages completed).card := by
  have member : id ∈ pipeline.openStages completed :=
    Finset.mem_sdiff.mpr ⟨mem_toFinset.mpr listed, pending⟩
  have removed : pipeline.openStages (insert id completed) =
      (pipeline.openStages completed).erase id := by
    unfold openStages
    rw [Finset.sdiff_insert]
  rw [removed, Finset.card_erase_add_one member]

structure Executable (pipeline : Pipeline) : Prop where
  runnable : ∀ id ∈ pipeline.stageIds, pipeline.Runnable id
  targets : ∀ edge ∈ pipeline.edges, edge.toStage ∈ pipeline.stageIds
  distinct : pipeline.stageIds.Nodup
  attempts : ∀ stage ∈ pipeline.stages, 0 ≤ stage.retryCount

theorem Executable.of_valid
    (accepted : (validatePipeline pipeline.stages pipeline.edges).valid = true)
    (attempts : ∀ stage ∈ pipeline.stages, 0 ≤ stage.retryCount) : pipeline.Executable := by
  rcases (validatePipeline_valid_iff pipeline).mp accepted with ⟨wellLinked, runnable⟩
  constructor
  · exact runnable
  · intro edge member
    exact (wellLinked.ends edge member).2
  · exact wellLinked.stageIds
  · exact attempts

end Pipeline

namespace Runner

variable {pipeline : Pipeline} {runner : Runner}

structure Queued (pipeline : Pipeline) (completed : Finset StageId) (inDegree : StageId → ℤ)
    (readyQueue : List StageId) : Prop where
  nodup : readyQueue.Nodup
  ready : ∀ id ∈ readyQueue, id ∈ pipeline.stageIds ∧ inDegree id ≤ 0 ∧ id ∉ completed

/-- A runner in its stage loop. Only a stage that is tried again has failed. -/
structure Advancing (pipeline : Pipeline) (current : Option StageId) (runner : Runner) :
    Prop where
  running : runner.execution.status = .running
  failed : ∀ id ∈ runner.execution.failedStages, current.or runner.readyQueue.head? = some id
  traversal : ∃ expanded, Traversal pipeline ∅ expanded current
    runner.execution.completedStages runner.execution.failedStages runner.inDegree
    runner.readyQueue
  listed : runner.execution.completedStages ⊆ pipeline.stageIds.toFinset
  queued : Queued pipeline runner.execution.completedStages runner.inDegree runner.readyQueue
  apart : ∀ id, current = some id → id ∉ runner.readyQueue

structure TakenUp (pipeline : Pipeline) (stage : PipelineStage) (retryCount : Nat)
    (runner : Runner) : Prop where
  advancing : runner.Advancing pipeline (some stage.id)
  member : stage ∈ pipeline.stages
  pending : stage.id ∉ runner.execution.completedStages
  counted : runner.inDegree stage.id ≤ 0
  tried : runner.execution.retries stage.id = retryCount

/-- The attempts that have begun and those that have failed, while the current attempt goes on
or has failed. -/
structure Tallied (pipeline : Pipeline) (current : Option StageId) (hasFailed : Bool)
    (execution : PipelineExecution) (attempts failures : List StageId) : Prop where
  limited : ∀ stage ∈ pipeline.stages, (execution.retries stage.id : ℤ) ≤ stage.retryCount
  pending : ∀ id, current = some id → id ∉ execution.completedStages
  attempted : ∀ id, attempts.count id = execution.retries id +
    if id ∈ execution.completedStages ∨ current = some id then 1 else 0
  failed : ∀ id, failures.count id = execution.retries id +
    if current = some id ∧ hasFailed = true then 1 else 0
  ready : ∀ id ∈ attempts, id ∈ pipeline.stageIds ∧
    ∀ source ∈ pipeline.reverseAdj id, source ∈ execution.completedStages

def Finished (pipeline : Pipeline) (execution : PipelineExecution)
    (attempts failures : List StageId) : Prop :=
  execution.status = .completed ∧ execution.completedStages = pipeline.stageIds.toFinset ∧
      Tallied pipeline none false execution attempts failures ∨
    execution.status = .failed ∧ ∃ stage ∈ pipeline.stages,
      stage.retryCount = execution.retries stage.id ∧
        Tallied pipeline (some stage.id) true execution attempts failures

/-- What a runner keeps, depending on what it awaits, together with the attempts. -/
def Smooth (pipeline : Pipeline) (runner : Runner) (attempts failures : List StageId) : Prop :=
  match runner.phase with
  | .created => runner = create {} ∧ attempts = [] ∧ failures = []
  | .started => runner.execution = PipelineExecution.start {} ∧ attempts = [] ∧ failures = []
  | .stageStarted stage retryCount =>
    runner.TakenUp pipeline stage retryCount ∧
      Tallied pipeline none false runner.execution attempts failures
  | .executing stage retryCount =>
    runner.TakenUp pipeline stage retryCount ∧
      Tallied pipeline (some stage.id) false runner.execution attempts failures
  | .stageCompleted stage _ =>
    runner.Advancing pipeline (some stage.id) ∧
      stage.id ∈ runner.execution.completedStages ∧ runner.execution.failedStages = ∅ ∧
      Tallied pipeline none false runner.execution attempts failures
  | .stageFailed stage retryCount =>
    runner.TakenUp pipeline stage retryCount ∧ stage.id ∈ runner.execution.failedStages ∧
      Tallied pipeline (some stage.id) true runner.execution attempts failures
  | .retrySleep stage =>
    runner.TakenUp pipeline stage (runner.execution.retries stage.id) ∧
      stage.id ∈ runner.execution.failedStages ∧
      (runner.execution.retries stage.id : ℤ) < stage.retryCount ∧
      Tallied pipeline (some stage.id) true runner.execution attempts failures
  | .finished | .done => Finished pipeline runner.execution attempts failures
  | .spinning | .crashed | .cancelling => False

/-- A bound on the continuations until the end of the task: three for each open stage. -/
def remaining (pipeline : Pipeline) (runner : Runner) : Nat :=
  let stages := (pipeline.openStages runner.execution.completedStages).card
  match runner.phase with
  | .created | .stageFailed _ _ => 3 * stages + 3
  | .started | .stageCompleted _ _ | .retrySleep _ => 3 * stages + 2
  | .stageStarted _ _ => 3 * stages + 1
  | .executing _ _ => 3 * stages
  | .finished => 1
  | .spinning | .crashed | .cancelling | .done => 0

/-! ## The queue -/

theorem Queued.release {target : StageId} (listed : target ∈ pipeline.stageIds)
    (queued : Queued pipeline runner.execution.completedStages runner.inDegree runner.readyQueue) :
    Queued pipeline runner.execution.completedStages (runner.release target).inDegree
      (runner.release target).readyQueue := by
  have degree : ∀ id, (runner.release target).inDegree id ≤ runner.inDegree id := by
    intro id
    change Function.update runner.inDegree target (runner.inDegree target - 1) id ≤
      runner.inDegree id
    by_cases same : id = target
    · subst same
      rw [Function.update_self]
      omega
    · rw [Function.update_of_ne same]
  have old : ∀ id ∈ runner.readyQueue, id ∈ pipeline.stageIds ∧
      (runner.release target).inDegree id ≤ 0 ∧ id ∉ runner.execution.completedStages := by
    intro id member
    have ready := queued.ready id member
    exact ⟨ready.1, (degree id).trans ready.2.1, ready.2.2⟩
  by_cases ready : (runner.release target).inDegree target ≤ 0 ∧
      target ∉ runner.execution.completedStages ∧ target ∉ runner.readyQueue
  · have appended : (runner.release target).readyQueue = runner.readyQueue ++ [target] :=
      if_pos ready
    rw [appended]
    constructor
    · exact queued.nodup.append (nodup_singleton target) (disjoint_singleton.mpr ready.2.2)
    · rw [forall_mem_append, forall_mem_singleton]
      exact ⟨old, listed, ready.1, ready.2.1⟩
  · have unchanged : (runner.release target).readyQueue = runner.readyQueue := if_neg ready
    rw [unchanged]
    exact ⟨queued.nodup, old⟩

theorem Queued.foldl_release (targets : List StageId)
    (listed : ∀ target ∈ targets, target ∈ pipeline.stageIds)
    (queued : Queued pipeline runner.execution.completedStages runner.inDegree runner.readyQueue) :
    Queued pipeline runner.execution.completedStages (targets.foldl Runner.release runner).inDegree
      (targets.foldl Runner.release runner).readyQueue := by
  induction targets generalizing runner with
  | nil => exact queued
  | cons target targets ih =>
    obtain ⟨first, later⟩ := forall_mem_cons.mp listed
    exact @ih (runner.release target) later (queued.release first)

theorem Advancing.expand (executable : pipeline.Executable) {id : StageId}
    (advancing : runner.Advancing pipeline (some id))
    (completed : id ∈ runner.execution.completedStages)
    (unfailed : runner.execution.failedStages = ∅) :
    (runner.expand pipeline id).Advancing pipeline none := by
  have unchanged : (runner.expand pipeline id).execution = runner.execution :=
    runner.foldl_release_execution _
  have targets : ∀ target ∈ pipeline.adj id, target ∈ pipeline.stageIds := by
    intro target into
    rcases mem_map.mp into with ⟨edge, kept, rfl⟩
    exact executable.targets edge (mem_filter.mp kept).1
  rcases advancing.traversal with ⟨expanded, traversal⟩
  constructor
  · rw [unchanged]
    exact advancing.running
  · rw [unchanged, unfailed]
    exact fun id impossible => absurd impossible (Finset.notMem_empty id)
  · rw [unchanged]
    exact ⟨_, Traversal.expand runner traversal completed⟩
  · rw [unchanged]
    exact advancing.listed
  · rw [unchanged]
    exact advancing.queued.foldl_release _ targets
  · nofun

theorem Advancing.sources {current : Option StageId} (advancing : runner.Advancing pipeline current)
    {id : StageId} (counted : runner.inDegree id ≤ 0) :
    ∀ source ∈ pipeline.reverseAdj id, source ∈ runner.execution.completedStages := by
  rcases advancing.traversal with ⟨expanded, traversal⟩
  rw [traversal.degrees] at counted
  have bound : pipeline.inDegree id ≤ pipeline.degreeFrom expanded id := by omega
  intro source into
  exact traversal.expanded_subset (Pipeline.sources_of_inDegree_le bound source into)

section

variable {execution : PipelineExecution} {attempts failures : List StageId} {id : StageId}

theorem Tallied.attempt (tallied : Tallied pipeline none false execution attempts failures)
    (listed : id ∈ pipeline.stageIds) (pending : id ∉ execution.completedStages)
    (sources : ∀ source ∈ pipeline.reverseAdj id, source ∈ execution.completedStages) :
    Tallied pipeline (some id) false execution (attempts ++ [id]) failures where
  limited := tallied.limited
  pending := by
    rintro _ ⟨⟩
    exact pending
  attempted := by
    intro other
    rw [count_append, count_singleton, tallied.attempted]
    by_cases same : id = other
    · simp [← same, pending]
    · simp [same]
  failed := by
    intro other
    simp [tallied.failed]
  ready := by
    rw [forall_mem_append, forall_mem_singleton]
    exact ⟨tallied.ready, listed, sources⟩

theorem Tallied.complete (tallied : Tallied pipeline (some id) false execution attempts failures) :
    Tallied pipeline none false (execution.completeStage id) attempts failures where
  limited := tallied.limited
  pending := nofun
  attempted := by
    intro other
    change _ = execution.retries other +
      if other ∈ insert id execution.completedStages ∨ none = some other then 1 else 0
    rw [tallied.attempted]
    simp [or_comm, eq_comm]
  failed := by
    intro other
    have failed := tallied.failed other
    rw [if_neg (by simp)] at failed ⊢
    exact failed
  ready := by
    intro other begun
    have ready := tallied.ready other begun
    exact ⟨ready.1, fun source into => Finset.mem_insert_of_mem (ready.2 source into)⟩

theorem Tallied.fail (tallied : Tallied pipeline (some id) false execution attempts failures)
    (error : String) :
    Tallied pipeline (some id) true (execution.failStage id error) attempts (failures ++ [id]) where
  limited := tallied.limited
  pending := tallied.pending
  attempted := tallied.attempted
  failed := by
    intro other
    rw [count_append, tallied.failed, count_singleton]
    simp [PipelineExecution.retries, PipelineExecution.failStage]
  ready := tallied.ready

theorem Tallied.retry (executable : pipeline.Executable) {stage : PipelineStage}
    (member : stage ∈ pipeline.stages)
    (tallied : Tallied pipeline (some stage.id) true execution attempts failures)
    (left : (execution.retries stage.id : ℤ) < stage.retryCount) :
    Tallied pipeline none false (execution.incrementRetry stage.id) attempts failures where
  limited := by
    intro other listed
    rw [execution.retries_incrementRetry]
    split
    next same =>
      rw [inj_on_of_nodup_map executable.distinct listed member same]
      omega
    next => exact tallied.limited other listed
  pending := nofun
  attempted := by
    intro other
    have pending := tallied.pending stage.id rfl
    rw [tallied.attempted, execution.retries_incrementRetry]
    by_cases same : other = stage.id
    · simp [same, PipelineExecution.incrementRetry, pending]
    · simp [same, Ne.symm same, PipelineExecution.incrementRetry]
  failed := by
    intro other
    rw [tallied.failed, execution.retries_incrementRetry]
    by_cases same : other = stage.id
    · simp [same]
    · simp [same, Ne.symm same]
  ready := tallied.ready

section

variable {current : Option StageId} {hasFailed : Bool} {stage : PipelineStage}
  (tallied : Tallied pipeline current hasFailed execution attempts failures)
include tallied

theorem Tallied.count_failures_le (id : StageId) : failures.count id ≤ attempts.count id := by
  rw [tallied.failed, tallied.attempted]
  apply Nat.add_le_add_left
  split
  next both => rw [if_pos (.inr both.1)]
  next => exact Nat.zero_le _

theorem Tallied.count_attempts_le (member : stage ∈ pipeline.stages) :
    (attempts.count stage.id : ℤ) ≤ stage.retryCount + 1 := by
  have limited := tallied.limited stage member
  rw [tallied.attempted]
  split
  · omega
  · omega

theorem Tallied.not_completed (member : stage ∈ pipeline.stages)
    (exhausted : (failures.count stage.id : ℤ) = stage.retryCount + 1) :
    stage.id ∉ execution.completedStages := by
  have limited := tallied.limited stage member
  rw [tallied.failed] at exhausted
  split at exhausted
  next both => exact tallied.pending stage.id both.1
  next => omega

theorem Tallied.closed (completed : id ∈ execution.completedStages) :
    ∀ source ∈ pipeline.reverseAdj id, source ∈ execution.completedStages := by
  have begun := tallied.attempted id
  rw [if_pos (.inl completed)] at begun
  exact (tallied.ready id (count_pos_iff.mp (by omega))).2

end

end

structure Continues (pipeline : Pipeline) (attempts failures : List StageId) (bound : Nat)
    (result : PipelineExecution × Runner) : Prop where
  stored : result.1 = result.2.execution
  smooth : result.2.Smooth pipeline (attempts ++ result.2.executing) failures
  remaining : result.2.remaining pipeline ≤ bound

variable {attempts failures : List StageId}

theorem Continues.quiet {bound : Nat} {result : PipelineExecution × Runner}
    (idle : result.2.executing = []) (stored : result.1 = result.2.execution)
    (smooth : result.2.Smooth pipeline attempts failures)
    (remaining : result.2.remaining pipeline ≤ bound) :
    Continues pipeline attempts failures bound result := by
  refine ⟨stored, ?_, remaining⟩
  rw [idle, append_nil]
  exact smooth

/-! ## The stage loop -/

/-- Behind the loop every stage is completed. -/
theorem Advancing.finalize (executable : pipeline.Executable)
    (advancing : { runner with readyQueue := [] }.Advancing pipeline none)
    (tallied : Tallied pipeline none false runner.execution attempts failures) :
    Continues pipeline attempts failures 1
      (finalize runner.execution { runner with readyQueue := [] }) := by
  have running : runner.execution.status = .running := advancing.running
  have unfailed : runner.execution.failedStages = ∅ :=
    Finset.eq_empty_of_forall_notMem fun id failed => nomatch advancing.failed id failed
  rcases advancing.traversal with ⟨expanded, traversal⟩
  rw [unfailed] at traversal
  have all : runner.execution.completedStages = pipeline.stageIds.toFinset := by
    apply Finset.Subset.antisymm advancing.listed
    intro id member
    have listed := mem_toFinset.mp member
    exact traversal.completed_of_runnable (executable.runnable id listed)
  rw [Runner.finalize, if_pos running, unfailed, if_neg Finset.not_nonempty_empty]
  exact .quiet rfl rfl (Or.inl ⟨rfl, all, { tallied with }⟩) (Nat.le_refl 1)

theorem Advancing.loop (runner : Runner) (executable : pipeline.Executable)
    (queue : List StageId)
    (advancing : { runner with readyQueue := queue }.Advancing pipeline none)
    (tallied : Tallied pipeline none false runner.execution attempts failures) :
    Continues pipeline attempts failures
      (3 * (pipeline.openStages runner.execution.completedStages).card + 1)
      (runner.loop pipeline runner.execution queue) := by
  cases queue with
  | nil =>
    have finished := advancing.finalize executable tallied
    exact ⟨finished.stored, finished.smooth, finished.remaining.trans (by omega)⟩
  | cons id rest =>
    obtain ⟨⟨listed, counted, pending⟩, later⟩ := forall_mem_cons.mp advancing.queued.ready
    have distinct := nodup_cons.mp advancing.queued.nodup
    have sources := advancing.sources counted
    rcases Pipeline.stageMap_of_mem listed with ⟨stage, member, found⟩
    have sameId := Pipeline.id_of_stageMap found
    subst sameId
    rcases advancing.traversal with ⟨expanded, traversal⟩
    have taken : ({ runner with readyQueue := rest } : Runner).Advancing pipeline
        (some stage.id) :=
      { advancing with
        traversal := ⟨expanded, traversal.take pending⟩
        queued := ⟨distinct.2, later⟩
        apart := by
          rintro _ ⟨⟩
          exact distinct.1 }
    rw [Runner.loop, if_neg (not_not.mpr advancing.running), if_neg pending, found]
    dsimp only
    rw [if_neg (not_not.mpr sources), if_neg (not_lt.mpr (tallied.limited stage member))]
    exact .quiet rfl rfl ⟨⟨{ taken with }, member, pending, counted, rfl⟩, { tallied with }⟩
      (Nat.le_refl _)

section

variable {stage : PipelineStage} {retryCount : Nat}
  (takenUp : runner.TakenUp pipeline stage retryCount)
include takenUp

theorem TakenUp.complete (phase : Phase) :
    { runner with execution := runner.execution.completeStage stage.id, phase }.Advancing pipeline
      (some stage.id) := by
  have advancing := takenUp.advancing
  rcases advancing.traversal with ⟨expanded, traversal⟩
  exact
    { advancing with
      failed := fun id member => advancing.failed id (Finset.mem_of_mem_erase member)
      traversal := ⟨expanded, traversal.complete⟩
      listed := Finset.insert_subset
        (mem_toFinset.mpr (mem_map_of_mem takenUp.member)) advancing.listed
      queued := by
        refine ⟨advancing.queued.nodup, fun id member => ?_⟩
        have ready := advancing.queued.ready id member
        refine ⟨ready.1, ready.2.1, fun completed => ?_⟩
        rcases Finset.mem_insert.mp completed with rfl | before
        · exact advancing.apart _ rfl member
        · exact ready.2.2 before }

theorem TakenUp.unfailed : runner.execution.failedStages.erase stage.id = ∅ :=
  Finset.eq_empty_of_forall_notMem fun id member =>
    Finset.ne_of_mem_erase member
      (Option.some.inj (takenUp.advancing.failed id (Finset.mem_of_mem_erase member))).symm

theorem TakenUp.fail (error : String) (phase : Phase) :
    { runner with execution := runner.execution.failStage stage.id error, phase }.TakenUp pipeline
      stage retryCount := by
  have advancing := takenUp.advancing
  rcases advancing.traversal with ⟨expanded, traversal⟩
  exact
    { takenUp with
      advancing :=
        { advancing with
          failed := by
            intro id member
            rcases Finset.mem_insert.mp member with rfl | before
            · rfl
            · exact advancing.failed id before
          traversal := ⟨expanded, traversal.fail stage.id⟩ } }

theorem TakenUp.retry (failed : stage.id ∈ runner.execution.failedStages) :
    { runner with
      execution := runner.execution.incrementRetry stage.id
      readyQueue := stage.id :: runner.readyQueue }.Advancing pipeline none := by
  have advancing := takenUp.advancing
  rcases advancing.traversal with ⟨expanded, traversal⟩
  exact
    { advancing with
      traversal := ⟨expanded, traversal.retry failed⟩
      queued := by
        refine ⟨nodup_cons.mpr ⟨advancing.apart _ rfl, advancing.queued.nodup⟩, ?_⟩
        refine forall_mem_cons.mpr ⟨⟨?_, takenUp.counted, takenUp.pending⟩, ?_⟩
        · exact mem_map_of_mem takenUp.member
        · exact advancing.queued.ready
      apart := nofun }

end

theorem Advancing.enter (executable : pipeline.Executable)
    (started : runner.execution = PipelineExecution.start {}) :
    { runner with
      inDegree := pipeline.inDegree
      readyQueue := pipeline.stageIds.filter fun id => pipeline.inDegree id = 0 }.Advancing
      pipeline none := by
  have closed : pipeline.Closed ∅ := fun edge _ impossible =>
    absurd impossible (Finset.notMem_empty edge.fromStage)
  have completed : runner.execution.completedStages = ∅ := by rw [started]; rfl
  have failed : runner.execution.failedStages = ∅ := by rw [started]; rfl
  constructor
  · rw [started]
    rfl
  · rw [failed]
    exact fun id impossible => absurd impossible (Finset.notMem_empty id)
  · rw [completed, failed]
    exact ⟨∅, .enter closed⟩
  · rw [completed]
    exact Finset.empty_subset _
  · refine ⟨executable.distinct.filter _, fun id member => ?_⟩
    rw [completed]
    have parts := mem_filter.mp member
    exact ⟨parts.1, Int.le_of_eq (of_decide_eq_true parts.2), Finset.notMem_empty id⟩
  · nofun

theorem Tallied.enter (executable : pipeline.Executable) :
    Tallied pipeline none false (PipelineExecution.start {}) [] [] where
  limited := executable.attempts
  pending := nofun
  attempted := fun _ => rfl
  failed := fun _ => rfl
  ready := nofun

section

variable (executable : pipeline.Executable) (smooth : runner.Smooth pipeline attempts failures)
include executable smooth

theorem Smooth.proceed : Continues pipeline attempts failures (runner.remaining pipeline - 1)
      (runner.proceed pipeline runner.execution) := by
  rw [Smooth] at smooth
  rw [Runner.proceed, Runner.remaining]
  cases phase : runner.phase with
  | created =>
    rw [phase] at smooth
    rcases smooth with ⟨rfl, rfl, rfl⟩
    exact .quiet rfl rfl ⟨rfl, rfl, rfl⟩ (Nat.le_refl _)
  | started =>
    rw [phase] at smooth
    rcases smooth with ⟨started, rfl, rfl⟩
    have tallied := Tallied.enter executable
    rw [← started] at tallied
    exact Advancing.loop { runner with inDegree := pipeline.inDegree } executable _
      (.enter executable started) tallied
  | stageStarted stage retryCount =>
    rw [phase] at smooth
    obtain ⟨takenUp, tallied⟩ := smooth
    have sources := takenUp.advancing.sources takenUp.counted
    exact ⟨rfl, ⟨{ takenUp with advancing := { takenUp.advancing with } },
      tallied.attempt (mem_map_of_mem takenUp.member) takenUp.pending sources⟩, Nat.le_refl _⟩
  | executing stage retryCount =>
    rw [phase] at smooth
    obtain ⟨takenUp, tallied⟩ := smooth
    have fewer := Pipeline.card_openStages_insert (mem_map_of_mem takenUp.member) takenUp.pending
    refine .quiet rfl rfl ⟨takenUp.complete _, Finset.mem_insert_self _ _, takenUp.unfailed,
      tallied.complete⟩ ?_
    change 3 * (pipeline.openStages (insert stage.id runner.execution.completedStages)).card + 2 ≤ _
    dsimp only
    omega
  | stageCompleted stage retryCount =>
    rw [phase] at smooth
    obtain ⟨advancing, completed, unfailed, tallied⟩ := smooth
    have unchanged : (runner.expand pipeline stage.id).execution = runner.execution :=
      runner.foldl_release_execution _
    rw [← unchanged] at tallied
    have looped := Advancing.loop (runner.expand pipeline stage.id) executable _
      (advancing.expand executable completed unfailed) tallied
    rw [unchanged] at looped
    exact looped
  | stageFailed stage retryCount =>
    rw [phase] at smooth
    obtain ⟨takenUp, failed, tallied⟩ := smooth
    obtain rfl := takenUp.tried
    dsimp only
    split
    next left =>
      exact .quiet rfl rfl ⟨{ takenUp with advancing := { takenUp.advancing with } }, failed, left,
        { tallied with }⟩ (Nat.le_refl _)
    next used =>
      have most := tallied.limited stage takenUp.member
      rw [finalize, if_pos takenUp.advancing.running, if_pos ⟨_, failed⟩]
      refine .quiet rfl rfl (.inr ⟨rfl, stage, takenUp.member, ?_, { tallied with }⟩)
        (Nat.le_add_left 1 _)
      exact le_antisymm (not_lt.mp used) most
  | retrySleep stage =>
    rw [phase] at smooth
    obtain ⟨takenUp, failed, left, tallied⟩ := smooth
    exact Advancing.loop
      { runner with
        execution := runner.execution.incrementRetry stage.id
        phase := .retrySleep stage }
      executable _ { takenUp.retry failed with } (tallied.retry executable takenUp.member left)
  | finished | done =>
    rw [phase] at smooth
    exact .quiet rfl rfl smooth (Nat.zero_le _)
  | spinning | crashed | cancelling =>
    rw [phase] at smooth
    exact smooth.elim

omit executable in
theorem done_of_remaining (none : runner.remaining pipeline = 0) : runner.phase = .done := by
  rw [Smooth] at smooth
  rw [Runner.remaining] at none
  cases phase : runner.phase with
  | done => rfl
  | executing stage retryCount =>
    rw [phase] at smooth none
    have fewer := Pipeline.card_openStages_insert (mem_map_of_mem smooth.1.member) smooth.1.pending
    dsimp only at none
    omega
  | spinning | crashed | cancelling =>
    rw [phase] at smooth
    exact smooth.elim
  | created | started | stageStarted | stageCompleted | stageFailed | retrySleep | finished =>
    rw [phase] at none
    dsimp only at none
    omega

omit executable in
theorem Smooth.raise {stage : PipelineStage} {retryCount : Nat}
    (phase : runner.phase = .executing stage retryCount) (error : String) :
    Continues pipeline attempts (failures ++ [stage.id]) (runner.remaining pipeline + 3)
      (runner.raise runner.execution error) := by
  rw [Smooth, phase] at smooth
  rw [Runner.raise, Runner.remaining, phase]
  exact .quiet rfl rfl ⟨smooth.1.fail error _, Finset.mem_insert_self _ _, smooth.2.fail error⟩
    (Nat.le_refl _)

end

theorem Smooth.tallied (executable : pipeline.Executable)
    (smooth : runner.Smooth pipeline attempts failures) : ∃ current hasFailed,
      Tallied pipeline current hasFailed runner.execution attempts failures := by
  rw [Smooth] at smooth
  cases phase : runner.phase with
  | created | started =>
    rw [phase] at smooth
    obtain ⟨start, rfl, rfl⟩ := smooth
    rw [start]
    exact ⟨none, false, { Tallied.enter executable with }⟩
  | stageStarted | executing =>
    rw [phase] at smooth
    exact ⟨_, _, smooth.2⟩
  | stageCompleted | retrySleep =>
    rw [phase] at smooth
    exact ⟨_, _, smooth.2.2.2⟩
  | stageFailed =>
    rw [phase] at smooth
    exact ⟨_, _, smooth.2.2⟩
  | finished | done =>
    rw [phase] at smooth
    rcases smooth with ⟨-, -, tallied⟩ | ⟨-, stage, -, -, tallied⟩
    · exact ⟨_, _, tallied⟩
    · exact ⟨_, _, tallied⟩
  | spinning | crashed | cancelling =>
    rw [phase] at smooth
    exact smooth.elim

end Runner

namespace ExecutionPool

variable {pipeline : Pipeline} {answers : Nat → Option String}

/-- An uninterrupted run in the middle, with its only runner. -/
structure Undisturbed (pipeline : Pipeline) (answers : Nat → Option String) (steps : Nat)
    (runner : Runner) : Prop where
  alone : answered pipeline answers steps = { store := runner.execution, processes := [runner] }
  smooth : runner.Smooth pipeline (attempts pipeline answers steps)
    (failures pipeline answers steps)
  remaining : runner.phase = .done ∨ runner.remaining pipeline + steps ≤
    3 * pipeline.stages.length + 3 + 4 * (failures pipeline answers steps).length

theorem Undisturbed.next {steps : Nat} {runner : Runner}
    (undisturbed : Undisturbed pipeline answers steps runner)
    (result : PipelineExecution × Runner) (failed : List StageId)
    (next : answered pipeline answers (steps + 1) =
      { store := result.1, processes := [result.2] })
    (tally : failures pipeline answers (steps + 1) = failures pipeline answers steps ++ failed)
    (continues : Runner.Continues pipeline (attempts pipeline answers steps)
      (failures pipeline answers steps ++ failed)
      (runner.remaining pipeline + 4 * failed.length - 1) result)
    (idle : runner.phase = .done → failed = []) :
    Undisturbed pipeline answers (steps + 1) result.2 := by
  have begun : (answered pipeline answers (steps + 1)).executing = result.2.executing := by
    rw [next]
    exact flatMap_singleton _ _
  have smooth := continues.smooth
  have bound := continues.remaining
  rw [← begun, ← tally] at smooth
  refine ⟨by rw [next, continues.stored], smooth, ?_⟩
  rw [tally, length_append]
  by_cases ended : runner.phase = .done
  · left
    apply Runner.done_of_remaining smooth
    have none : runner.remaining pipeline = 0 := by rw [Runner.remaining, ended]
    rw [idle ended, none] at bound
    exact Nat.le_zero.mp bound
  · have before := undisturbed.remaining.resolve_left ended
    have goesOn : runner.remaining pipeline ≠ 0 := fun none =>
      ended (Runner.done_of_remaining undisturbed.smooth none)
    omega

theorem undisturbed_answered (executable : pipeline.Executable) (answers : Nat → Option String)
    (steps : Nat) : ∃ runner, Undisturbed pipeline answers steps runner := by
  induction steps with
  | zero =>
    refine ⟨.create {}, rfl, ⟨rfl, rfl, rfl⟩, .inr ?_⟩
    have few : (pipeline.openStages ∅).card ≤ pipeline.stages.length := by
      calc
        (pipeline.openStages ∅).card ≤ pipeline.stageIds.toFinset.card :=
          Finset.card_le_card Finset.sdiff_subset
        _ ≤ pipeline.stageIds.length := toFinset_card_le _
        _ = pipeline.stages.length := length_map _
    change 3 * (pipeline.openStages ∅).card + 3 ≤ _ + 4 * 0
    omega
  | succ steps ih =>
    rcases ih with ⟨runner, undisturbed⟩
    have executing : (answered pipeline answers steps).executing = runner.executing := by
      rw [undisturbed.alone]
      exact flatMap_singleton _ _
    have quiet (ok : (answered pipeline answers steps).outcome (answers steps) = .ok)
        (none : failures pipeline answers (steps + 1) = failures pipeline answers steps ++ []) :
        ∃ runner, Undisturbed pipeline answers (steps + 1) runner := by
      refine ⟨_, undisturbed.next (runner.proceed pipeline runner.execution) [] ?_ none ?_
        fun _ => rfl⟩
      · rw [answered, ok, undisturbed.alone]
        rfl
      · rw [append_nil]
        exact undisturbed.smooth.proceed executable
    cases answer : answers steps with
    | none => exact quiet (by rw [answer]; rfl) (by simp [failures, answer])
    | some error =>
      by_cases idle : runner.executing = []
      · refine quiet ?_ ?_
        · rw [answer, outcome, executing, if_pos idle]
        · simp [failures, answer, executing, idle]
      · obtain ⟨stage, retryCount, phase⟩ :
            ∃ stage retryCount, runner.phase = .executing stage retryCount := by
          rw [Runner.executing] at idle
          split at idle
          next stage retryCount phase => exact ⟨stage, retryCount, phase⟩
          next => exact absurd rfl idle
        have taken : runner.executing = [stage.id] := by rw [Runner.executing, phase]
        refine ⟨_, undisturbed.next (runner.raise runner.execution error) [stage.id] ?_ ?_ ?_ ?_⟩
        · rw [answered, answer, outcome, executing, if_neg idle, undisturbed.alone]
          rfl
        · simp [failures, answer, executing, taken]
        · exact undisturbed.smooth.raise phase error
        · rw [phase]
          nofun

theorem uninterrupted_succ (steps : Nat) : uninterrupted pipeline (steps + 1) =
      step pipeline (uninterrupted pipeline steps) (.next 0 .ok) := by
  rw [uninterrupted, replicate_succ', run_append]
  rfl

theorem answered_none (pipeline : Pipeline) (steps : Nat) :
    answered pipeline (fun _ => none) steps = uninterrupted pipeline steps ∧
      attempts pipeline (fun _ => none) steps = executed pipeline steps ∧
      failures pipeline (fun _ => none) steps = [] := by
  induction steps with
  | zero => exact ⟨rfl, rfl, rfl⟩
  | succ steps ih =>
    have next : answered pipeline (fun _ => none) (steps + 1) =
        uninterrupted pipeline (steps + 1) := by
      rw [uninterrupted_succ, ← ih.1]
      rfl
    refine ⟨next, ?_, ?_⟩
    · rw [attempts, next, ih.2.1]
      rfl
    · rw [failures, ih.2.2]
      rfl

theorem mem_attempts {steps : Nat} {id : StageId}
    (begun : id ∈ (answered pipeline answers steps).executing) :
    id ∈ attempts pipeline answers steps := by
  cases steps with
  | zero => exact begun
  | succ steps => exact mem_append_right _ begun

theorem Undisturbed.finished {steps : Nat} {runner : Runner}
    (undisturbed : Undisturbed pipeline answers steps runner)
    (enough : 3 * pipeline.stages.length + 3 + 4 * (failures pipeline answers steps).length ≤
      steps) : runner.phase = .done ∧ Runner.Finished pipeline runner.execution
      (attempts pipeline answers steps) (failures pipeline answers steps) := by
  have smooth := undisturbed.smooth
  have ended : runner.phase = .done := undisturbed.remaining.elim id fun bound =>
    Runner.done_of_remaining smooth (by omega)
  rw [Runner.Smooth, ended] at smooth
  exact ⟨ended, smooth⟩

/-- Every accepted pipeline whose stages all admit an attempt completes: each stage is
executed exactly once, after its sources have completed, and the task ends. -/
theorem completed_of_accepted (pipeline : Pipeline)
    (accepted : (validatePipeline pipeline.stages pipeline.edges).valid = true)
    (attempts : ∀ stage ∈ pipeline.stages, 0 ≤ stage.retryCount) (steps : Nat) :
    (executed pipeline steps).Nodup ∧
      (∀ id ∈ (uninterrupted pipeline steps).executing, ∀ source ∈ pipeline.reverseAdj id,
        source ∈ (uninterrupted pipeline steps).store.completedStages) ∧
      (3 * pipeline.stages.length + 3 ≤ steps →
        (uninterrupted pipeline steps).processes.map Runner.phase = [.done] ∧
          (uninterrupted pipeline steps).store.status = .completed ∧
          (uninterrupted pipeline steps).store.completedStages = pipeline.stageIds.toFinset ∧
          (executed pipeline steps).Perm pipeline.stageIds) := by
  have executable := Pipeline.Executable.of_valid accepted attempts
  rcases undisturbed_answered executable (fun _ => none) steps with ⟨runner, undisturbed⟩
  obtain ⟨current, hasFailed, tallied⟩ := undisturbed.smooth.tallied executable
  have begun := @mem_attempts pipeline (fun _ => none) steps
  have finished := undisturbed.finished
  have alone := undisturbed.alone
  rcases answered_none pipeline steps with ⟨run, tries, unfailed⟩
  rw [run] at alone begun
  rw [tries] at tallied begun finished
  rw [unfailed] at tallied finished
  rw [alone] at begun ⊢
  have nodup : (executed pipeline steps).Nodup := by
    rw [nodup_iff_count_le_one]
    intro id
    have never := tallied.failed id
    rw [tallied.attempted]
    rw [count_nil] at never
    split
    · omega
    · omega
  refine ⟨nodup, fun id now => (tallied.ready id (begun now)).2, fun enough => ?_⟩
  obtain ⟨ended, ⟨status, completed, tallied⟩ | ⟨-, stage, -, -, failing⟩⟩ := finished enough
  · refine ⟨by rw [map_singleton, ended], status, completed, ?_⟩
    apply perm_of_nodup_nodup_toFinset_eq nodup executable.distinct
    rw [← completed]
    ext id
    have once := tallied.attempted id
    have never := tallied.failed id
    rw [mem_toFinset, ← count_pos_iff, once]
    rw [if_neg nofun] at never
    by_cases done : id ∈ runner.execution.completedStages
    · simp [done]
    · simp [done, ← never]
  · simpa using failing.failed stage.id

/-- Two ways from `a` to `d`, one of them with a doubled edge. -/
def diamond : Pipeline where
  stages := [{ id := "d" }, { id := "a" }, { id := "b", retryCount := 2 }, { id := "c" }]
  edges :=
    [{ id := "ab", fromStage := "a", toStage := "b" },
      { id := "ac", fromStage := "a", toStage := "c" },
      { id := "bd", fromStage := "b", toStage := "d" },
      { id := "cd", fromStage := "c", toStage := "d" },
      { id := "cd again", fromStage := "c", toStage := "d" }]

theorem diamond_completes : (uninterrupted diamond 15).store.status = .completed ∧
      (executed diamond 15).Perm ["d", "a", "b", "c"] := by
  have completes := completed_of_accepted diamond (by decide +kernel) (by decide) 15
  rcases completes.2.2 (by decide) with ⟨-, status, -, order⟩
  exact ⟨status, order⟩

theorem uninterrupted_of_done {steps : Nat} {runner : Runner}
    (alone : (uninterrupted pipeline steps).processes = [runner])
    (ended : runner.phase = .done) (more : Nat) :
    uninterrupted pipeline (steps + more) = uninterrupted pipeline steps := by
  induction more with
  | zero => rfl
  | succ more ih =>
    have stays : (step pipeline (uninterrupted pipeline steps) (.next 0 .ok)) =
        uninterrupted pipeline steps := by
      cases current : uninterrupted pipeline steps with
      | mk store processes =>
        rw [current] at alone
        subst alone
        cases runner
        subst ended
        rfl
    rw [← Nat.add_assoc, uninterrupted_succ, ih, stays]

/-- A stage that admits no attempt. -/
def attemptless : Pipeline where
  stages := [{ id := "a", retryCount := -1 }]
  edges := []

/-- The pipeline is accepted, its only stage is never executed, and it never completes. -/
theorem attemptless_never_completes :
    (validatePipeline attemptless.stages attemptless.edges).valid = true ∧
      ∀ steps, executed attemptless steps = [] ∧
        (uninterrupted attemptless steps).store.status ≠ .completed := by
  have early : ∀ steps < 4, (uninterrupted attemptless steps).executing = [] ∧
      (uninterrupted attemptless steps).store.status ≠ .completed := by
    decide +kernel
  have ended : ((uninterrupted attemptless 3).processes.map Runner.phase) = [.done] := by
    decide +kernel
  rcases map_eq_singleton_iff.mp ended with ⟨runner, alone, over_⟩
  have every : ∀ steps, (uninterrupted attemptless steps).executing = [] ∧
      (uninterrupted attemptless steps).store.status ≠ .completed := by
    intro steps
    rcases Nat.lt_or_ge steps 4 with before | behind
    · exact early steps before
    · obtain ⟨more, rfl⟩ := Nat.exists_eq_add_of_le (Nat.le_of_succ_le behind)
      rw [uninterrupted_of_done alone over_]
      exact early 3 (by decide)
  constructor
  · decide +kernel
  · intro steps
    refine ⟨?_, (every steps).2⟩
    induction steps with
    | zero => exact (every 0).1
    | succ steps ih => rw [executed, ih, (every (steps + 1)).1, append_nil]

/-! ## Failures -/

/-- The executions of the stage have failed as often as it may be tried. -/
def Exhausted (pipeline : Pipeline) (answers : Nat → Option String) (steps : Nat)
    (stage : PipelineStage) : Prop :=
  ((failures pipeline answers steps).count stage.id : ℤ) = stage.retryCount + 1

theorem exists_length_failures_le (executable : pipeline.Executable)
    (answers : Nat → Option String) :
    ∃ most, ∀ steps, (failures pipeline answers steps).length ≤ most := by
  obtain ⟨most, limit⟩ := (pipeline.stages.map PipelineStage.retryCount).toFinset.exists_le
  refine ⟨pipeline.stageIds.toFinset.card * (most.toNat + 1), fun steps => ?_⟩
  obtain ⟨runner, undisturbed⟩ := undisturbed_answered executable answers steps
  obtain ⟨current, hasFailed, tallied⟩ := undisturbed.smooth.tallied executable
  have listed : ∀ id ∈ failures pipeline answers steps, id ∈ pipeline.stageIds := by
    intro id failed
    have begun := (count_pos_iff.mpr failed).trans_le (tallied.count_failures_le id)
    exact (tallied.ready id (count_pos_iff.mp begun)).1
  rw [← sum_toFinset_count_eq_length]
  have each : ∀ id ∈ (failures pipeline answers steps).toFinset,
      (failures pipeline answers steps).count id ≤ most.toNat + 1 := by
    intro id failed
    obtain ⟨stage, member, rfl⟩ := mem_map.mp (listed id (mem_toFinset.mp failed))
    have within := limit stage.retryCount (mem_toFinset.mpr (mem_map_of_mem member))
    have tried := tallied.count_attempts_le member
    have fewer := tallied.count_failures_le stage.id
    omega
  refine (Finset.sum_le_card_nsmul _ _ _ each).trans (Nat.mul_le_mul_right _ ?_)
  exact Finset.card_le_card fun id failed =>
    mem_toFinset.mpr (listed id (mem_toFinset.mp failed))

/-- A stage is tried once more than its retry count at most; the run ends, and fails exactly
if a stage has failed that often; and no stage behind such a stage is ever executed. -/
theorem failures_contained (pipeline : Pipeline)
    (accepted : (validatePipeline pipeline.stages pipeline.edges).valid = true)
    (allowed : ∀ stage ∈ pipeline.stages, 0 ≤ stage.retryCount) (answers : Nat → Option String) :
    (∀ steps, ∀ stage ∈ pipeline.stages,
      ((attempts pipeline answers steps).count stage.id : ℤ) ≤ stage.retryCount + 1) ∧
    (∃ last, ∀ steps, last ≤ steps →
      (answered pipeline answers steps).processes.map Runner.phase = [.done] ∧
        ((answered pipeline answers steps).store.status = .failed ∧
            (∃ stage ∈ pipeline.stages, Exhausted pipeline answers steps stage) ∨
          (answered pipeline answers steps).store.status = .completed ∧
            ¬ ∃ stage ∈ pipeline.stages, Exhausted pipeline answers steps stage)) ∧
    ∀ steps, ∀ stage ∈ pipeline.stages, Exhausted pipeline answers steps stage →
      ∀ id, Relation.TransGen (Dependencies.DependsOn pipeline.reverseAdj) id stage.id →
        ∀ later, id ∉ attempts pipeline answers later := by
  have executable := Pipeline.Executable.of_valid accepted allowed
  have undisturbed (steps : Nat) := undisturbed_answered executable answers steps
  refine ⟨fun steps stage member => ?_, ?_, ?_⟩
  · obtain ⟨runner, undisturbed⟩ := undisturbed steps
    obtain ⟨current, hasFailed, tallied⟩ := undisturbed.smooth.tallied executable
    exact tallied.count_attempts_le member
  · obtain ⟨most, bound⟩ := exists_length_failures_le executable answers
    refine ⟨3 * pipeline.stages.length + 3 + 4 * most, fun steps enough => ?_⟩
    obtain ⟨runner, undisturbed⟩ := undisturbed steps
    have few := bound steps
    obtain ⟨ended, ⟨status, completed, tallied⟩ | ⟨status, stage, member, used, tallied⟩⟩ :=
      undisturbed.finished (by omega)
    all_goals
      rw [undisturbed.alone]
      refine ⟨by rw [map_singleton, ended], ?_⟩
    · refine .inr ⟨status, ?_⟩
      rintro ⟨stage, member, exhausted⟩
      apply tallied.not_completed member exhausted
      rw [completed]
      exact mem_toFinset.mpr (mem_map_of_mem member)
    · refine .inl ⟨status, stage, member, ?_⟩
      rw [Exhausted, tallied.failed, if_pos ⟨rfl, rfl⟩, used]
      rfl
  · intro steps stage member exhausted id behind later begun
    obtain ⟨runner, undisturbed⟩ := undisturbed (max steps later)
    obtain ⟨current, hasFailed, tallied⟩ := undisturbed.smooth.tallied executable
    have stillBegun : id ∈ attempts pipeline answers (max steps later) :=
      (Nat.rel_of_forall_rel_succ_of_le (· <+: ·)
        (fun _ => prefix_append _ _ : ∀ steps, attempts pipeline answers steps <+: _)
        (le_max_right steps later)).subset begun
    have stillFailed := (Nat.rel_of_forall_rel_succ_of_le (· <+: ·)
      (fun _ => prefix_append _ _ : ∀ steps, failures pipeline answers steps <+: _)
      (le_max_left steps later)).sublist.count_le stage.id
    have most := tallied.count_attempts_le member
    have fewer := tallied.count_failures_le stage.id
    apply tallied.not_completed member
    · rw [Exhausted] at exhausted
      omega
    · exact Dependencies.of_transGen (fun _ => tallied.closed) (tallied.ready id stillBegun).2
        behind

/-- All attempts at `b` fail, so that `d` is never executed. -/
theorem diamond_contains :
    let answers := fun steps => if steps < 5 then none else some "error"
    (attempts diamond answers 30).count "b" = 3 ∧ "d" ∉ attempts diamond answers 30 := by
  refine ⟨by decide +kernel, ?_⟩
  refine (failures_contained diamond (by decide +kernel) (by decide) _).2.2 30
    { id := "b", retryCount := 2 } (by decide) ?_ "d" (.single ?_) 30
  · unfold Exhausted
    decide +kernel
  · unfold Dependencies.DependsOn
    decide

end ExecutionPool

end AgenticOS.Pipelines
