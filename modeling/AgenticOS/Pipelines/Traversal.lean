import AgenticOS.Pipelines.Runner

/-!
# What a runner traverses

A runner reaches a stage through the edges from the stages it completed itself: only
these are counted down. Stages that were already completed when it started are skipped,
together with the edges out of them. `Traversal` records this bookkeeping; at an empty
ready queue without failed stages it decides which stages are completed.
-/

namespace AgenticOS.Pipelines

open List

namespace Pipeline

variable (pipeline : Pipeline)

/-- Stages whose edges all come from runnable stages. Stages on a cycle, behind a cycle
or behind an id of no stage are not runnable. -/
inductive Runnable : StageId → Prop
  | intro (id : StageId) (listed : id ∈ pipeline.stageIds)
      (sources : ∀ source ∈ pipeline.reverseAdj id, Runnable source) : Runnable id

def Admits (id : StageId) : Prop :=
  ∃ stage, pipeline.stageMap id = some stage ∧ 0 ≤ stage.retryCount

/-- Nothing keeps an undisturbed execution from ending without a failure: the runnable
stages admit an attempt, and what becomes ready behind them is a stage. -/
def Completable : Prop :=
  (∀ id, pipeline.Runnable id → pipeline.Admits id) ∧
    ∀ edge ∈ pipeline.edges,
      (∀ source ∈ pipeline.reverseAdj edge.toStage, pipeline.Runnable source) →
        edge.toStage ∈ pipeline.stageIds

def Orderly : Prop :=
  pipeline.Completable → ∀ id ∈ pipeline.stageIds, pipeline.Runnable id

/-- No edge leads out of the set. -/
def Closed (stages : Finset StageId) : Prop :=
  ∀ edge ∈ pipeline.edges, edge.fromStage ∈ stages → edge.toStage ∈ stages
deriving Decidable

def degreeFrom (stages : Finset StageId) (id : StageId) : ℤ :=
  pipeline.edges.countP fun edge => edge.toStage = id ∧ edge.fromStage ∈ stages

variable {pipeline}

theorem degreeFrom_empty (id : StageId) : pipeline.degreeFrom ∅ id = 0 := by
  unfold degreeFrom
  simp

variable {stages : Finset StageId}

theorem degreeFrom_insert {source : StageId} (fresh : source ∉ stages) (id : StageId) :
    pipeline.degreeFrom (insert source stages) id =
      pipeline.degreeFrom stages id + (pipeline.adj source).count id := by
  unfold degreeFrom adj
  rw [← Int.natCast_add, Int.natCast_inj]
  induction pipeline.edges with
  | nil => rfl
  | cons edge edges ih =>
    rw [countP_cons, countP_cons, ih]
    by_cases leaves : edge.fromStage = source
    · subst leaves
      by_cases enters : edge.toStage = id
      · simp [enters, fresh]
        omega
      · simp [enters]
    · by_cases enters : edge.toStage = id
      · simp [leaves, enters]
        omega
      · simp [leaves, enters]

theorem degreeFrom_eq_inDegree {id : StageId}
    (sources : ∀ source ∈ pipeline.reverseAdj id, source ∈ stages) :
    pipeline.degreeFrom stages id = pipeline.inDegree id := by
  unfold degreeFrom inDegree
  congr 1
  apply countP_congr
  intro edge member
  have counted : edge.toStage = id → edge.fromStage ∈ stages := fun enters =>
    sources edge.fromStage (mem_reverseAdj_iff.mpr ⟨edge, member, rfl, enters⟩)
  simpa using counted

theorem inDegree_nonneg (id : StageId) : 0 ≤ pipeline.inDegree id :=
  Int.natCast_nonneg _

theorem inDegree_pos_of_edge {edge : PipelineEdge} (member : edge ∈ pipeline.edges) :
    0 < pipeline.inDegree edge.toStage := by
  unfold inDegree
  have counted := countP_pos_iff (p := fun other => other.toStage = edge.toStage) |>.mpr
    ⟨edge, member, by simp⟩
  exact_mod_cast counted

theorem sources_of_inDegree_le {id : StageId}
    (counted : pipeline.inDegree id ≤ pipeline.degreeFrom stages id) :
    ∀ source ∈ pipeline.reverseAdj id, source ∈ stages := by
  intro source into
  by_contra outside
  rcases mem_reverseAdj_iff.mp into with ⟨edge, member, rfl, rfl⟩
  -- Count the edges into the stage by whether they come from the set.
  have split := countP_eq_countP_filter_add pipeline.edges
    (fun other => other.toStage = edge.toStage) (fun other => other.fromStage ∈ stages)
  have inside : (pipeline.edges.filter fun other => other.fromStage ∈ stages).countP
      (fun other => other.toStage = edge.toStage) =
      pipeline.edges.countP fun other =>
        other.toStage = edge.toStage ∧ other.fromStage ∈ stages := by
    rw [countP_filter]
    apply countP_congr
    simp
  have missed : 0 < (pipeline.edges.filter fun other => !decide (other.fromStage ∈ stages)).countP
      (fun other => other.toStage = edge.toStage) := by
    apply countP_pos_iff.mpr
    exact ⟨edge, mem_filter.mpr ⟨member, by simpa using outside⟩, by simp⟩
  have total : pipeline.inDegree edge.toStage =
      pipeline.edges.countP fun other => other.toStage = edge.toStage := rfl
  have partial_ : pipeline.degreeFrom stages edge.toStage =
      pipeline.edges.countP fun other =>
        other.toStage = edge.toStage ∧ other.fromStage ∈ stages := rfl
  omega

theorem foldl_countdown {σ : Type*} {step : σ → StageId → σ} {degree : σ → StageId → ℤ}
    (counts : ∀ state target, degree (step state target) =
      Function.update (degree state) target (degree state target - 1))
    (targets : List StageId) (state : σ) (id : StageId) :
    degree (targets.foldl step state) id = degree state id - targets.count id := by
  induction targets generalizing state with
  | nil => simp
  | cons target targets ih =>
    rw [foldl_cons, ih, count_cons, counts]
    by_cases same : target = id
    · subst same
      simp
      omega
    · rw [Function.update_of_ne (.symm same)]
      simp [same]

theorem Closed.source_cases {base : Finset StageId} (closed : pipeline.Closed base)
    {id source : StageId} (outside : id ∉ base) (edge : source ∈ pipeline.reverseAdj id) :
    source ∉ base := by
  rcases mem_reverseAdj_iff.mp edge with ⟨between, member, rfl, rfl⟩
  intro inside
  exact outside (closed between member inside)

end Pipeline

/-- The bookkeeping of a runner that started with the stages `base` completed, has
expanded the stages `expanded`, and is at the stage `current`. -/
structure Traversal (pipeline : Pipeline) (base expanded : Finset StageId)
    (current : Option StageId) (completed failed : Finset StageId)
    (inDegree : StageId → ℤ) (readyQueue : List StageId) : Prop where
  closed : pipeline.Closed base
  base_subset : base ⊆ completed
  expanded_subset : expanded ⊆ completed
  covered : ∀ id ∈ completed, id ∈ base ∨ id ∈ expanded ∨ id ∈ failed ∨ current = some id
  degrees : ∀ id, inDegree id = pipeline.inDegree id - pipeline.degreeFrom expanded id
  accounted : ∀ id, id ∈ pipeline.stageIds ∨ 0 < pipeline.inDegree id →
    id ∈ completed ∨ id ∈ readyQueue ∨ 0 < inDegree id ∨ current = some id
  fresh : ∀ id, current = some id → id ∉ expanded

namespace Traversal

variable {pipeline : Pipeline} {base expanded completed failed : Finset StageId}
  {current : Option StageId} {inDegree : StageId → ℤ} {readyQueue rest : List StageId}
  {id : StageId}

/-- A runner enters the loop with the stages without edges into them in its queue. -/
theorem enter (closed : pipeline.Closed completed) :
    Traversal pipeline completed ∅ none completed failed pipeline.inDegree
      (pipeline.stageIds.filter fun id => pipeline.inDegree id = 0) where
  closed := closed
  base_subset := Finset.Subset.refl completed
  expanded_subset := Finset.empty_subset completed
  covered := fun _ member => .inl member
  degrees := fun id => by rw [Pipeline.degreeFrom_empty, sub_zero]
  accounted := by
    intro id known
    rcases lt_or_eq_of_le (pipeline.inDegree_nonneg id) with positive | zero
    · exact .inr (.inr (.inl positive))
    · have listed : id ∈ pipeline.stageIds := by
        rcases known with listed | positive
        · exact listed
        · omega
      exact .inr (.inl (mem_filter.mpr ⟨listed, decide_eq_true zero.symm⟩))
  fresh := fun _ impossible => by cases impossible

theorem skip (traversal : Traversal pipeline base expanded none completed failed inDegree
      (id :: rest)) (skipped : id ∈ completed) :
    Traversal pipeline base expanded none completed failed inDegree rest :=
  { traversal with
    accounted := by
      intro other known
      rcases traversal.accounted other known with done | queued | open_ | now
      · exact .inl done
      · rcases mem_cons.mp queued with rfl | later
        · exact .inl skipped
        · exact .inr (.inl later)
      · exact .inr (.inr (.inl open_))
      · cases now }

theorem requeue (traversal : Traversal pipeline base expanded current completed failed
      inDegree readyQueue) (subset : readyQueue ⊆ rest) :
    Traversal pipeline base expanded current completed failed inDegree rest :=
  { traversal with
    accounted := fun other known => (traversal.accounted other known).imp_right
      (.imp_left fun queued => subset queued) }

theorem take (traversal : Traversal pipeline base expanded none completed failed inDegree
      (id :: rest)) (pending : id ∉ completed) :
    Traversal pipeline base expanded (some id) completed failed inDegree rest :=
  { traversal with
    covered := by
      intro other member
      rcases traversal.covered other member with inBase | inExpanded | inFailed | now
      · exact .inl inBase
      · exact .inr (.inl inExpanded)
      · exact .inr (.inr (.inl inFailed))
      · cases now
    accounted := by
      intro other known
      rcases traversal.accounted other known with done | queued | open_ | now
      · exact .inl done
      · rcases mem_cons.mp queued with rfl | later
        · exact .inr (.inr (.inr rfl))
        · exact .inr (.inl later)
      · exact .inr (.inr (.inl open_))
      · cases now
    fresh := by
      intro other now inExpanded
      cases now
      exact pending (traversal.expanded_subset inExpanded) }

theorem complete (traversal : Traversal pipeline base expanded (some id) completed failed
      inDegree readyQueue) :
    Traversal pipeline base expanded (some id) (insert id completed) (failed.erase id)
      inDegree readyQueue where
  closed := traversal.closed
  base_subset := traversal.base_subset.trans (Finset.subset_insert id completed)
  expanded_subset := traversal.expanded_subset.trans (Finset.subset_insert id completed)
  covered := by
    intro other member
    by_cases same : id = other
    · exact .inr (.inr (.inr (congrArg some same)))
    · have before := Finset.mem_of_mem_insert_of_ne member (Ne.symm same)
      rcases traversal.covered other before with inBase | inExpanded | inFailed | now
      · exact .inl inBase
      · exact .inr (.inl inExpanded)
      · have kept := Finset.mem_erase_of_ne_of_mem (Ne.symm same) inFailed
        exact .inr (.inr (.inl kept))
      · exact .inr (.inr (.inr now))
  degrees := traversal.degrees
  accounted := by
    intro other known
    exact (traversal.accounted other known).imp_left Finset.mem_insert_of_mem
  fresh := traversal.fresh

theorem fail (traversal : Traversal pipeline base expanded current completed failed
      inDegree readyQueue) (id : StageId) :
    Traversal pipeline base expanded current completed (insert id failed) inDegree readyQueue :=
  { traversal with
    covered := fun other member => (traversal.covered other member).imp_right
      (Or.imp_right (Or.imp_left Finset.mem_insert_of_mem)) }

theorem retry (traversal : Traversal pipeline base expanded (some id) completed failed
      inDegree readyQueue) (hasFailed : id ∈ failed) :
    Traversal pipeline base expanded none completed failed inDegree (id :: readyQueue) :=
  { traversal with
    covered := by
      intro other member
      rcases traversal.covered other member with inBase | inExpanded | inFailed | now
      · exact .inl inBase
      · exact .inr (.inl inExpanded)
      · exact .inr (.inr (.inl inFailed))
      · cases now
        exact .inr (.inr (.inl hasFailed))
    accounted := by
      intro other known
      rcases traversal.accounted other known with done | queued | open_ | now
      · exact .inl done
      · exact .inr (.inl (mem_cons_of_mem id queued))
      · exact .inr (.inr (.inl open_))
      · cases now
        exact .inr (.inl mem_cons_self)
    fresh := fun _ impossible => by cases impossible }

section

variable (traversal : Traversal pipeline base expanded none completed ∅ inDegree [])
include traversal

/-- Behind the loop, an id with counted sources is completed. -/
theorem completed_of_sources (known : id ∈ pipeline.stageIds ∨ 0 < pipeline.inDegree id)
    (sources : ∀ source ∈ pipeline.reverseAdj id, source ∈ completed) : id ∈ completed := by
  by_cases inBase : id ∈ base
  · exact traversal.base_subset inBase
  have expandedSources : ∀ source ∈ pipeline.reverseAdj id, source ∈ expanded := by
    intro source edge
    have outside := traversal.closed.source_cases inBase edge
    rcases traversal.covered source (sources source edge) with inside | counted | never | now
    · exact absurd inside outside
    · exact counted
    · exact absurd never (Finset.notMem_empty source)
    · cases now
  have counted : inDegree id = 0 := by
    rw [traversal.degrees, Pipeline.degreeFrom_eq_inDegree expandedSources, sub_self]
  rcases traversal.accounted id known with done | queued | open_ | now
  · exact done
  · cases queued
  · omega
  · cases now

/-- Behind the loop, the runnable stages are completed. -/
theorem completed_of_runnable (runnable : pipeline.Runnable id) : id ∈ completed := by
  induction runnable with
  | intro id listed _ ih => exact traversal.completed_of_sources (.inl listed) ih

/-- Behind the loop, if every completed stage admitted an attempt, all stages of an
orderly pipeline are completed. -/
theorem all_completed (orderly : pipeline.Orderly)
    (admitted : ∀ id ∈ completed, pipeline.Admits id) :
    ∀ id ∈ pipeline.stageIds, id ∈ completed := by
  have completable : pipeline.Completable := by
    constructor
    · intro id runnable
      exact admitted id (traversal.completed_of_runnable runnable)
    · intro edge member runnable
      have done : edge.toStage ∈ completed :=
        traversal.completed_of_sources (.inr (Pipeline.inDegree_pos_of_edge member))
          fun source into => traversal.completed_of_runnable (runnable source into)
      rcases admitted edge.toStage done with ⟨stage, found, -⟩
      exact Pipeline.mem_stageIds_of_stageMap found
  intro id listed
  exact traversal.completed_of_runnable (orderly completable id listed)

end

end Traversal

/-! ## Expanding a completed stage -/

namespace Runner

variable (runner : Runner)

variable (targets : List StageId)

@[simp]
theorem foldl_release_execution : (targets.foldl release runner).execution = runner.execution := by
  induction targets generalizing runner with
  | nil => rfl
  | cons target targets ih =>
    rw [foldl_cons, ih]
    rfl

theorem foldl_release_inDegree (id : StageId) :
    (targets.foldl release runner).inDegree id = runner.inDegree id - targets.count id :=
  Pipeline.foldl_countdown (fun _ _ => rfl) targets runner id

/-- Counting down loses no stage: an id is completed, queued or has open edges. -/
theorem foldl_release_accounted {id : StageId}
    (accounted : id ∈ runner.execution.completedStages ∨ id ∈ runner.readyQueue ∨
      0 < runner.inDegree id) : id ∈ runner.execution.completedStages ∨
      id ∈ (targets.foldl release runner).readyQueue ∨
      0 < (targets.foldl release runner).inDegree id := by
  induction targets generalizing runner with
  | nil => exact accounted
  | cons target targets ih =>
    have next : id ∈ (runner.release target).execution.completedStages ∨
        id ∈ (runner.release target).readyQueue ∨
        0 < (runner.release target).inDegree id := by
      by_cases done : id ∈ runner.execution.completedStages
      · exact .inl done
      have queueGrows : runner.readyQueue ⊆ (runner.release target).readyQueue := by
        unfold release
        dsimp only
        split
        · exact subset_append_left runner.readyQueue [target]
        · exact fun _ member => member
      by_cases queued : id ∈ runner.readyQueue
      · exact .inr (.inl (queueGrows queued))
      have open_ : 0 < runner.inDegree id := (accounted.resolve_left done).resolve_left queued
      by_cases same : id = target
      · subst same
        by_cases closes : (runner.release id).inDegree id ≤ 0
        · have appended : (runner.release id).readyQueue = runner.readyQueue ++ [id] :=
            if_pos ⟨closes, done, queued⟩
          rw [appended]
          exact .inr (.inl (mem_append_right runner.readyQueue mem_cons_self))
        · exact .inr (.inr (not_le.mp closes))
      · have other : (runner.release target).inDegree id = runner.inDegree id :=
          Function.update_of_ne same _ _
        rw [other]
        exact .inr (.inr open_)
    exact ih (runner.release target) next

theorem Traversal.expand {pipeline : Pipeline} {base expanded : Finset StageId} {id : StageId}
    (traversal : Traversal pipeline base expanded (some id) runner.execution.completedStages
      runner.execution.failedStages runner.inDegree runner.readyQueue)
    (completed : id ∈ runner.execution.completedStages) :
    Traversal pipeline base (insert id expanded) none runner.execution.completedStages
      runner.execution.failedStages (runner.expand pipeline id).inDegree
      (runner.expand pipeline id).readyQueue where
  closed := traversal.closed
  base_subset := traversal.base_subset
  expanded_subset := Finset.insert_subset completed traversal.expanded_subset
  covered := by
    intro other member
    rcases traversal.covered other member with inBase | inExpanded | inFailed | now
    · exact .inl inBase
    · exact .inr (.inl (Finset.mem_insert_of_mem inExpanded))
    · exact .inr (.inr (.inl inFailed))
    · cases now
      exact .inr (.inl (Finset.mem_insert_self id expanded))
  degrees := by
    intro other
    have counted := runner.foldl_release_inDegree (pipeline.adj id) other
    have fresh := traversal.fresh id rfl
    rw [traversal.degrees] at counted
    rw [Pipeline.degreeFrom_insert fresh, ← sub_sub]
    exact counted
  accounted := by
    intro other known
    have before : other ∈ runner.execution.completedStages ∨ other ∈ runner.readyQueue ∨
        0 < runner.inDegree other := by
      rcases traversal.accounted other known with done | queued | open_ | now
      · exact .inl done
      · exact .inr (.inl queued)
      · exact .inr (.inr open_)
      · cases now
        exact .inl completed
    rcases runner.foldl_release_accounted (pipeline.adj id) before with done | queued | open_
    · exact .inl done
    · exact .inr (.inl queued)
    · exact .inr (.inr (.inl open_))
  fresh := fun _ impossible => by cases impossible

end Runner

end AgenticOS.Pipelines
