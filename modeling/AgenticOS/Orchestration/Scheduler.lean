import AgenticOS.Data.Dependencies
import AgenticOS.Orchestration.Plan

/-!
# The swarm scheduler

`schedule_tasks` sorts the tasks of a plan topologically, in layers, and each layer by
priority. The ids that remain are kept in a set; the order in which a set is listed is
its own affair and may be another one in each turn.
-/

namespace AgenticOS.Orchestration

open AgenticOS.Dependencies OrchestrationPlan List

structure SetOrder where
  listing : Nat → List TaskId → List TaskId
  perm : ∀ turn set, (listing turn set).Perm set

def SetOrder.insertion : SetOrder where
  listing := fun _ set => set
  perm := fun _ set => .refl set

/-- Higher priorities stand first; tasks of equal priority keep their order. -/
def sortByPriority (tasks : List AgentTask) : List AgentTask :=
  tasks.mergeSort fun first second => second.priority ≤ first.priority

/-- The state of the topological sort. -/
structure Scheduling where
  completed : List TaskId
  ordered : List AgentTask
  remaining : List TaskId

namespace Scheduling

/-- Before the first turn. -/
def begin (plan : OrchestrationPlan) : Scheduling where
  completed := []
  ordered := []
  remaining := plan.taskIds.dedup

variable (setOrder : SetOrder) (plan : OrchestrationPlan)

/-- The tasks without open dependencies. -/
def ready (turn : Nat) (scheduling : Scheduling) : List AgentTask :=
  ((setOrder.listing turn scheduling.remaining).filterMap plan.taskMap).filter fun task =>
    ∀ dep ∈ task.dependsOn, dep ∈ scheduling.completed

def take (scheduling : Scheduling) (task : AgentTask) : Scheduling where
  completed := scheduling.completed ++ [task.id]
  ordered := scheduling.ordered ++ [task]
  remaining := scheduling.remaining.erase task.id

/-- The loop over the layers. The first argument bounds the number of turns. -/
def loop : Nat → Scheduling → Scheduling
  | 0, scheduling => scheduling
  | turns + 1, scheduling =>
    if scheduling.remaining = [] then scheduling
    else if scheduling.ready setOrder plan turns = [] then scheduling
    else
      loop turns ((sortByPriority (scheduling.ready setOrder plan turns)).foldl take scheduling)

end Scheduling

/-- The order that is stored for a plan. Each turn takes a task, so that one turn for each
task is enough. -/
def scheduleTasks (setOrder : SetOrder) (plan : OrchestrationPlan) : List AgentTask :=
  (Scheduling.loop setOrder plan plan.subtasks.length (.begin plan)).ordered

namespace Scheduling

variable {setOrder : SetOrder} {plan : OrchestrationPlan} {scheduling : Scheduling}

structure Sorted (plan : OrchestrationPlan) (scheduling : Scheduling) : Prop where
  layered : Layered plan.taskIds plan.dependencies scheduling.completed scheduling.remaining
  ids : scheduling.ordered.map AgentTask.id = scheduling.completed
  listed : ∀ task ∈ scheduling.ordered, task ∈ plan.subtasks

theorem Sorted.begin (distinct : plan.taskIds.Nodup) : Sorted plan (.begin plan) where
  layered := .begin distinct (by rw [Scheduling.begin, distinct.dedup])
  ids := rfl
  listed := by simp [Scheduling.begin]

theorem mem_ready_iff {turn : Nat} {task : AgentTask} : task ∈ scheduling.ready setOrder plan turn ↔
      task.id ∈ scheduling.remaining ∧ plan.taskMap task.id = some task ∧
        Ready (fun _ => task.dependsOn) scheduling.completed task.id := by
  simp only [ready, mem_filter, mem_filterMap, (setOrder.perm _ _).mem_iff, Ready,
    decide_eq_true_eq]
  constructor
  · rintro ⟨⟨id, waits, found⟩, open_⟩
    obtain rfl := id_of_taskMap found
    exact ⟨waits, found, open_⟩
  · rintro ⟨waits, found, open_⟩
    exact ⟨⟨task.id, waits, found⟩, open_⟩

theorem Sorted.mem_ready_ids_iff (sorted : Sorted plan scheduling) {turn : Nat} {id : TaskId} :
    id ∈ (scheduling.ready setOrder plan turn).map AgentTask.id ↔
      id ∈ scheduling.remaining ∧ Ready plan.dependencies scheduling.completed id := by
  constructor
  · intro member
    rcases mem_map.mp member with ⟨task, isReady, rfl⟩
    rcases mem_ready_iff.mp isReady with ⟨waits, found, done⟩
    refine ⟨waits, ?_⟩
    intro dep edge
    rw [dependencies, found] at edge
    exact done dep edge
  · rintro ⟨waits, done⟩
    have known := sorted.layered.mem_iff.mpr (.inr waits)
    obtain ⟨task, found⟩ := exists_taskMap known
    obtain rfl := id_of_taskMap found
    apply mem_map_of_mem
    apply mem_ready_iff.mpr
    refine ⟨waits, found, ?_⟩
    intro dep edge
    apply done dep
    rw [dependencies, found]
    exact edge

theorem Sorted.nodup_ready (sorted : Sorted plan scheduling) (turn : Nat) :
    ((scheduling.ready setOrder plan turn).map AgentTask.id).Nodup := by
  have nodup : (setOrder.listing turn scheduling.remaining).Nodup :=
    (setOrder.perm turn scheduling.remaining).nodup_iff.mpr sorted.layered.nodup_remaining
  have sublist : ((scheduling.ready setOrder plan turn).map AgentTask.id).Sublist
      (setOrder.listing turn scheduling.remaining) := by
    apply (filter_sublist.map AgentTask.id).trans
    generalize setOrder.listing turn scheduling.remaining = ids
    induction ids with
    | nil => simp
    | cons id ids ih =>
      cases found : plan.taskMap id with
      | none =>
        rw [filterMap_cons_none found]
        exact ih.trans (sublist_cons_self id ids)
      | some task =>
        rw [filterMap_cons_some found, map_cons, id_of_taskMap found]
        exact ih.cons_cons id
  exact nodup.sublist sublist

@[simp]
theorem foldl_take (batch : List AgentTask) (scheduling : Scheduling) :
    batch.foldl take scheduling =
      { completed := scheduling.completed ++ batch.map AgentTask.id
        ordered := scheduling.ordered ++ batch
        remaining := scheduling.remaining.diff (batch.map AgentTask.id) } := by
  induction batch generalizing scheduling with
  | nil => simp
  | cons task batch ih =>
    rw [foldl_cons, ih]
    simp [take]

theorem sortByPriority_perm (tasks : List AgentTask) : (sortByPriority tasks).Perm tasks :=
  mergeSort_perm tasks _

/-- One turn of the loop takes a layer. -/
theorem Sorted.turn (sorted : Sorted plan scheduling) (turn : Nat) :
    Sorted plan ((sortByPriority (scheduling.ready setOrder plan turn)).foldl take scheduling) := by
  have perm := sortByPriority_perm (scheduling.ready setOrder plan turn)
  have nodup := (perm.map AgentTask.id).nodup_iff.mpr (sorted.nodup_ready turn)
  have isReady : ∀ id ∈ (sortByPriority (scheduling.ready setOrder plan turn)).map AgentTask.id,
      id ∈ scheduling.remaining ∧ Ready plan.dependencies scheduling.completed id := by
    intro id member
    exact sorted.mem_ready_ids_iff.mp ((perm.map AgentTask.id).mem_iff.mp member)
  rw [foldl_take]
  constructor
  · apply sorted.layered.advance fun id member => (isReady id member).2
    exact subperm_append_diff_self_of_count_le
      (subperm_ext_iff.mp (nodup.subperm fun id member => (isReady id member).1))
  · simp [sorted.ids]
  · intro task member
    rcases mem_append.mp member with old | new
    · exact sorted.listed task old
    · have found := (mem_ready_iff.mp (perm.mem_iff.mp new)).2.1
      exact mem_of_taskMap found

theorem Sorted.loop (turns : Nat) (sorted : Sorted plan scheduling)
    (enough : scheduling.remaining.length ≤ turns) :
    Sorted plan (Scheduling.loop setOrder plan turns scheduling) ∧
      ∀ id ∈ (Scheduling.loop setOrder plan turns scheduling).remaining,
        ¬ Ready plan.dependencies (Scheduling.loop setOrder plan turns scheduling).completed
          id := by
  induction turns generalizing scheduling with
  | zero =>
    have empty : scheduling.remaining = [] := length_eq_zero_iff.mp (by omega)
    simp [Scheduling.loop, sorted, empty]
  | succ turns ih =>
    rw [Scheduling.loop]
    split
    next empty => simp [sorted, empty]
    next =>
      split
      next stuck =>
        refine ⟨sorted, ?_⟩
        intro id waits ready
        have member : id ∈ (scheduling.ready setOrder plan turns).map AgentTask.id :=
          sorted.mem_ready_ids_iff.mpr ⟨waits, ready⟩
        rw [stuck] at member
        exact not_mem_nil member
      next progress =>
        apply ih (sorted.turn turns)
        have perm := sortByPriority_perm (scheduling.ready setOrder plan turns)
        have turned : Sorted plan
            ((sortByPriority (scheduling.ready setOrder plan turns)).foldl take scheduling) :=
          sorted.turn turns
        have parts := turned.layered.partition.length_eq
        have before := sorted.layered.partition.length_eq
        have several := length_pos_iff.mpr progress
        rw [foldl_take] at parts ⊢
        simp only [length_append, length_map, perm.length_eq] at parts before ⊢
        omega

end Scheduling

variable {plan : OrchestrationPlan}

theorem exists_sorted (setOrder : SetOrder) (distinct : plan.taskIds.Nodup) :
    ∃ scheduling : Scheduling, scheduling.ordered = scheduleTasks setOrder plan ∧
      scheduling.Sorted plan ∧
      ∀ id ∈ scheduling.remaining, ¬ Ready plan.dependencies scheduling.completed id := by
  have enough : (Scheduling.begin plan).remaining.length ≤ plan.subtasks.length := by
    have shorter := (dedup_sublist plan.taskIds).length_le
    rw [taskIds, length_map] at shorter
    exact shorter
  exact ⟨_, rfl, (Scheduling.Sorted.begin distinct).loop _ enough⟩

end AgenticOS.Orchestration
