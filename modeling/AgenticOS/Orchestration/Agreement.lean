import AgenticOS.Orchestration.Coordination
import AgenticOS.Orchestration.Scheduler
import AgenticOS.Orchestration.Validation

/-!
# Validator, scheduler and hierarchical execution agree

Three traversals of the same dependencies: the validator searches depth first, the
scheduler and the hierarchical execution proceed in layers. In a plan without repeated
ids all three decide which tasks are resolvable.
-/

namespace AgenticOS.Orchestration

open AgenticOS.Dependencies OrchestrationPlan

variable {plan : OrchestrationPlan}

/-- Every task of the plan stands in the order exactly once, behind all its dependencies. -/
structure OrchestrationPlan.Orders (plan : OrchestrationPlan) (order : List AgentTask) :
    Prop where
  perm : order.Perm plan.subtasks
  topological : Topological plan.dependencies (order.map AgentTask.id)

/-- All transitive dependencies of a task lie in the plan and none is on a circle. -/
def OrchestrationPlan.Executable (plan : OrchestrationPlan) (id : TaskId) : Prop :=
  ∀ dep, Relation.ReflTransGen (Dependencies.DependsOn plan.dependencies) id dep →
    dep ∈ plan.taskIds ∧ ¬ Relation.TransGen (Dependencies.DependsOn plan.dependencies) dep dep

theorem OrchestrationPlan.resolvable_iff_executable {id : TaskId} :
    Resolvable plan.taskIds plan.dependencies id ↔ plan.Executable id :=
  resolvable_iff

variable (setOrder : SetOrder)

theorem mem_scheduleTasks_iff (distinct : plan.taskIds.Nodup) {task : AgentTask} :
    task ∈ scheduleTasks setOrder plan ↔ task ∈ plan.subtasks ∧ plan.Executable task.id := by
  obtain ⟨scheduling, ordered, sorted, stuck⟩ := exists_sorted setOrder distinct
  rw [← ordered, ← resolvable_iff_executable,
    ← sorted.layered.mem_done_iff stuck, ← sorted.ids]
  constructor
  · intro member
    exact ⟨sorted.listed task member, List.mem_map_of_mem member⟩
  · rintro ⟨member, scheduled⟩
    rcases List.mem_map.mp scheduled with ⟨other, otherMember, same⟩
    obtain rfl := eq_of_id_eq distinct
      (sorted.listed other otherMember) member same
    exact otherMember

theorem scheduleTasks_topological (distinct : plan.taskIds.Nodup) :
    ((scheduleTasks setOrder plan).map AgentTask.id).Nodup ∧
      Topological plan.dependencies ((scheduleTasks setOrder plan).map AgentTask.id) := by
  obtain ⟨scheduling, ordered, sorted, -⟩ := exists_sorted setOrder distinct
  rw [← ordered, sorted.ids]
  exact ⟨sorted.layered.nodup_done, sorted.layered.topological⟩

/-- The schedule is complete if and only if every task is executable. -/
theorem orders_scheduleTasks_iff (distinct : plan.taskIds.Nodup) :
    plan.Orders (scheduleTasks setOrder plan) ↔
      ∀ task ∈ plan.subtasks, plan.Executable task.id := by
  have scheduled := scheduleTasks_topological setOrder distinct
  constructor
  · intro orders task member
    have taken := orders.perm.mem_iff.mpr member
    exact ((mem_scheduleTasks_iff setOrder distinct).mp taken).2
  · intro all
    refine ⟨?_, scheduled.2⟩
    rw [List.perm_ext_iff_of_nodup scheduled.1.of_map distinct.of_map]
    intro task
    rw [mem_scheduleTasks_iff setOrder distinct]
    exact and_iff_left_of_imp (all task)

theorem forall_executable_iff : (∀ task ∈ plan.subtasks, plan.Executable task.id) ↔
      ∀ id ∈ plan.taskIds, Resolvable plan.taskIds plan.dependencies id := by
  simp only [resolvable_iff_executable]
  exact List.forall_mem_map.symm

/-- No task is deadlocked if and only if every task is executable. -/
theorem hierarchy_deadlocked_iff (agents : List AgentId) (outcomes : Nat → EngineOutcome)
    (distinct : plan.taskIds.Nodup) : (hierarchy agents outcomes plan.subtasks).deadlocked = [] ↔
      ∀ task ∈ plan.subtasks, plan.Executable task.id := by
  have settled := hierarchy_settled agents outcomes distinct
  rw [forall_executable_iff, ← settled.layered.remaining_eq_nil_iff settled.stuck,
    settled.deadlocked, List.map_eq_nil_iff]

/-- Whatever the order of sets and whatever the engines answer, a plan passes the validation
if and only if its schedule is complete, and if and only if its hierarchical execution
runs into no deadlock; and the schedule holds exactly the executable tasks. -/
theorem validator_scheduler_hierarchy_agree (nonempty : plan.subtasks ≠ [])
    (distinct : plan.taskIds.Nodup) (setOrder : SetOrder) (agents : List AgentId)
    (outcomes : Nat → EngineOutcome) :
    ((validatePlan plan).status = .passed ↔ plan.Orders (scheduleTasks setOrder plan)) ∧
      ((validatePlan plan).status = .passed ↔
        (hierarchy agents outcomes plan.subtasks).deadlocked = []) ∧
      ((scheduleTasks setOrder plan).map AgentTask.id).Nodup ∧
      ∀ task, task ∈ scheduleTasks setOrder plan ↔
        task ∈ plan.subtasks ∧ plan.Executable task.id := by
  have passed := validatePlan_passed_iff distinct nonempty
  rw [← forall_executable_iff] at passed
  refine ⟨?_, ?_, (scheduleTasks_topological setOrder distinct).1, ?_⟩
  · rw [passed, orders_scheduleTasks_iff setOrder distinct]
  · rw [passed, hierarchy_deadlocked_iff agents outcomes distinct]
  · intro task
    exact mem_scheduleTasks_iff setOrder distinct

/-- Three tasks, two of them on a circle. -/
def circularPlan : OrchestrationPlan where
  id := "plan"
  goalId := "goal"
  subtasks :=
    [{ id := "collect" }, { id := "draft", dependsOn := ["collect", "review"] },
      { id := "review", dependsOn := ["draft"] }]

theorem circularPlan_agrees : ((validatePlan circularPlan).status = .passed ↔
        circularPlan.Orders (scheduleTasks .insertion circularPlan)) ∧
      ((validatePlan circularPlan).status = .passed ↔
        (hierarchy [] (fun _ => .nothing) circularPlan.subtasks).deadlocked = []) ∧
      ((scheduleTasks .insertion circularPlan).map AgentTask.id).Nodup ∧
      ∀ task, task ∈ scheduleTasks .insertion circularPlan ↔
        task ∈ circularPlan.subtasks ∧ circularPlan.Executable task.id :=
  validator_scheduler_hierarchy_agree (by decide) (by decide) .insertion [] fun _ => .nothing

end AgenticOS.Orchestration
