import AgenticOS.Orchestration.TaskOrchestrator.Completion
import AgenticOS.Transition.Pool
import AgenticOS.Transition.Run

/-!
# Cancelled goals

The calls of `execute_plan` share the store with `cancel_goal` and `assign_subtask`, which
change it at once. A call works on the plan and the goal that it read at its beginning and
writes both back, whatever has happened to them since; and a task is assigned whatever its
status is. A cancelled goal stays cancelled as long as neither happens to its plans.
-/

namespace AgenticOS.Orchestration

open AgenticOS.Transition List PlanExecution.Phase

namespace OrchestratorStore

variable {store : OrchestratorStore} {goalId : GoalId}

theorem mem_values_iff {plan : OrchestrationPlan} :
    plan ∈ store.plans.values ↔ store.plans.get? plan.id = some plan := by
  rw [Dict.mem_values_iff]
  constructor
  · rintro ⟨id, found⟩
    rw [store.keyed id plan found]
    exact found
  · intro found
    exact ⟨_, found⟩

def goalOf (store : OrchestratorStore) (id : PlanId) : Option GoalId :=
  (store.plans.get? id).map OrchestrationPlan.goalId

theorem goalOf_eq_some_iff {id : PlanId} {owner : GoalId} : store.goalOf id = some owner ↔
      ∃ plan, store.plans.get? id = some plan ∧ plan.goalId = owner := by
  simp [goalOf]

theorem goalOf_setPlan {plan : OrchestrationPlan}
    (owned : store.goalOf plan.id = some plan.goalId) :
    (store.setPlan plan).goalOf = store.goalOf := by
  funext id
  rw [goalOf, setPlan_plans]
  split
  next same => rw [same, owned, Option.map_some]
  next => rfl

section

variable (plans : List OrchestrationPlan) (store : OrchestratorStore)

theorem foldl_cancelPlan_goals : (plans.foldl (cancelPlan goalId) store).goals = store.goals := by
  induction plans generalizing store with
  | nil => rfl
  | cons plan plans ih =>
    rw [foldl_cons, ih, cancelPlan]
    split <;> rfl

theorem foldl_cancelPlan_plans (id : PlanId) {stored : Option OrchestrationPlan}
    (unique : ∀ plan ∈ plans, plan.id = id → stored = some plan)
    (current : store.plans.get? id = stored ∨
      store.plans.get? id = stored.map OrchestrationPlan.cancel) :
    (plans.foldl (cancelPlan goalId) store).plans.get? id =
      if ∃ plan ∈ plans, plan.id = id ∧ plan.goalId = goalId then
        stored.map OrchestrationPlan.cancel
      else store.plans.get? id := by
  induction plans generalizing store with
  | nil => simp
  | cons plan plans ih =>
    have later : ∀ other ∈ plans, other.id = id → stored = some other :=
      fun other member => unique other (mem_cons_of_mem plan member)
    rw [foldl_cons]
    by_cases here : plan.id = id ∧ plan.goalId = goalId
    · have found := unique plan mem_cons_self here.1
      have cancelled : (cancelPlan goalId store plan).plans.get? id =
          stored.map .cancel := by
        rw [cancelPlan, if_pos here.2, setPlan_plans, OrchestrationPlan.cancel_id,
          if_pos here.1.symm, found, Option.map_some]
      rw [ih _ later (.inr cancelled), cancelled, ite_self, if_pos ⟨plan, mem_cons_self, here⟩]
    · have kept : (cancelPlan goalId store plan).plans.get? id = store.plans.get? id := by
        rw [cancelPlan]
        split
        next owned =>
          have different : id ≠ plan.id := fun same => here ⟨same.symm, owned⟩
          rw [setPlan_plans, OrchestrationPlan.cancel_id, if_neg different]
        next => rfl
      rw [ih _ later (by rw [kept]; exact current), kept]
      simp only [exists_mem_cons_iff, here, false_or]

end

section

variable {goal : OrchestrationGoal} (found : store.goals.get? goalId = some goal)
include found

theorem cancelGoal_plans (id : PlanId) :
    (store.cancelGoal goalId).plans.get? id =
      (store.plans.get? id).map fun plan =>
        if plan.goalId = goalId then plan.cancel else plan := by
  have unique : ∀ plan ∈ store.plans.values, plan.id = id →
      store.plans.get? id = some plan := by
    rintro plan member rfl
    exact mem_values_iff.mp member
  simp only [cancelGoal, found]
  rw [foldl_cancelPlan_plans _ _ id unique (.inl (by rw [setGoal_plans])), setGoal_plans]
  cases stored : store.plans.get? id with
  | none =>
    have nowhere : ¬ ∃ plan ∈ store.plans.values, plan.id = id ∧ plan.goalId = goalId := by
      rintro ⟨plan, member, same, -⟩
      have present := unique plan member same
      rw [stored] at present
      cases present
    rw [if_neg nowhere]
    rfl
  | some plan =>
    obtain rfl := store.keyed id plan stored
    have owned : (∃ other ∈ store.plans.values, other.id = plan.id ∧ other.goalId = goalId) ↔
        plan.goalId = goalId := by
      constructor
      · rintro ⟨other, member, same, ofGoal⟩
        have present := unique other member same
        rw [stored] at present
        cases present
        exact ofGoal
      · intro ofGoal
        exact ⟨plan, mem_values_iff.mpr stored, rfl, ofGoal⟩
    simp only [owned, Option.map_some]
    split <;> rfl

theorem cancelGoal_goals (other : GoalId) : (store.cancelGoal goalId).goals.get? other =
      if other = goalId then some (goal.withStatus "cancelled") else store.goals.get? other := by
  simp only [cancelGoal, found]
  rw [foldl_cancelPlan_goals, setGoal_goals]

end

theorem goalOf_cancelGoal : (store.cancelGoal goalId).goalOf = store.goalOf := by
  cases found : store.goals.get? goalId with
  | none => simp only [cancelGoal, found]
  | some goal =>
    funext id
    rw [goalOf, goalOf, cancelGoal_plans found]
    cases store.plans.get? id with
    | none => rfl
    | some plan =>
      simp only [Option.map_some]
      split <;> rfl

theorem assignSubtask_cases (store : OrchestratorStore) (taskId : TaskId) (agentId : AgentId) :
    (store.planOf taskId = none ∧ store.assignSubtask taskId agentId = store) ∨
      ∃ plan assigned, store.planOf taskId = some plan ∧
        store.plans.get? plan.id = some plan ∧ assigned.id = plan.id ∧
        assigned.goalId = plan.goalId ∧
        (∃ task ∈ assigned.subtasks, task.status = .assigned) ∧
        store.assignSubtask taskId agentId = store.setPlan assigned := by
  cases found : store.planOf taskId with
  | none => exact .inl ⟨rfl, by simp only [assignSubtask, found]⟩
  | some plan =>
    refine .inr ?_
    have stored := mem_values_iff.mp (mem_of_find?_eq_some found)
    have listed : taskId ∈ plan.taskIds := by simpa using find?_some found
    rcases mem_map.mp listed with ⟨other, member, same⟩
    cases first : plan.subtasks.find? fun task => task.id = taskId with
    | none =>
      have absent := find?_eq_none.mp first other member
      exact absurd same (by simpa using absent)
    | some task =>
      refine ⟨plan, plan.assign taskId (task.withAssigned agentId), rfl, stored, rfl, rfl,
        ⟨task.withAssigned agentId, ?_, rfl⟩, by simp only [assignSubtask, found, first]⟩
      refine mem_map.mpr ⟨other, member, ?_⟩
      rw [if_pos same]

end OrchestratorStore

open OrchestratorStore

/-- A call of `execute_plan` and what it awaits. -/
abbrev PlanProcess := PlanExecution × PlanExecution.Phase

/-- Continue a call. -/
def PlanProcess.next (store : OrchestratorStore) (process : PlanProcess) :
    OrchestratorStore × PlanProcess :=
  let (store, phase) := process.1.next store process.2
  (store, (process.1, phase))

/-- A store and the calls that work on it. -/
abbrev OrchestratorPool := Pool OrchestratorStore PlanProcess

namespace OrchestratorPool

/-- A call begins or continues, or one of the operations is called. -/
inductive Action
  | execute (call : PlanExecution)
  | next (index : Nat)
  | cancelGoal (goalId : GoalId)
  | assignSubtask (taskId : TaskId) (agentId : AgentId)

def step (pool : OrchestratorPool) : Action → OrchestratorPool
  | .execute call => pool.spawn pool.store (call, call.begin pool.store)
  | .next index => pool.resume PlanProcess.next index
  | .cancelGoal goalId => { pool with store := pool.store.cancelGoal goalId }
  | .assignSubtask taskId agentId => { pool with store := pool.store.assignSubtask taskId agentId }

/-- A store on which nothing works. -/
def begin (store : OrchestratorStore) : OrchestratorPool where
  store := store
  processes := []

end OrchestratorPool

/-- The plan with which a call works. -/
def PlanExecution.Phase.plan? : PlanExecution.Phase → Option OrchestrationPlan
  | .swarm plan _ | .agents plan _ | .coordination plan _ => some plan
  | .publication _ | .returned _ | .raised _ => none

/-- What a call knows: the plan with which it works belongs to the goal to which the stored one
belongs, and while the plan is executed its goal is running. -/
structure PlanProcess.Tracked (goalOf : PlanId → Option GoalId) (process : PlanProcess) :
    Prop where
  owned : ∀ plan ∈ process.2.plan?, goalOf plan.id = some plan.goalId
  running : ∀ plan goal, process.2 = .coordination plan goal → goal.status = "running"

def PlanProcess.Writes (goalId : GoalId) : PlanProcess → Prop
  | (call, .agents plan _) => plan.goalId = goalId ∧ call.agents ≠ []
  | (call, .coordination plan _) =>
    plan.goalId = goalId ∧ ∃ result, execute call.agents call.outcomes plan = .ok result
  | _ => False

theorem execute_status {agents : List AgentId} {outcomes : Nat → EngineOutcome}
    {plan result : OrchestrationPlan} (executed : execute agents outcomes plan = .ok result) :
    result.status = "completed" ∨ result.status = "running" := by
  rw [execute] at executed
  split at executed
  next =>
    cases executed
    exact .inl rfl
  next =>
    cases updated : updatedTasks agents outcomes plan with
    | error error =>
      rw [updated] at executed
      cases executed
    | ok results =>
      rw [updated] at executed
      cases executed
      split
      · exact .inl rfl
      · exact .inr rfl

theorem PlanExecution.concluded_status {goal : OrchestrationGoal} {result : OrchestrationPlan}
    (running : goal.status = "running")
    (status : result.status = "completed" ∨ result.status = "running") :
    (concluded goal result).status ≠ "cancelled" := by
  rw [concluded]
  rcases status with completed | stillRunning
  · rw [if_pos completed]
    change "completed" ≠ "cancelled"
    decide
  · rw [stillRunning, if_neg (by decide), if_neg (by decide), running]
    decide

namespace PlanProcess

variable {store : OrchestratorStore} {process : PlanProcess} {goalId : GoalId}

theorem tracked_begin (call : PlanExecution) (store : OrchestratorStore) :
    Tracked store.goalOf (call, call.begin store) := by
  cases foundPlan : store.plans.get? call.planId with
  | none => constructor <;> simp [PlanExecution.begin, foundPlan, plan?]
  | some plan =>
    cases foundGoal : store.goals.get? plan.goalId with
    | none =>
      constructor <;>
        simp [PlanExecution.begin, foundPlan, foundGoal, plan?]
    | some goal =>
      cases swarm : goal.swarmId with
      | none =>
        constructor <;>
          simp [PlanExecution.begin, foundPlan, foundGoal, swarm, plan?]
      | some swarmId =>
        have key := store.keyed call.planId plan foundPlan
        have owned : store.goalOf plan.id = some plan.goalId := by
          rw [key]
          exact OrchestratorStore.goalOf_eq_some_iff.mpr ⟨plan, foundPlan, rfl⟩
        constructor <;>
          simp [PlanExecution.begin, foundPlan, foundGoal, swarm, plan?, owned]

/-- What a continuation does to the store: nothing; or it writes a goal that is not cancelled,
and perhaps a plan of that goal. -/
inductive Effect (store : OrchestratorStore) (process : PlanProcess) :
    OrchestratorStore → Prop
  | none (silent : ∀ goalId, ¬ process.Writes goalId) : Effect store process store
  | mark (plan : OrchestrationPlan) (goal : OrchestrationGoal)
      (writes : ∀ goalId, process.Writes goalId ↔ plan.goalId = goalId)
      (status : goal.status ≠ "cancelled") :
      Effect store process (store.setGoal plan.goalId goal)
  | conclude (plan : OrchestrationPlan) (goal : OrchestrationGoal)
      (writes : ∀ goalId, process.Writes goalId ↔ plan.goalId = goalId)
      (status : goal.status ≠ "cancelled")
      (owned : store.goalOf plan.id = some plan.goalId) :
      Effect store process ((store.setPlan plan).setGoal plan.goalId goal)

theorem effect_next (tracked : process.Tracked store.goalOf) :
    Effect store process (process.next store).1 ∧
      (process.next store).2.Tracked store.goalOf := by
  rcases process with ⟨call, phase⟩
  cases phase with
  | swarm plan goal =>
    by_cases found : call.swarmFound = true
    · simp only [next, PlanExecution.next, found, if_true]
      exact ⟨.none fun _ => id, tracked.owned, by simp⟩
    · simp only [next, PlanExecution.next, if_neg found]
      exact ⟨.none fun _ => id, by simp [plan?], by simp⟩
  | agents plan goal =>
    by_cases empty : call.agents = []
    · simp only [next, PlanExecution.next, if_pos empty]
      exact ⟨.none fun _ writes => writes.2 empty, by simp [plan?],
        by simp⟩
    · simp only [next, PlanExecution.next, if_neg empty]
      refine ⟨.mark plan _ (fun _ => and_iff_left empty)
        (by simp [OrchestrationGoal.withStatus]), tracked.owned, ?_⟩
      rintro _ _ ⟨⟩
      rfl
  | coordination plan goal =>
    cases executed : execute call.agents call.outcomes plan with
    | error error =>
      simp only [next, PlanExecution.next, executed]
      refine ⟨.none ?_, by simp [plan?], by simp⟩
      rintro _ ⟨-, result, returned⟩
      rw [executed] at returned
      cases returned
    | ok result =>
      simp only [next, PlanExecution.next, executed]
      have same := PlanExecution.execute_id executed
      have status := PlanExecution.concluded_status (tracked.running plan goal rfl)
        (execute_status executed)
      have owned := tracked.owned plan rfl
      rw [← same.1, ← same.2] at owned
      rw [← same.2]
      refine ⟨.conclude result _ ?_ status owned, by simp [plan?],
        by simp⟩
      intro goalId
      rw [same.2]
      exact and_iff_left ⟨result, executed⟩
  | _ =>
    exact ⟨.none fun _ => id, by simp [next, PlanExecution.next, plan?],
      by simp [next, PlanExecution.next]⟩

theorem Effect.goalOf_eq {after : OrchestratorStore} (effect : Effect store process after) :
    after.goalOf = store.goalOf := by
  cases effect with
  | none | mark => rfl
  | conclude plan goal writes status owned => exact goalOf_setPlan owned

end PlanProcess

/-! ## What is cancelled -/

/-- A cancelled form of a plan: its tasks are all there, none is in progress, and the completed
ones were completed before. -/
structure OrchestrationPlan.CancelledAs (plan cancelled : OrchestrationPlan) : Prop where
  status : cancelled.status = "cancelled"
  perm : cancelled.taskIds.Perm plan.taskIds
  ended : ∀ task ∈ cancelled.subtasks, ¬ task.status.InProgress
  completed : ∀ task ∈ cancelled.subtasks, task.status = .completed → task ∈ plan.subtasks

namespace OrchestrationPlan

variable {plan cancelled : OrchestrationPlan}

theorem cancel_taskIds_perm (plan : OrchestrationPlan) : plan.cancel.taskIds.Perm plan.taskIds := by
  have split := (filter_append_perm
    (fun task : AgentTask => decide task.status.InProgress) plan.subtasks).map AgentTask.id
  simp only [taskIds, cancel, map_append, map_map, Function.comp_def,
    AgentTask.withStatus_id] at split ⊢
  refine perm_append_comm.trans (.trans (.of_eq ?_) split)
  simp

theorem mem_cancel {task : AgentTask} (member : task ∈ plan.cancel.subtasks) :
    (task ∈ plan.subtasks ∧ ¬ task.status.InProgress) ∨ task.status = .cancelled := by
  rcases mem_append.mp member with kept | changed
  · have parts := mem_filter.mp kept
    exact .inl ⟨parts.1, by simpa using parts.2⟩
  · rcases mem_map.mp changed with ⟨old, -, rfl⟩
    exact .inr rfl

theorem CancelledAs.of_cancel {base : OrchestrationPlan} (perm : plan.taskIds.Perm base.taskIds)
    (completed : ∀ task ∈ plan.subtasks, task.status = .completed → task ∈ base.subtasks) :
    base.CancelledAs plan.cancel where
  status := rfl
  perm := plan.cancel_taskIds_perm.trans perm
  ended := by
    intro task member
    rcases mem_cancel member with ⟨-, ended⟩ | cancelled
    · exact ended
    · rw [cancelled]
      decide
  completed := by
    intro task member isCompleted
    rcases mem_cancel member with ⟨old, -⟩ | cancelled
    · exact completed task old isCompleted
    · rw [cancelled] at isCompleted
      cases isCompleted

end OrchestrationPlan

structure OrchestratorStore.Cancelled (goalId : GoalId) (before after : OrchestratorStore) :
    Prop where
  goal : ∃ goal, after.goals.get? goalId = some goal ∧ goal.status = "cancelled"
  plans : ∀ id plan, before.plans.get? id = some plan → plan.goalId = goalId →
    ∃ cancelled, after.plans.get? id = some cancelled ∧ plan.CancelledAs cancelled

namespace OrchestratorStore

variable {before store : OrchestratorStore} {goalId : GoalId}

theorem cancelled_cancelGoal {goal : OrchestrationGoal}
    (found : store.goals.get? goalId = some goal) :
    Cancelled goalId store (store.cancelGoal goalId) where
  goal := by
    rw [cancelGoal_goals found, if_pos rfl]
    exact ⟨_, rfl, rfl⟩
  plans := by
    intro id plan stored ofGoal
    rw [cancelGoal_plans found, stored, Option.map_some, if_pos ofGoal]
    exact ⟨_, rfl, .of_cancel (.refl _) fun _ member _ => member⟩

section

variable (cancelled : Cancelled goalId before store)
include cancelled

theorem Cancelled.cancelGoal (other : GoalId) :
    Cancelled goalId before (store.cancelGoal other) := by
  cases found : store.goals.get? other with
  | none =>
    simp only [OrchestratorStore.cancelGoal, found]
    exact cancelled
  | some goal =>
    constructor
    · rw [cancelGoal_goals found]
      split
      · exact ⟨_, rfl, rfl⟩
      · exact cancelled.goal
    · intro id plan stored ofGoal
      rcases cancelled.plans id plan stored ofGoal with ⟨current, present, asBefore⟩
      rw [cancelGoal_plans found, present, Option.map_some]
      refine ⟨_, rfl, ?_⟩
      split
      · exact .of_cancel asBefore.perm asBefore.completed
      · exact asBefore

theorem Cancelled.setGoal {other : GoalId} (different : other ≠ goalId) (goal : OrchestrationGoal) :
    Cancelled goalId before (store.setGoal other goal) where
  goal := by
    rw [setGoal_goals, if_neg different.symm]
    exact cancelled.goal
  plans := cancelled.plans

theorem Cancelled.setPlan (sameOwners : store.goalOf = before.goalOf) {plan : OrchestrationPlan}
    (owned : store.goalOf plan.id = some plan.goalId) (different : plan.goalId ≠ goalId) :
    Cancelled goalId before (store.setPlan plan) where
  goal := cancelled.goal
  plans := by
    intro id old stored ofGoal
    have owner : store.goalOf id = some goalId := by
      rw [sameOwners]
      exact goalOf_eq_some_iff.mpr ⟨old, stored, ofGoal⟩
    have elsewhere : id ≠ plan.id := by
      rintro rfl
      rw [owned] at owner
      exact different (Option.some.inj owner)
    rw [setPlan_plans, if_neg elsewhere]
    exact cancelled.plans id old stored ofGoal

end

theorem not_cancelled_setGoal {goal : OrchestrationGoal} (status : goal.status ≠ "cancelled") :
    ¬ Cancelled goalId before (store.setGoal goalId goal) := by
  intro cancelled
  rcases cancelled.goal with ⟨stored, found, isCancelled⟩
  rw [setGoal_goals, if_pos rfl] at found
  cases found
  exact status isCancelled

theorem not_cancelled_setPlan {plan : OrchestrationPlan}
    (owned : before.goalOf plan.id = some goalId)
    (assigned : ∃ task ∈ plan.subtasks, task.status = .assigned) :
    ¬ Cancelled goalId before (store.setPlan plan) := by
  intro cancelled
  rcases goalOf_eq_some_iff.mp owned with ⟨old, stored, ofGoal⟩
  rcases cancelled.plans plan.id old stored ofGoal with ⟨current, present, asBefore⟩
  rw [setPlan_plans, if_pos rfl] at present
  cases present
  rcases assigned with ⟨task, member, isAssigned⟩
  exact asBefore.ended task member (.inr (.inl isAssigned))

end OrchestratorStore

namespace OrchestratorPool

variable {before : OrchestratorStore} {pool : OrchestratorPool} {goalId : GoalId}

/-- Which plan belongs to which goal never changes, and every call knows it. -/
structure Consistent (goalOf : PlanId → Option GoalId) (pool : OrchestratorPool) : Prop where
  owners : pool.store.goalOf = goalOf
  tracked : ∀ process ∈ pool.processes, process.Tracked goalOf

theorem consistent_begin (store : OrchestratorStore) : Consistent store.goalOf (begin store) where
  owners := rfl
  tracked := by simp [begin]

theorem Consistent.step {goalOf : PlanId → Option GoalId} (consistent : Consistent goalOf pool)
    (action : Action) : Consistent goalOf (step pool action) := by
  cases action with
  | execute call =>
    refine ⟨consistent.owners, Pool.spawn_invariant _ consistent.tracked ?_⟩
    rw [← consistent.owners]
    exact PlanProcess.tracked_begin call pool.store
  | next index =>
    have preserved : ∀ store process, store.goalOf = goalOf →
        PlanProcess.Tracked goalOf process →
          (PlanProcess.next store process).1.goalOf = goalOf ∧
            PlanProcess.Tracked goalOf (PlanProcess.next store process).2 := by
      rintro store process rfl tracked
      have effect := PlanProcess.effect_next tracked
      exact ⟨effect.1.goalOf_eq, effect.2⟩
    have kept := Pool.resume_invariant preserved index ⟨consistent.owners, consistent.tracked⟩
    exact ⟨kept.1, kept.2⟩
  | cancelGoal goalId => exact ⟨goalOf_cancelGoal.trans consistent.owners, consistent.tracked⟩
  | assignSubtask taskId agentId =>
    refine ⟨?_, consistent.tracked⟩
    rcases assignSubtask_cases pool.store taskId agentId with
      ⟨-, same⟩ | ⟨plan, assigned, -, stored, sameId, sameGoal, -, result⟩
    · change (pool.store.assignSubtask taskId agentId).goalOf = goalOf
      rw [same, consistent.owners]
    · change (pool.store.assignSubtask taskId agentId).goalOf = goalOf
      rw [result, goalOf_setPlan, consistent.owners]
      rw [sameId, sameGoal]
      exact OrchestratorStore.goalOf_eq_some_iff.mpr ⟨plan, stored, rfl⟩

/-- Neither does a call write a plan of the goal back or mark the goal as running, nor is one
of its tasks assigned. -/
def LeavesAlone (goalId : GoalId) (pool : OrchestratorPool) : Action → Prop
  | .execute _ | .cancelGoal _ => True
  | .next index => ∀ process, pool.processes[index]? = some process → ¬ process.Writes goalId
  | .assignSubtask taskId _ => ∀ plan, pool.store.planOf taskId = some plan → plan.goalId ≠ goalId

/-- The continuation of a call keeps a goal cancelled exactly if it does not write to it. -/
theorem cancelled_effect_iff {process : PlanProcess} {store after : OrchestratorStore}
    (owners : store.goalOf = before.goalOf)
    (cancelled : OrchestratorStore.Cancelled goalId before store)
    (effect : PlanProcess.Effect store process after) :
    OrchestratorStore.Cancelled goalId before after ↔ ¬ process.Writes goalId := by
  cases effect with
  | none silent => exact iff_of_true cancelled (silent goalId)
  | mark plan goal writes status =>
    rw [writes]
    by_cases same : plan.goalId = goalId
    · subst same
      exact iff_of_false (not_cancelled_setGoal status) (not_not.mpr rfl)
    · exact iff_of_true (cancelled.setGoal same goal) same
  | conclude plan goal writes status owned =>
    rw [writes]
    by_cases same : plan.goalId = goalId
    · subst same
      exact iff_of_false (not_cancelled_setGoal status) (not_not.mpr rfl)
    · exact iff_of_true ((cancelled.setPlan owners owned same).setGoal same goal) same

/-- One action keeps a goal cancelled exactly if it leaves the goal alone. -/
theorem cancelled_step_iff (consistent : Consistent before.goalOf pool)
    (cancelled : OrchestratorStore.Cancelled goalId before pool.store) (action : Action) :
    OrchestratorStore.Cancelled goalId before (step pool action).store ↔
      LeavesAlone goalId pool action := by
  cases action with
  | execute call => exact iff_of_true cancelled trivial
  | cancelGoal other => exact iff_of_true (cancelled.cancelGoal other) trivial
  | next index =>
    change OrchestratorStore.Cancelled goalId before (pool.resume PlanProcess.next index).store ↔ _
    cases lookup : pool.processes[index]? with
    | none =>
      rw [Pool.resume_of_none lookup]
      simp [LeavesAlone, lookup, cancelled]
    | some process =>
      have tracked := consistent.tracked process (mem_of_getElem? lookup)
      rw [← consistent.owners] at tracked
      rw [Pool.resume_of_some lookup]
      simp only [LeavesAlone, lookup, Option.some.injEq, forall_eq']
      exact cancelled_effect_iff consistent.owners cancelled (PlanProcess.effect_next tracked).1
  | assignSubtask taskId agentId =>
    change OrchestratorStore.Cancelled goalId before (pool.store.assignSubtask taskId agentId) ↔ _
    rcases assignSubtask_cases pool.store taskId agentId with
      ⟨absent, same⟩ | ⟨plan, assigned, found, stored, sameId, sameGoal, task, result⟩
    · rw [same]
      simp [LeavesAlone, absent, cancelled]
    · have owned : pool.store.goalOf assigned.id = some assigned.goalId := by
        rw [sameId, sameGoal]
        exact OrchestratorStore.goalOf_eq_some_iff.mpr ⟨plan, stored, rfl⟩
      rw [result]
      simp only [LeavesAlone, found, Option.some.injEq, forall_eq', ← sameGoal]
      by_cases ofGoal : assigned.goalId = goalId
      · rw [ofGoal, consistent.owners] at owned
        exact iff_of_false (not_cancelled_setPlan owned task) (not_not.mpr ofGoal)
      · exact iff_of_true (cancelled.setPlan consistent.owners owned ofGoal) ofGoal

theorem consistent_run (store : OrchestratorStore) (actions : List Action) :
    Consistent (run step (begin store) actions).store.goalOf (run step (begin store) actions) := by
  have preserved : ∀ pool action, Consistent store.goalOf pool →
      Consistent store.goalOf (step pool action) :=
    fun _ action holds => holds.step action
  have consistent := run_invariant _ preserved (consistent_begin store) actions
  rw [consistent.owners]
  exact consistent

/-- For every goal and every interleaving: behind `cancel_goal` the goal and its plans stay
cancelled throughout a run exactly if every action of the run leaves the goal alone. -/
theorem cancelGoal_final_iff (store : OrchestratorStore) (earlier later : List Action)
    (goalId : GoalId) (known : ((run step (begin store) earlier).store.goals.get? goalId).isSome) :
    Always step (fun pool => OrchestratorStore.Cancelled goalId
          (run step (begin store) earlier).store pool.store)
        (step (run step (begin store) earlier) (.cancelGoal goalId)) later ↔
      Along step (LeavesAlone goalId)
        (step (run step (begin store) earlier) (.cancelGoal goalId)) later := by
  obtain ⟨goal, found⟩ := Option.isSome_iff_exists.mp known
  have consistent := consistent_run store earlier
  apply always_iff_along (Consistent (run step (begin store) earlier).store.goalOf)
  · intro pool action holds _ _
    exact holds.step action
  · intro pool action holds cancelled
    exact cancelled_step_iff holds cancelled action
  · exact consistent.step (.cancelGoal goalId)
  · exact cancelled_cancelGoal found

def singleStore : OrchestratorStore :=
  (OrchestratorStore.empty.setGoal "goal" { id := "goal", swarmId := some "swarm" }).setPlan
    { id := "plan", goalId := "goal",
      subtasks := [{ id := "task", assignedAgentId := some "agent" }] }

def singleCall : PlanExecution where
  planId := "plan"
  swarmFound := true
  agents := ["agent"]
  outcomes := fun _ => .completed []

theorem singleStore_final_iff : Always step (fun pool => OrchestratorStore.Cancelled "goal"
          (run step (begin singleStore) [.execute singleCall, .next 0]).store pool.store)
        (step (run step (begin singleStore) [.execute singleCall, .next 0]) (.cancelGoal "goal"))
        [.next 0, .next 0] ↔
      Along step (LeavesAlone "goal")
        (step (run step (begin singleStore) [.execute singleCall, .next 0]) (.cancelGoal "goal"))
        [.next 0, .next 0] :=
  cancelGoal_final_iff singleStore _ _ "goal" (by decide +kernel)

/-- The goal is cancelled while the engine works, and the result completes it again. -/
theorem late_result_revives : ∃ goal plan, (run step (begin singleStore)
        [.execute singleCall, .next 0, .next 0, .cancelGoal "goal", .next 0]).store.goals.get?
          "goal" = some goal ∧
      (run step (begin singleStore)
        [.execute singleCall, .next 0, .next 0, .cancelGoal "goal", .next 0]).store.plans.get?
          "plan" = some plan ∧
      goal.status = "completed" ∧ plan.status = "completed" ∧
      ∀ task ∈ plan.subtasks, task.status = .completed :=
  ⟨_, _, rfl, rfl, by decide +kernel⟩

end OrchestratorPool

end AgenticOS.Orchestration
