import AgenticOS.Orchestration.TaskOrchestrator

/-!
# What the execution of a plan leaves behind

Sequential, parallel and hierarchical execution give every task of the plan one result.
Fan-out and fan-in hand the first task to every agent: the results are copies of that one
task. A result is completed or failed, or cancelled behind a failure.
-/

namespace AgenticOS.Orchestration

open OrchestrationPlan List OrchestratorStore

variable {agents : List AgentId} {outcomes : Nat → EngineOutcome}

theorem executeSingleTask_status {task result : AgentTask} {outcome : EngineOutcome}
    (executed : executeSingleTask agents task outcome = .ok result) :
    result.status = .completed ∨ result.status = .failed := by
  cases assigned : task.assignedAgentId with
  | none =>
    simp only [executeSingleTask, assigned] at executed
    cases executed
    exact .inr rfl
  | some agentId =>
    simp only [executeSingleTask, assigned] at executed
    split at executed
    next =>
      cases executed
      exact .inr rfl
    next =>
      cases outcome with
      | completed output =>
        cases executed
        exact .inl rfl
      | escaped error => cases executed
      | _ =>
        cases executed
        exact .inr rfl

def Attempted (results : List AgentTask) : Prop :=
  ∀ task ∈ results, task.status = .completed ∨ task.status = .failed

theorem gathered_status {base : AgentTask} {task : AgentTask} {outcome : EngineOutcome} :
    (gathered base (executeSingleTask agents task outcome)).status = .completed ∨
      (gathered base (executeSingleTask agents task outcome)).status = .failed := by
  cases executed : executeSingleTask agents task outcome with
  | error error => exact .inr rfl
  | ok result => exact executeSingleTask_status executed

theorem attempted_executeParallel (call : Nat) (tasks : List AgentTask) :
    Attempted (executeParallel agents outcomes call tasks) := by
  induction tasks generalizing call with
  | nil => simp [Attempted, executeParallel]
  | cons task rest ih =>
    rintro result (_ | later)
    · exact gathered_status
    · exact ih (call + 1) result (by assumption)

section

variable (task : AgentTask) (call : Nat) (receivers : List AgentId)

theorem attempted_broadcast : Attempted (broadcast agents outcomes task call receivers) := by
  induction receivers generalizing call with
  | nil => simp [Attempted, broadcast]
  | cons agentId rest ih =>
    rintro result (_ | later)
    · exact gathered_status
    · exact ih (call + 1) result (by assumption)

theorem map_id_broadcast : (broadcast agents outcomes task call receivers).map AgentTask.id =
      replicate receivers.length task.id := by
  induction receivers generalizing call with
  | nil => rfl
  | cons agentId rest ih =>
    have sameId : (gathered task
        (executeSingleTask agents (task.withAssigned agentId) (outcomes call))).id = task.id :=
      gathered_id task fun result executed => (executeSingleTask_id executed).trans rfl
    rw [broadcast, map_cons, ih, sameId, length_cons, replicate_succ]

end

theorem Hierarchy.attempted_loop (turns : Nat) {hierarchy : Hierarchy}
    (attempted : Attempted hierarchy.updated) :
    Attempted (Hierarchy.loop agents outcomes turns hierarchy).updated := by
  induction turns generalizing hierarchy with
  | zero => exact attempted
  | succ turns ih =>
    rw [Hierarchy.loop]
    split
    next => exact attempted
    next =>
      split
      next =>
        intro task member
        rcases mem_append.mp member with old | new
        · exact attempted task old
        · rcases mem_map.mp new with ⟨waiting, -, rfl⟩
          exact .inr rfl
      next =>
        apply ih
        intro task member
        rcases mem_append.mp member with old | new
        · exact attempted task old
        · exact attempted_executeParallel _ _ task new

variable {results : List AgentTask}

/-- One task after the other: the ids stay, and a task that is not completed stands behind a
failed one or is one. -/
theorem executeSequential_results {call : Nat} {tasks : List AgentTask}
    (executed : executeSequential agents outcomes call tasks = .ok results) :
    results.map AgentTask.id = tasks.map AgentTask.id ∧
      ((∃ task ∈ results, task.status = .failed) ∨
        ∀ task ∈ results, task.status = .completed) := by
  induction tasks generalizing call results with
  | nil =>
    cases executed
    simp
  | cons task rest ih =>
    rw [executeSequential] at executed
    cases first : executeSingleTask agents task (outcomes call) with
    | error error =>
      rw [first] at executed
      cases executed
    | ok result =>
      have sameId := executeSingleTask_id first
      rw [first] at executed
      dsimp only at executed
      split at executed
      next failed =>
        cases executed
        constructor
        · simp [sameId, Function.comp_def]
        · exact .inl ⟨result, mem_cons_self, failed⟩
      next succeeded =>
        have completed := (executeSingleTask_status first).resolve_right succeeded
        cases later : executeSequential agents outcomes (call + 1) rest with
        | error error =>
          rw [later] at executed
          cases executed
        | ok laterResults =>
          rw [later] at executed
          cases executed
          rcases ih later with ⟨sameIds, failed | all⟩
          · rcases failed with ⟨other, member, failed⟩
            exact ⟨by simp [sameId, sameIds],
              .inl ⟨other, mem_cons_of_mem result member, failed⟩⟩
          · refine ⟨by simp [sameId, sameIds], .inr ?_⟩
            rintro other (_ | later)
            · exact completed
            · exact all other (by assumption)

variable {plan : OrchestrationPlan}

/-- The patterns that hand one task to every agent. -/
def CoordinationPattern.IsFan (pattern : CoordinationPattern) : Prop :=
  pattern = .fanOut ∨ pattern = .fanIn
deriving Decidable

theorem Attempted.completed (attempted : Attempted results)
    (noFailure : ∀ task ∈ results, task.status ≠ .failed) :
    ∀ task ∈ results, task.status = .completed :=
  fun task member => (attempted task member).resolve_right (noFailure task member)

theorem updatedTasks_completed (updated : updatedTasks agents outcomes plan = .ok results)
    (noFailure : ∀ task ∈ results, task.status ≠ .failed) :
    ∀ task ∈ results, task.status = .completed := by
  have sequential : executeSequential agents outcomes 0 plan.subtasks = .ok results →
      ∀ task ∈ results, task.status = .completed := by
    intro executed
    rcases (executeSequential_results executed).2 with ⟨task, member, failed⟩ | all
    · exact absurd failed (noFailure task member)
    · exact all
  have fan : Attempted (executeFanOut agents outcomes plan.subtasks) := by
    cases plan.subtasks with
    | nil => simp [Attempted, executeFanOut]
    | cons task rest => exact attempted_broadcast task 0 agents
  rw [updatedTasks] at updated
  cases pattern : plan.pattern with
  | sequential | voting =>
    rw [pattern] at updated
    exact sequential updated
  | parallel =>
    rw [pattern] at updated
    cases updated
    exact (attempted_executeParallel 0 plan.subtasks).completed noFailure
  | fanOut | fanIn =>
    rw [pattern] at updated
    cases updated
    exact fan.completed noFailure
  | hierarchical =>
    rw [pattern] at updated
    cases updated
    exact (Hierarchy.attempted_loop _ (by simp [Attempted, Hierarchy.begin])).completed
      noFailure

theorem updatedTasks_ids (distinct : plan.taskIds.Nodup)
    (updated : updatedTasks agents outcomes plan = .ok results) (single : ¬ plan.pattern.IsFan) :
    (results.map AgentTask.id).Perm plan.taskIds := by
  rw [updatedTasks] at updated
  cases pattern : plan.pattern with
  | sequential | voting =>
    rw [pattern] at updated
    exact .of_eq (executeSequential_results updated).1
  | parallel =>
    rw [pattern] at updated
    cases updated
    exact .of_eq (map_id_executeParallel 0 plan.subtasks)
  | fanOut => exact absurd (.inl pattern) single
  | fanIn => exact absurd (.inr pattern) single
  | hierarchical =>
    rw [pattern] at updated
    cases updated
    have settled := hierarchy_settled agents outcomes distinct
    rw [executeHierarchical, settled.updated]
    exact settled.layered.partition

theorem updatedTasks_fan {first : AgentTask} {rest : List AgentTask}
    (subtasks : plan.subtasks = first :: rest)
    (updated : updatedTasks agents outcomes plan = .ok results) (fan : plan.pattern.IsFan) :
    results.map AgentTask.id = replicate agents.length first.id := by
  have broadcasted : (broadcast agents outcomes first 0 agents).map AgentTask.id =
      replicate agents.length first.id :=
    map_id_broadcast first 0 agents
  rw [updatedTasks] at updated
  rcases fan with pattern | pattern
  · rw [pattern, subtasks] at updated
    cases updated
    exact broadcasted
  · rw [pattern, subtasks] at updated
    cases updated
    exact broadcasted

/-! ## The result plan and its goal -/

/-- What an execution makes of a plan and its goal: under the fan patterns one result of the
first task for each agent, else one result for each task; and if no task failed, all
of them, the plan and the goal are completed. -/
structure OrchestrationPlan.Delivered (plan : OrchestrationPlan) (agents : List AgentId)
    (result : OrchestrationPlan) (goal : OrchestrationGoal) : Prop where
  once : ¬ plan.pattern.IsFan → plan.taskIds.Nodup → ∀ id ∈ plan.taskIds,
    result.taskIds.count id = 1
  only : ¬ plan.pattern.IsFan → plan.taskIds.Nodup → ∀ id ∈ result.taskIds, id ∈ plan.taskIds
  copies : plan.pattern.IsFan → ∀ first ∈ plan.subtasks.head?,
    result.taskIds = replicate agents.length first.id
  completed : (∀ task ∈ result.subtasks, task.status ≠ .failed) →
    (∀ task ∈ result.subtasks, task.status = .completed) ∧
      result.status = "completed" ∧ goal.status = "completed"

theorem execute_delivered {result : OrchestrationPlan} (goal : OrchestrationGoal)
    (executed : execute agents outcomes plan = .ok result) :
    plan.Delivered agents result (PlanExecution.concluded goal result) := by
  by_cases empty : plan.subtasks = []
  · simp only [execute, empty, if_true] at executed
    cases executed
    constructor
    · simp [taskIds, empty]
    · simp [taskIds, withStatus, empty]
    · simp [empty]
    · intro
      refine ⟨by simp [withStatus, empty], rfl, ?_⟩
      simp [PlanExecution.concluded, withStatus, OrchestrationGoal.withStatus]
  · rw [execute, if_neg empty] at executed
    cases updated : updatedTasks agents outcomes plan with
    | error error =>
      rw [updated] at executed
      cases executed
    | ok results =>
      rw [updated] at executed
      cases executed
      constructor
      · intro single distinct id member
        have perm := updatedTasks_ids distinct updated single
        exact (perm.count_eq id).trans (count_eq_one_of_mem distinct member)
      · intro single distinct id member
        exact (updatedTasks_ids distinct updated single).mem_iff.mp member
      · intro fan first head
        obtain ⟨rest, subtasks⟩ := head?_eq_some_iff.mp head
        exact updatedTasks_fan subtasks updated fan
      · intro noFailure
        have all := updatedTasks_completed updated noFailure
        have done : ∀ task ∈ results, task.status.IsDone := fun task member =>
          .inl (all task member)
        refine ⟨all, if_pos done, ?_⟩
        simp only [PlanExecution.concluded, if_pos done, if_true]
        rfl

namespace PlanExecution

variable {call : PlanExecution} {store : OrchestratorStore}

structure Runs (call : PlanExecution) (store : OrchestratorStore) (plan : OrchestrationPlan)
    (goal : OrchestrationGoal) : Prop where
  foundPlan : store.plans.get? call.planId = some plan
  foundGoal : store.goals.get? plan.goalId = some goal
  assigned : goal.swarmId.isSome
  swarmFound : call.swarmFound = true
  hasAgents : call.agents ≠ []

variable {goal : OrchestrationGoal}

section

variable (runs : call.Runs store plan goal)
include runs

theorem begin_of_runs : call.begin store = .swarm plan goal := by
  obtain ⟨swarmId, swarm⟩ := Option.isSome_iff_exists.mp runs.assigned
  simp [begin, runs.foundPlan, runs.foundGoal, swarm]

theorem executePlan_of_error {error : String}
    (executed : execute call.agents call.outcomes plan = .error error) : call.executePlan store =
      (store.setGoal plan.goalId (goal.withStatus "running"), .raised error) := by
  simp [executePlan, finish, begin_of_runs runs, next, runs.swarmFound, runs.hasAgents, executed]

theorem executePlan_of_ok {result : OrchestrationPlan}
    (executed : execute call.agents call.outcomes plan = .ok result) : call.executePlan store =
      (((store.setGoal plan.goalId (goal.withStatus "running")).setPlan result).setGoal
        plan.goalId (concluded (goal.withStatus "running") result), .returned (some result)) := by
  simp [executePlan, finish, begin_of_runs runs, next, runs.swarmFound, runs.hasAgents, executed]

end

theorem executePlan_of_not_runs (idle : ∀ plan goal, ¬ call.Runs store plan goal) :
    (call.executePlan store).1 = store := by
  cases foundPlan : store.plans.get? call.planId with
  | none => simp [executePlan, finish, begin, foundPlan, next]
  | some plan =>
    cases foundGoal : store.goals.get? plan.goalId with
    | none => simp [executePlan, finish, begin, foundPlan, foundGoal, next]
    | some goal =>
      cases swarm : goal.swarmId with
      | none => simp [executePlan, finish, begin, foundPlan, foundGoal, swarm, next]
      | some swarmId =>
        by_cases swarmFound : call.swarmFound = true
        · by_cases agents : call.agents = []
          · simp [executePlan, finish, begin, foundPlan, foundGoal, swarm, next, swarmFound, agents]
          · exact absurd ⟨foundPlan, foundGoal, by simp [swarm], swarmFound, agents⟩
              (idle plan goal)
        · simp [executePlan, finish, begin, foundPlan, foundGoal, swarm, next, swarmFound]

theorem execute_id {result : OrchestrationPlan}
    (executed : execute agents outcomes plan = .ok result) :
    result.id = plan.id ∧ result.goalId = plan.goalId := by
  rw [execute] at executed
  split at executed
  next =>
    cases executed
    exact ⟨rfl, rfl⟩
  next =>
    cases updated : updatedTasks agents outcomes plan with
    | error error =>
      rw [updated] at executed
      cases executed
    | ok results =>
      rw [updated] at executed
      cases executed
      exact ⟨rfl, rfl⟩

/-- The three ways in which `execute_plan` ends: it changes nothing; it raises, and only marks
the goal as running; or it stores and returns a result that delivers the plan. -/
theorem executePlan_delivers (call : PlanExecution) (store : OrchestratorStore) :
    ((∀ plan goal, ¬ call.Runs store plan goal) ∧ (call.executePlan store).1 = store) ∨
      ∃ plan goal, call.Runs store plan goal ∧
        ((∃ error, call.executePlan store =
            (store.setGoal plan.goalId (goal.withStatus "running"), .raised error)) ∨
          ∃ result concluded, (call.executePlan store).2 = .returned (some result) ∧
            (call.executePlan store).1.plans.get? call.planId = some result ∧
            (call.executePlan store).1.goals.get? plan.goalId = some concluded ∧
            plan.Delivered call.agents result concluded) := by
  by_cases idle : ∀ plan goal, ¬ call.Runs store plan goal
  · exact .inl ⟨idle, executePlan_of_not_runs idle⟩
  · simp only [not_forall, not_not] at idle
    rcases idle with ⟨plan, goal, runs⟩
    refine .inr ⟨plan, goal, runs, ?_⟩
    cases executed : execute call.agents call.outcomes plan with
    | error error => exact .inl ⟨error, executePlan_of_error runs executed⟩
    | ok result =>
      refine .inr ⟨result, concluded (goal.withStatus "running") result, ?_⟩
      rw [executePlan_of_ok runs executed]
      have key : call.planId = result.id := by
        rw [(execute_id executed).1]
        exact (store.keyed call.planId plan runs.foundPlan).symm
      refine ⟨rfl, ?_, ?_, execute_delivered _ executed⟩
      · rw [setGoal_plans, setPlan_plans, if_pos key]
      · rw [setGoal_goals, if_pos rfl]

def broadcastStore : OrchestratorStore :=
  (OrchestratorStore.empty.setGoal "goal" { id := "goal", swarmId := some "swarm" }).setPlan
    { id := "plan", goalId := "goal",
      subtasks := [{ id := "task", coordinationPattern := some .fanOut }] }

def broadcastCall : PlanExecution where
  planId := "plan"
  swarmFound := true
  agents := ["first", "second"]
  outcomes := fun _ => .raised "engine down"

/-- The result holds the only task twice, both copies failed, and plan and goal are completed. -/
theorem broadcastCall_completes : ∃ result goal,
    (broadcastCall.executePlan broadcastStore).2 = .returned (some result) ∧
      (broadcastCall.executePlan broadcastStore).1.goals.get? "goal" = some goal ∧
      result.taskIds = ["task", "task"] ∧
      (∀ task ∈ result.subtasks, task.status = .failed) ∧
      result.status = "completed" ∧ goal.status = "completed" :=
  ⟨_, _, rfl, rfl, by decide +kernel⟩

end PlanExecution

end AgenticOS.Orchestration
