import AgenticOS.Data.Dict
import AgenticOS.Orchestration.Coordination

/-!
# The task orchestrator

Goals and plans are kept in two dictionaries; a plan is stored under its own id.
`cancel_goal` and `assign_subtask` change the dictionaries before they await anything.
`execute_plan` reads the plan and its goal, waits for the swarm and its agents, marks the
goal as running, waits for the coordination engine and then writes plan and goal back.
-/

namespace AgenticOS.Orchestration

structure OrchestratorStore where
  goals : Dict GoalId OrchestrationGoal
  plans : Dict PlanId OrchestrationPlan
  keyed : ∀ id plan, plans.get? id = some plan → plan.id = id

namespace OrchestratorStore

def empty : OrchestratorStore where
  goals := Dict.empty
  plans := Dict.empty
  keyed := by simp

/-- `self._goals[goal_id] = goal`. -/
def setGoal (store : OrchestratorStore) (goalId : GoalId) (goal : OrchestrationGoal) :
    OrchestratorStore :=
  { store with goals := store.goals.set goalId goal }

/-- `self._plans[plan.id] = plan`. -/
def setPlan (store : OrchestratorStore) (plan : OrchestrationPlan) : OrchestratorStore where
  goals := store.goals
  plans := store.plans.set plan.id plan
  keyed := by
    intro id other found
    rw [Dict.get?_set] at found
    split at found
    next same =>
      cases found
      exact same.symm
    next => exact store.keyed id other found

variable (store : OrchestratorStore)

@[simp] theorem setGoal_plans (goalId : GoalId) (goal : OrchestrationGoal) :
    (store.setGoal goalId goal).plans = store.plans :=
  rfl

@[simp] theorem setPlan_goals (plan : OrchestrationPlan) :
    (store.setPlan plan).goals = store.goals :=
  rfl

theorem setGoal_goals (goalId other : GoalId) (goal : OrchestrationGoal) :
    (store.setGoal goalId goal).goals.get? other =
      if other = goalId then some goal else store.goals.get? other :=
  Dict.get?_set store.goals goalId other goal

theorem setPlan_plans (plan : OrchestrationPlan) (other : PlanId) :
    (store.setPlan plan).plans.get? other =
      if other = plan.id then some plan else store.plans.get? other :=
  Dict.get?_set store.plans plan.id other plan

end OrchestratorStore

def AgentTaskStatus.InProgress (status : AgentTaskStatus) : Prop :=
  status = .pending ∨ status = .assigned ∨ status = .running
deriving Decidable

/-- Cancel the tasks in progress; they stand behind the others then. -/
def OrchestrationPlan.cancel (plan : OrchestrationPlan) : OrchestrationPlan :=
  { plan with
    subtasks :=
      plan.subtasks.filter (fun task => ¬ task.status.InProgress) ++
        (plan.subtasks.filter fun task => task.status.InProgress).map fun task =>
          task.withStatus .cancelled
    status := "cancelled" }

@[simp] theorem OrchestrationPlan.cancel_id (plan : OrchestrationPlan) :
    plan.cancel.id = plan.id :=
  rfl

@[simp] theorem OrchestrationPlan.cancel_goalId (plan : OrchestrationPlan) :
    plan.cancel.goalId = plan.goalId :=
  rfl

def OrchestrationPlan.assign (plan : OrchestrationPlan) (taskId : TaskId)
    (assigned : AgentTask) : OrchestrationPlan :=
  { plan with
    subtasks := plan.subtasks.map fun task => if task.id = taskId then assigned else task }

namespace OrchestratorStore

def cancelPlan (goalId : GoalId) (store : OrchestratorStore) (plan : OrchestrationPlan) :
    OrchestratorStore :=
  if plan.goalId = goalId then store.setPlan plan.cancel else store

def cancelGoal (store : OrchestratorStore) (goalId : GoalId) : OrchestratorStore :=
  match store.goals.get? goalId with
  | none => store
  | some goal =>
    store.plans.values.foldl (cancelPlan goalId)
      (store.setGoal goalId (goal.withStatus "cancelled"))

/-- The plan in which a task is looked up: the first one with a task of that id. -/
def planOf (store : OrchestratorStore) (taskId : TaskId) : Option OrchestrationPlan :=
  store.plans.values.find? fun plan => taskId ∈ plan.taskIds

def assignSubtask (store : OrchestratorStore) (taskId : TaskId) (agentId : AgentId) :
    OrchestratorStore :=
  match store.planOf taskId with
  | none => store
  | some plan =>
    match plan.subtasks.find? fun task => task.id = taskId with
    | none => store
    | some task => store.setPlan (plan.assign taskId (task.withAssigned agentId))

end OrchestratorStore

/-- A call of `execute_plan` with the answers that it will get: whether the swarm is found,
its agents, and the results of the engines. -/
structure PlanExecution where
  planId : PlanId
  swarmFound : Bool
  agents : List AgentId
  outcomes : Nat → EngineOutcome

/-- What a call awaits. Plan and goal are those that were read at its beginning. -/
inductive PlanExecution.Phase
  /-- The swarm. -/
  | swarm (plan : OrchestrationPlan) (goal : OrchestrationGoal)
  /-- The agents of the swarm. -/
  | agents (plan : OrchestrationPlan) (goal : OrchestrationGoal)
  /-- The coordination engine; the goal is marked as running. -/
  | coordination (plan : OrchestrationPlan) (goal : OrchestrationGoal)
  /-- The publication of the result. -/
  | publication (result : OrchestrationPlan)
  | returned (result : Option OrchestrationPlan)
  | raised (error : String)

namespace PlanExecution

/-- The beginning of a call, up to its first suspension. -/
def begin (call : PlanExecution) (store : OrchestratorStore) : Phase :=
  match store.plans.get? call.planId with
  | none => .returned none
  | some plan =>
    match store.goals.get? plan.goalId with
    | none => .returned (some plan)
    | some goal =>
      match goal.swarmId with
      | none => .returned (some plan)
      | some _ => .swarm plan goal

def concluded (goal : OrchestrationGoal) (result : OrchestrationPlan) : OrchestrationGoal :=
  if result.status = "completed" then goal.withStatus "completed"
  else if result.status = "failed" ∨ result.status = "cancelled" then
    goal.withStatus result.status
  else goal

def next (call : PlanExecution) (store : OrchestratorStore) : Phase → OrchestratorStore × Phase
  | .swarm plan goal =>
    if call.swarmFound then (store, .agents plan goal) else (store, .returned (some plan))
  | .agents plan goal =>
    if call.agents = [] then (store, .returned (some plan))
    else
      let goal := goal.withStatus "running"
      (store.setGoal plan.goalId goal, .coordination plan goal)
  | .coordination plan goal =>
    match execute call.agents call.outcomes plan with
    | .error error => (store, .raised error)
    | .ok result =>
      ((store.setPlan result).setGoal plan.goalId (concluded goal result), .publication result)
  | .publication result => (store, .returned (some result))
  | .returned result => (store, .returned result)
  | .raised error => (store, .raised error)

/-- Continue a call four times; it is over then. -/
def finish (call : PlanExecution) (state : OrchestratorStore × Phase) : OrchestratorStore × Phase :=
  let resume := fun state : OrchestratorStore × Phase => call.next state.1 state.2
  resume (resume (resume (resume state)))

/-- Execute a plan without anything happening in between. -/
def executePlan (call : PlanExecution) (store : OrchestratorStore) : OrchestratorStore × Phase :=
  call.finish (store, call.begin store)

end PlanExecution

end AgenticOS.Orchestration
