import AgenticOS.Orchestration.Plan
import AgenticOS.Data.Dependencies

/-!
# The coordination engine

`execute` runs the subtasks of a plan in one of several patterns. A task is run by one
call of an engine, and the calls of one execution are numbered in the order in which the
pattern lists them: `outcomes` says how each of them ends.

The engine map takes an agent to an engine of the same id, so only its keys matter: the
agents of the swarm.
-/

namespace AgenticOS.Orchestration

open List OrchestrationPlan

inductive EngineOutcome
  /-- A result with status completed. -/
  | completed (output : Payload)
  /-- A result with any other status. -/
  | ended (error : Option String)
  /-- No result. -/
  | nothing
  /-- The deadline of the task passes. -/
  | timeout
  /-- An exception. -/
  | raised (error : String)
  /-- A cancellation, or an exception behind the handler of exceptions: the output of a
  completed result is no dictionary. -/
  | escaped (error : String)

def executeSingleTask (agents : List AgentId) (task : AgentTask) (outcome : EngineOutcome) :
    Except String AgentTask :=
  match task.assignedAgentId with
  | none => .ok (task.withError (some "No agent assigned"))
  | some agentId =>
    if agentId ∉ agents then
      .ok (task.withError (some ("No engine mapping for agent: " ++ agentId)))
    else
      match outcome with
      | .completed output => .ok (task.withOutput output)
      | .ended error => .ok (task.withError error)
      | .nothing => .ok (task.withError (some "Execution failed"))
      | .timeout =>
        .ok (task.withError (some ("Task timed out after " ++ task.timeoutSeconds ++ "s")))
      | .raised error => .ok (task.withError (some error))
      | .escaped error => .error error

def gathered (task : AgentTask) : Except String AgentTask → AgentTask
  | .ok result => result
  | .error error => task.withError (some error)

section

variable (agents : List AgentId) (outcomes : Nat → EngineOutcome)

/-- Execute tasks one at a time in order, from the given call on. The first failure cancels
all later tasks. -/
def executeSequential : Nat → List AgentTask → Except String (List AgentTask)
  | _, [] => .ok []
  | call, task :: rest =>
    match executeSingleTask agents task (outcomes call) with
    | .error error => .error error
    | .ok result =>
      if result.status = .failed then
        .ok (result :: rest.map fun later => later.withStatus .cancelled)
      else
        match executeSequential (call + 1) rest with
        | .error error => .error error
        | .ok results => .ok (result :: results)

def executeParallel : Nat → List AgentTask → List AgentTask
  | _, [] => []
  | call, task :: rest =>
    gathered task (executeSingleTask agents task (outcomes call)) ::
      executeParallel (call + 1) rest

def broadcast (task : AgentTask) : Nat → List AgentId → List AgentTask
  | _, [] => []
  | call, agentId :: rest =>
    gathered task (executeSingleTask agents (task.withAssigned agentId) (outcomes call)) ::
      broadcast task (call + 1) rest

/-- Fan-out: each agent receives the same task, the results are collected. -/
def executeFanOut : List AgentTask → List AgentTask
  | [] => []
  | task :: _ => broadcast agents outcomes task 0 agents

/-- Fan-in: each agent produces; the results are what is returned. -/
def executeFanIn : List AgentTask → List AgentTask
  | [] => []
  | task :: _ => broadcast agents outcomes task 0 agents

/-- The state of the hierarchical execution: the ids in the dictionary of completed tasks,
the tasks that remain, the results, and the tasks that a deadlock has failed. -/
structure Hierarchy where
  completed : List TaskId
  remaining : List AgentTask
  updated : List AgentTask
  deadlocked : List AgentTask

namespace Hierarchy

def ready (hierarchy : Hierarchy) : List AgentTask :=
  hierarchy.remaining.filter fun task => ∀ dep ∈ task.dependsOn, dep ∈ hierarchy.completed

def deadlock (hierarchy : Hierarchy) : Hierarchy :=
  { hierarchy with
    updated := hierarchy.updated ++ hierarchy.remaining.map fun task =>
      task.withError (some "Dependency deadlock — dependencies never completed")
    deadlocked := hierarchy.remaining }

/-- Execute the ready tasks. They count as completed, however their execution ends. -/
def layer (hierarchy : Hierarchy) : Hierarchy :=
  let completed := hierarchy.completed ++ hierarchy.ready.map AgentTask.id
  { hierarchy with
    completed
    remaining := hierarchy.remaining.filter fun task => task.id ∉ completed
    updated := hierarchy.updated ++
      executeParallel agents outcomes hierarchy.updated.length hierarchy.ready }

/-- The loop over the layers. The first argument bounds the number of turns. -/
def loop : Nat → Hierarchy → Hierarchy
  | 0, hierarchy => hierarchy
  | turns + 1, hierarchy =>
    if hierarchy.remaining = [] then hierarchy
    else if hierarchy.ready = [] then hierarchy.deadlock
    else loop turns (hierarchy.layer agents outcomes)

/-- Before the first layer. -/
def begin (tasks : List AgentTask) : Hierarchy where
  completed := []
  remaining := tasks
  updated := []
  deadlocked := []

end Hierarchy

/-- The layers of the hierarchical execution. Each turn completes a task, so that one turn
for each task is enough. -/
def hierarchy (tasks : List AgentTask) : Hierarchy :=
  Hierarchy.loop agents outcomes tasks.length (.begin tasks)

/-- Hierarchical: tasks complete before those that depend on them. -/
def executeHierarchical (tasks : List AgentTask) : List AgentTask :=
  (hierarchy agents outcomes tasks).updated

end

def OrchestrationPlan.pattern (plan : OrchestrationPlan) : CoordinationPattern :=
  (plan.subtasks.findSome? AgentTask.coordinationPattern).getD .sequential

/-- The tasks as the pattern of the plan leaves them. Voting has no executor of its own. -/
def updatedTasks (agents : List AgentId) (outcomes : Nat → EngineOutcome)
    (plan : OrchestrationPlan) : Except String (List AgentTask) :=
  match plan.pattern with
  | .parallel => .ok (executeParallel agents outcomes 0 plan.subtasks)
  | .fanOut => .ok (executeFanOut agents outcomes plan.subtasks)
  | .fanIn => .ok (executeFanIn agents outcomes plan.subtasks)
  | .hierarchical => .ok (executeHierarchical agents outcomes plan.subtasks)
  | .sequential | .voting => executeSequential agents outcomes 0 plan.subtasks

def AgentTaskStatus.IsDone (status : AgentTaskStatus) : Prop :=
  status = .completed ∨ status = .failed ∨ status = .cancelled
deriving Decidable

def execute (agents : List AgentId) (outcomes : Nat → EngineOutcome)
    (plan : OrchestrationPlan) : Except String OrchestrationPlan :=
  if plan.subtasks = [] then .ok (plan.withStatus "completed")
  else
    match updatedTasks agents outcomes plan with
    | .error error => .error error
    | .ok updated =>
      .ok { plan with
        subtasks := updated
        status := if ∀ task ∈ updated, task.status.IsDone then "completed" else "running" }

/-!
## The layers of the hierarchical execution

Without repeated ids the hierarchical execution is a run through layers: the tasks that
are resolvable are executed, each behind its dependencies, and a deadlock fails the rest.
How the engine calls end makes no difference to that, a failed task counts as completed.
-/

open AgenticOS.Dependencies

variable {agents : List AgentId} {outcomes : Nat → EngineOutcome}

theorem executeSingleTask_id {task result : AgentTask} {outcome : EngineOutcome}
    (executed : executeSingleTask agents task outcome = .ok result) : result.id = task.id := by
  cases assigned : task.assignedAgentId with
  | none =>
    simp only [executeSingleTask, assigned] at executed
    cases executed
    rfl
  | some agentId =>
    simp only [executeSingleTask, assigned] at executed
    split at executed
    next =>
      cases executed
      rfl
    next => cases outcome <;> cases executed <;> rfl

theorem gathered_id (task : AgentTask) {executed : Except String AgentTask}
    (kept : ∀ result, executed = .ok result → result.id = task.id) :
    (gathered task executed).id = task.id := by
  cases executed with
  | error error => rfl
  | ok result => exact kept result rfl

@[simp]
theorem map_id_executeParallel (call : Nat) (tasks : List AgentTask) :
    (executeParallel agents outcomes call tasks).map AgentTask.id = tasks.map AgentTask.id := by
  induction tasks generalizing call with
  | nil => rfl
  | cons task rest ih =>
    rw [executeParallel, map_cons, map_cons, ih,
      gathered_id task fun result executed => executeSingleTask_id executed]

namespace Hierarchy

variable {plan : OrchestrationPlan} {hierarchy : Hierarchy}

/-- The state between two layers, in a plan without repeated ids. -/
structure Sorted (plan : OrchestrationPlan) (hierarchy : Hierarchy) : Prop where
  layered : Layered plan.taskIds plan.dependencies hierarchy.completed
    (hierarchy.remaining.map AgentTask.id)
  listed : ∀ task ∈ hierarchy.remaining, task ∈ plan.subtasks
  updated : hierarchy.updated.map AgentTask.id = hierarchy.completed
  deadlocked : hierarchy.deadlocked = []

theorem Sorted.begin (distinct : plan.taskIds.Nodup) : Sorted plan (.begin plan.subtasks) where
  layered := .begin distinct (.refl plan.taskIds)
  listed := fun _ member => member
  updated := rfl
  deadlocked := rfl

theorem mem_ready_iff {task : AgentTask} : task ∈ hierarchy.ready ↔
      task ∈ hierarchy.remaining ∧ ∀ dep ∈ task.dependsOn, dep ∈ hierarchy.completed := by
  simp [ready]

section

variable (sorted : Sorted plan hierarchy)
include sorted

theorem Sorted.mem_ready_ids_iff {task : AgentTask} (waits : task ∈ hierarchy.remaining) :
    task.id ∈ hierarchy.ready.map AgentTask.id ↔
      Ready plan.dependencies hierarchy.completed task.id := by
  rw [Ready, dependencies_eq sorted.layered.nodup (sorted.listed task waits)]
  constructor
  · intro member
    rcases mem_map.mp member with ⟨other, isReady, same⟩
    rcases mem_ready_iff.mp isReady with ⟨otherWaits, done⟩
    obtain rfl := eq_of_id_eq sorted.layered.nodup
      (sorted.listed other otherWaits) (sorted.listed task waits) same
    exact done
  · intro done
    exact mem_map_of_mem (mem_ready_iff.mpr ⟨waits, done⟩)

theorem Sorted.remaining_layer :
    (hierarchy.layer agents outcomes).remaining =
      hierarchy.remaining.filter fun task =>
        !decide (∀ dep ∈ task.dependsOn, dep ∈ hierarchy.completed) := by
  apply filter_congr
  intro task waits
  have open_ : task.id ∉ hierarchy.completed := sorted.layered.not_mem_done (mem_map_of_mem waits)
  have isReady := sorted.mem_ready_ids_iff waits
  rw [Ready, dependencies_eq sorted.layered.nodup
    (sorted.listed task waits)] at isReady
  by_cases done : ∀ dep ∈ task.dependsOn, dep ∈ hierarchy.completed
  · simp only [mem_append, isReady.mpr done, or_true]
    simpa using done
  · have notReady := mt isReady.mp done
    simp [mem_append, open_, notReady, done]

theorem Sorted.layer : Sorted plan (hierarchy.layer agents outcomes) where
  layered := by
    rw [sorted.remaining_layer]
    apply sorted.layered.advance
    · intro id member
      rcases mem_map.mp member with ⟨task, isReady, rfl⟩
      exact (sorted.mem_ready_ids_iff (mem_ready_iff.mp isReady).1).mp member
    · rw [← map_append]
      exact (filter_append_perm _ hierarchy.remaining).map AgentTask.id
  listed := by
    intro task member
    exact sorted.listed task (mem_of_mem_filter member)
  updated := by
    simp [Hierarchy.layer, sorted.updated]
  deadlocked := sorted.deadlocked

end

theorem length_remaining_layer (progress : hierarchy.ready ≠ []) :
    (hierarchy.layer agents outcomes).remaining.length < hierarchy.remaining.length := by
  obtain ⟨task, isReady⟩ := exists_mem_of_ne_nil hierarchy.ready progress
  apply length_filter_lt_length_iff_exists.mpr
  refine ⟨task, (mem_ready_iff.mp isReady).1, ?_⟩
  have finished : task.id ∈ hierarchy.ready.map AgentTask.id := mem_map_of_mem isReady
  simp only [mem_append, finished, or_true]
  simp

/-- The state behind the loop: no remaining task is ready, and the remaining ones are those
that a deadlock has failed. -/
structure Settled (plan : OrchestrationPlan) (hierarchy : Hierarchy) : Prop where
  layered : Layered plan.taskIds plan.dependencies hierarchy.completed
    (hierarchy.remaining.map AgentTask.id)
  stuck : ∀ id ∈ hierarchy.remaining.map AgentTask.id,
    ¬ Ready plan.dependencies hierarchy.completed id
  deadlocked : hierarchy.deadlocked = hierarchy.remaining
  updated : hierarchy.updated.map AgentTask.id =
    hierarchy.completed ++ hierarchy.remaining.map AgentTask.id

theorem Sorted.settled_of_empty (sorted : Sorted plan hierarchy)
    (empty : hierarchy.remaining = []) : Settled plan hierarchy where
  layered := sorted.layered
  stuck := by simp [empty]
  deadlocked := by rw [sorted.deadlocked, empty]
  updated := by simp [sorted.updated, empty]

theorem Sorted.settled_deadlock (sorted : Sorted plan hierarchy)
    (stuck : hierarchy.ready = []) : Settled plan hierarchy.deadlock where
  layered := sorted.layered
  stuck := by
    intro id member isReady
    rcases mem_map.mp member with ⟨task, waits, rfl⟩
    have listed := (sorted.mem_ready_ids_iff waits).mpr isReady
    rw [stuck] at listed
    exact not_mem_nil listed
  deadlocked := rfl
  updated := by
    simp [deadlock, sorted.updated, Function.comp_def]

theorem Sorted.loop (turns : Nat) (sorted : Sorted plan hierarchy)
    (enough : hierarchy.remaining.length ≤ turns) :
    Settled plan (loop agents outcomes turns hierarchy) := by
  induction turns generalizing hierarchy with
  | zero => exact sorted.settled_of_empty (length_eq_zero_iff.mp (Nat.le_zero.mp enough))
  | succ turns ih =>
    rw [Hierarchy.loop]
    split
    next empty => exact sorted.settled_of_empty empty
    next =>
      split
      next stuck => exact sorted.settled_deadlock stuck
      next progress =>
        apply ih sorted.layer
        have fewer : (hierarchy.layer agents outcomes).remaining.length <
            hierarchy.remaining.length :=
          length_remaining_layer progress
        exact Nat.le_of_lt_succ (Nat.lt_of_lt_of_le fewer enough)

end Hierarchy

theorem hierarchy_settled (agents : List AgentId) (outcomes : Nat → EngineOutcome)
    {plan : OrchestrationPlan} (distinct : plan.taskIds.Nodup) :
    (hierarchy agents outcomes plan.subtasks).Settled plan :=
  (Hierarchy.Sorted.begin distinct).loop _ (Nat.le_refl _)

/-! ## Dependencies that fail

What has been executed counts as completed, however the execution has ended. So the layers do
not depend on the engines, and a task is executed behind failed dependencies as behind others.
-/

namespace Hierarchy

/-- The states in which the loop executes a layer. -/
def layers (agents : List AgentId) (outcomes : Nat → EngineOutcome) :
    Nat → Hierarchy → List Hierarchy
  | 0, _ => []
  | turns + 1, hierarchy =>
    if hierarchy.ready = [] then []
    else hierarchy :: layers agents outcomes turns (hierarchy.layer agents outcomes)

def Honours (hierarchy : Hierarchy) : Prop :=
  ∀ task ∈ hierarchy.ready, ∀ dep ∈ task.dependsOn,
    (∃ result ∈ hierarchy.updated, result.id = dep) ∧
      ∀ result ∈ hierarchy.updated, result.id = dep → result.status = .completed

def scheduled : Nat → List TaskId → List AgentTask → List AgentTask
  | 0, _, _ => []
  | turns + 1, taken, remaining =>
    let batch := remaining.filter fun task => ∀ dep ∈ task.dependsOn, dep ∈ taken
    let taken := taken ++ batch.map AgentTask.id
    if batch = [] then []
    else batch ++ scheduled turns taken (remaining.filter fun task => task.id ∉ taken)

end Hierarchy

def Succeeds (agents : List AgentId) (task : AgentTask) (outcome : EngineOutcome) : Prop :=
  (∃ agentId ∈ agents, task.assignedAgentId = some agentId) ∧ ∃ output, outcome = .completed output

def DependenciesSucceed (agents : List AgentId) (outcomes : Nat → EngineOutcome)
    (schedule : List AgentTask) (waiting : List AgentTask) : Prop :=
  ∀ later ∈ waiting, ∀ call task, schedule[call]? = some task → task.id ∈ later.dependsOn →
    Succeeds agents task (outcomes call)

theorem gathered_completed_iff {task : AgentTask} {outcome : EngineOutcome} :
    (gathered task (executeSingleTask agents task outcome)).status = .completed ↔
      Succeeds agents task outcome := by
  unfold executeSingleTask Succeeds
  cases task.assignedAgentId with
  | none => simp [gathered]
  | some agentId =>
    by_cases known : agentId ∈ agents
    · cases outcome <;> simp [gathered, known]
    · simp [gathered, known]

theorem executeParallel_append (call : Nat) (tasks more : List AgentTask) :
    executeParallel agents outcomes call (tasks ++ more) =
      executeParallel agents outcomes call tasks ++
        executeParallel agents outcomes (call + tasks.length) more := by
  induction tasks generalizing call with
  | nil => rfl
  | cons task rest ih =>
    rw [cons_append, executeParallel, executeParallel, ih, length_cons,
      Nat.add_right_comm, cons_append, Nat.add_assoc]

theorem length_executeParallel (call : Nat) (tasks : List AgentTask) :
    (executeParallel agents outcomes call tasks).length = tasks.length := by
  rw [← length_map AgentTask.id, map_id_executeParallel, length_map]

theorem mem_executeParallel {call : Nat} {tasks : List AgentTask} {result : AgentTask} :
    result ∈ executeParallel agents outcomes call tasks ↔
      ∃ index task, tasks[index]? = some task ∧
        result = gathered task (executeSingleTask agents task (outcomes (call + index))) := by
  induction tasks generalizing call with
  | nil => simp [executeParallel]
  | cons task rest ih =>
    rw [executeParallel, mem_cons, ih]
    constructor
    · rintro (rfl | ⟨index, other, found, rfl⟩)
      · exact ⟨0, task, rfl, rfl⟩
      · exact ⟨index + 1, other, found, by rw [Nat.add_assoc, Nat.add_comm 1]⟩
    · rintro ⟨_ | index, other, found, rfl⟩
      · cases found
        exact .inl rfl
      · exact .inr ⟨index, other, found, by rw [Nat.add_assoc, Nat.add_comm 1]⟩

namespace Hierarchy

theorem mem_of_mem_scheduled {turns : Nat} {taken : List TaskId} {remaining : List AgentTask}
    {task : AgentTask} (member : task ∈ scheduled turns taken remaining) : task ∈ remaining := by
  induction turns generalizing taken remaining with
  | zero => exact absurd member not_mem_nil
  | succ turns ih =>
    rw [scheduled] at member
    split at member
    · exact absurd member not_mem_nil
    · rcases mem_append.mp member with first | later
      · exact (mem_filter.mp first).1
      · exact (mem_filter.mp (ih later)).1

theorem scheduled_subperm (turns : Nat) (taken : List TaskId) (remaining : List AgentTask) :
    (scheduled turns taken remaining).Subperm remaining := by
  induction turns generalizing taken remaining with
  | zero => exact nil_subperm
  | succ turns ih =>
    rw [scheduled]
    split
    · exact nil_subperm
    · refine ((subperm_append_left _).mpr ((ih _ _).trans ?_)).trans
        (filter_append_perm
          (fun task => decide (∀ dep ∈ task.dependsOn, dep ∈ taken)) remaining).subperm
      have notReady : ∀ task ∈ remaining, decide (task.id ∉ taken ++
          (remaining.filter fun task => ∀ dep ∈ task.dependsOn, dep ∈ taken).map AgentTask.id) =
            (decide (task.id ∉ taken ++
              (remaining.filter fun task => ∀ dep ∈ task.dependsOn, dep ∈ taken).map
                AgentTask.id) && !decide (∀ dep ∈ task.dependsOn, dep ∈ taken)) := by
        intro task member
        rw [Bool.eq_iff_iff]
        simp only [Bool.and_eq_true, decide_eq_true_eq, Bool.not_eq_true', decide_eq_false_iff_not]
        refine (and_iff_left_of_imp fun fresh isReady => ?_).symm
        apply fresh
        exact mem_append_right _
          (mem_map_of_mem (mem_filter.mpr ⟨member, by simpa using isReady⟩))
      rw [filter_congr notReady, ← filter_filter]
      exact filter_sublist.subperm

variable {hierarchy : Hierarchy}

theorem scheduled_of_none (turns : Nat) (none : hierarchy.ready = []) :
    scheduled (turns + 1) hierarchy.completed hierarchy.remaining = [] :=
  if_pos none

theorem scheduled_of_some (agents : List AgentId) (outcomes : Nat → EngineOutcome) (turns : Nat)
    (some : hierarchy.ready ≠ []) : scheduled (turns + 1) hierarchy.completed hierarchy.remaining =
      hierarchy.ready ++ scheduled turns (hierarchy.layer agents outcomes).completed
        (hierarchy.layer agents outcomes).remaining :=
  if_neg some

theorem flatMap_ready_layers (turns : Nat) :
    (layers agents outcomes turns hierarchy).flatMap ready =
      scheduled turns hierarchy.completed hierarchy.remaining := by
  induction turns generalizing hierarchy with
  | zero => rfl
  | succ turns ih =>
    rw [layers]
    split
    next none => rw [scheduled_of_none turns none, flatMap_nil]
    next some => rw [scheduled_of_some agents outcomes turns some, flatMap_cons, ih]

/-- Only what was executed before a layer matters to it: nothing with the same id comes later. -/
theorem honours_iff {executed later : List AgentTask}
    (completed : hierarchy.completed = executed.map AgentTask.id)
    (updated : hierarchy.updated = executeParallel agents outcomes 0 executed)
    (fresh : ∀ task ∈ later, task.id ∉ hierarchy.completed) : hierarchy.Honours ↔
      DependenciesSucceed agents outcomes (executed ++ later) hierarchy.ready := by
  refine forall₂_congr fun task isReady => ?_
  have done := (mem_ready_iff.mp isReady).2
  rw [updated]
  simp only [mem_executeParallel, Nat.zero_add]
  constructor
  · intro honoured call other found depends
    obtain inside | outside := Nat.lt_or_ge call executed.length
    · rw [getElem?_append_left inside] at found
      rw [← gathered_completed_iff]
      refine (honoured other.id depends).2 _ ⟨call, other, found, rfl⟩ ?_
      exact gathered_id other fun result => executeSingleTask_id
    · rw [getElem?_append_right outside] at found
      exact absurd (done _ depends) (fresh other (mem_of_getElem? found))
  · intro succeed dep depends
    constructor
    · have known := done dep depends
      rw [completed] at known
      obtain ⟨other, member, rfl⟩ := mem_map.mp known
      obtain ⟨call, found⟩ := mem_iff_getElem?.mp member
      exact ⟨_, ⟨call, other, found, rfl⟩, gathered_id other fun result => executeSingleTask_id⟩
    · rintro _ ⟨call, other, found, rfl⟩ rfl
      have same : (gathered other (executeSingleTask agents other (outcomes call))).id = other.id :=
        gathered_id other fun result => executeSingleTask_id
      rw [same] at depends
      rw [gathered_completed_iff]
      have inside := (List.getElem?_eq_some_iff.mp found).1
      exact succeed call other (by rw [getElem?_append_left inside, found]) depends

theorem honours_layers_iff (turns : Nat) {executed : List AgentTask}
    (completed : hierarchy.completed = executed.map AgentTask.id)
    (updated : hierarchy.updated = executeParallel agents outcomes 0 executed)
    (fresh : ∀ task ∈ hierarchy.remaining, task.id ∉ hierarchy.completed) :
    (∀ state ∈ layers agents outcomes turns hierarchy, Honours state) ↔
      DependenciesSucceed agents outcomes
        (executed ++ scheduled turns hierarchy.completed hierarchy.remaining)
        (scheduled turns hierarchy.completed hierarchy.remaining) := by
  induction turns generalizing hierarchy executed with
  | zero => simp [layers, scheduled, DependenciesSucceed]
  | succ turns ih =>
    have unscheduled : hierarchy.Honours ↔ DependenciesSucceed agents outcomes
        (executed ++ scheduled (turns + 1) hierarchy.completed hierarchy.remaining)
        hierarchy.ready :=
      honours_iff completed updated fun task member => fresh task (mem_of_mem_scheduled member)
    rw [layers]
    split
    next none =>
      rw [scheduled_of_none turns none]
      exact iff_of_true nofun nofun
    next some =>
      have completedNext : (hierarchy.layer agents outcomes).completed =
          (executed ++ hierarchy.ready).map AgentTask.id := by
        rw [map_append, ← completed]
        rfl
      have updatedNext : (hierarchy.layer agents outcomes).updated =
          executeParallel agents outcomes 0 (executed ++ hierarchy.ready) := by
        have counted : hierarchy.updated.length = executed.length := by
          rw [updated, length_executeParallel]
        rw [executeParallel_append, ← updated, Nat.zero_add, ← counted]
        rfl
      rw [scheduled_of_some agents outcomes turns some] at unscheduled ⊢
      rw [forall_mem_cons, unscheduled, ← append_assoc, ih completedNext updatedNext
        fun task member => of_decide_eq_true (mem_filter.mp member).2]
      exact forall_mem_append.symm

theorem honours_begin_iff (turns : Nat) (tasks : List AgentTask) :
    (∀ state ∈ layers agents outcomes turns (.begin tasks), Honours state) ↔
      DependenciesSucceed agents outcomes (scheduled turns [] tasks) (scheduled turns [] tasks) :=
  @honours_layers_iff agents outcomes (.begin tasks) turns [] rfl rfl (by simp [Hierarchy.begin])

theorem loop_succ (turns : Nat) (enough : hierarchy.remaining.length ≤ turns) :
    loop agents outcomes (turns + 1) hierarchy = loop agents outcomes turns hierarchy := by
  induction turns generalizing hierarchy with
  | zero => exact if_pos (length_eq_zero_iff.mp (Nat.le_zero.mp enough))
  | succ turns ih =>
    refine if_congr .rfl rfl ?_
    split
    next => rfl
    next progress =>
      exact ih (Nat.le_of_lt_succ ((length_remaining_layer progress).trans_le enough))

end Hierarchy

end AgenticOS.Orchestration
