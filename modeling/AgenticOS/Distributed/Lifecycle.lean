import AgenticOS.Distributed.Executor

/-!
# The end of a distributed task

A task that has been completed, has failed or has run out of time should stay so, and the
statistics should count it once. The check for timeouts looks at the status of a task before
it writes; the answers of the transport and of the remote node are written without a look.
The invariants hold as long as all of these come in time.
-/

namespace AgenticOS.Distributed

open Transition List Option

namespace DistributedExecutor

/-- The states in which a task stays. -/
def terminal : DistributedTaskStatus → Bool
  | .completed | .failed | .timeout => true
  | _ => false

/-- What the statistics count of a state. -/
def counter (stats : ExecutorStats) : DistributedTaskStatus → Nat
  | .completed => stats.completed
  | .failed => stats.failed
  | .timeout => stats.timedOut
  | _ => 0

variable {executor before after : DistributedExecutor}

/-- The statistics are the numbers of tasks in the three states. -/
def Counted (executor : DistributedExecutor) : Prop :=
  executor.stats.completed = (executor.listTasks .completed).length ∧
    executor.stats.failed = (executor.listTasks .failed).length ∧
    executor.stats.timedOut = (executor.listTasks .timeout).length
deriving Decidable

def statusOf (executor : DistributedExecutor) (id : String) : Option DistributedTaskStatus :=
  (executor.tasks.get? id).map DistributedTask.status

/-- A task is in one of the three states. -/
def closed (executor : DistributedExecutor) (id : String) : Bool :=
  (executor.statusOf id).any terminal

variable {id : String}

theorem closed_iff :
    executor.closed id ↔ ∃ status, executor.statusOf id = some status ∧ terminal status = true := by
  unfold closed
  cases executor.statusOf id <;> simp

/-- No task leaves one of the three states. -/
def Keeps (before after : DistributedExecutor) : Prop :=
  ∀ id status, before.statusOf id = some status → terminal status = true →
    after.statusOf id = some status

theorem Keeps.refl (executor : DistributedExecutor) : Keeps executor executor :=
  fun _ _ found _ => found

theorem Keeps.trans {third : DistributedExecutor} (first : Keeps before after)
    (second : Keeps after third) : Keeps before third :=
  fun id status found isTerminal =>
    second id status (first id status found isTerminal) isTerminal

/-- The tasks are registered under their ids. -/
def Keyed (executor : DistributedExecutor) : Prop :=
  ∀ id task, executor.tasks.get? id = some task → task.id = id

theorem length_listTasks (status : DistributedTaskStatus) : (executor.listTasks status).length =
      executor.tasks.sumBy fun _ task => if task.status = status then 1 else 0 := by
  unfold listTasks Dict.values Dict.sumBy
  induction executor.tasks.entries with
  | nil => rfl
  | cons entry entries ih =>
    rw [map_cons, map_cons, sum_cons, ← ih]
    by_cases same : entry.2.status = status
    · simp [same, Nat.add_comm]
    · simp [same]

theorem counted_iff : executor.Counted ↔ ∀ status, terminal status = true →
      counter executor.stats status = (executor.listTasks status).length := by
  constructor
  · rintro ⟨completed, failed, timedOut⟩ status isTerminal
    cases status with
    | completed => exact completed
    | failed => exact failed
    | timeout => exact timedOut
    | pending | dispatched | acknowledged | executing | cancelled => cases isTerminal
  · intro all
    exact ⟨all .completed rfl, all .failed rfl, all .timeout rfl⟩

/-- One task is written, and counted if it is in one of the three states afterwards. -/
def Writes (before after : DistributedExecutor) (id : String) : Prop :=
  ∃ task, after.tasks = before.tasks.set id task ∧ task.id = id ∧
    ∀ status, terminal status = true → counter after.stats status =
      counter before.stats status + if task.status = status then 1 else 0

section

variable (writes : Writes before after id)
include writes

/-- The counters stay right exactly if the task had not been counted before. -/
theorem Writes.counted_iff (counted : before.Counted) : after.Counted ↔ ¬ before.closed id := by
  obtain ⟨task, tasks, -, counters⟩ := writes
  rw [DistributedExecutor.counted_iff] at counted ⊢
  have moved : ∀ status, (after.listTasks status).length +
      ((before.tasks.get? id).map fun old => if old.status = status then 1 else 0).getD 0 =
        (before.listTasks status).length + if task.status = status then 1 else 0 := by
    intro status
    rw [length_listTasks, length_listTasks, tasks]
    exact before.tasks.sumBy_set_add (fun _ task => if task.status = status then 1 else 0) id task
  have each : ∀ status, terminal status = true →
      (counter after.stats status = (after.listTasks status).length ↔
        before.statusOf id ≠ some status) := by
    intro status isTerminal
    have sum := moved status
    have count := counters status isTerminal
    have was := counted status isTerminal
    unfold statusOf
    cases found : before.tasks.get? id with
    | none =>
      rw [found, map_none, getD_none] at sum
      simp
      omega
    | some old =>
      rw [found, map_some, getD_some] at sum
      by_cases same : old.status = status
      · simp [same] at sum ⊢
        omega
      · simp [same] at sum ⊢
        omega
  constructor
  · intro all isClosed
    obtain ⟨status, found, isTerminal⟩ := closed_iff.mp isClosed
    exact (each status isTerminal).mp (all status isTerminal) found
  · intro isOpen status isTerminal
    refine (each status isTerminal).mpr fun found => isOpen ?_
    unfold closed
    rw [found]
    exact isTerminal

theorem Writes.keeps (isOpen : ¬ before.closed id) : Keeps before after := by
  obtain ⟨task, tasks, -, -⟩ := writes
  intro other status found isTerminal
  have another : other ≠ id := by
    rintro rfl
    exact isOpen (closed_iff.mpr ⟨status, found, isTerminal⟩)
  unfold statusOf at found ⊢
  rw [tasks, Dict.get?_set_ne _ another, found]

theorem Writes.keyed (keyed : before.Keyed) : after.Keyed := by
  obtain ⟨task, tasks, named, -⟩ := writes
  intro other found isFound
  rw [tasks, Dict.get?_set] at isFound
  split at isFound
  · rename_i same
    cases isFound
    exact named.trans same.symm
  · exact keyed other found isFound

end

theorem Writes.intro (task : DistributedTask) (tasks : after.tasks = before.tasks.set id task)
    (named : task.id = id) (completed : after.stats.completed =
      before.stats.completed + if task.status = .completed then 1 else 0)
    (failed : after.stats.failed = before.stats.failed + if task.status = .failed then 1 else 0)
    (timedOut : after.stats.timedOut =
      before.stats.timedOut + if task.status = .timeout then 1 else 0) :
    Writes before after id := by
  refine ⟨task, tasks, named, fun status isTerminal => ?_⟩
  cases status with
  | completed => exact completed
  | failed => exact failed
  | timeout => exact timedOut
  | pending | dispatched | acknowledged | executing | cancelled => cases isTerminal

theorem launch_writes (executor : DistributedExecutor) (task : DistributedTask)
    (now : Timestamp) : Writes executor (executor.launch task now).1 task.id := by
  unfold launch
  dsimp only
  split
  · exact .intro _ rfl rfl rfl rfl rfl
  · exact .intro _ rfl rfl rfl rfl rfl

variable {task : DistributedTask}

theorem returned_writes (keyed : executor.Keyed) {taskId : String}
    (registered : executor.tasks.get? taskId = some task) (delivered : Bool) (now : Timestamp) :
    Writes executor (returned delivered now executor (.waiting taskId)).1 taskId := by
  have named := keyed taskId task registered
  unfold returned
  dsimp only
  rw [registered]
  dsimp only
  cases delivered with
  | true => exact .intro _ rfl named rfl rfl rfl
  | false =>
    rw [if_neg (by simp)]
    split
    · subst named
      obtain ⟨written, tasks, sameId, counters⟩ :=
        launch_writes
          { executor with
            stats := { executor.stats with retried := executor.stats.retried + 1 } }
          { task with retries := task.retries + 1 } now
      refine ⟨written, tasks, sameId, fun status isTerminal => ?_⟩
      rw [counters status isTerminal]
      cases status <;> rfl
    · exact .intro _ rfl named rfl rfl rfl

theorem receiveAcknowledgement_writes (keyed : executor.Keyed) {ack : TaskAcknowledgement}
    (registered : executor.tasks.get? ack.taskId = some task) (now : Timestamp) :
    Writes executor (executor.receiveAcknowledgement ack now).1 ack.taskId := by
  have named := keyed ack.taskId task registered
  unfold receiveAcknowledgement
  rw [registered]
  dsimp only
  split
  · exact .intro _ rfl named rfl rfl rfl
  · exact .intro _ rfl named rfl rfl rfl

theorem receiveCompletion_writes (keyed : executor.Keyed) {taskId : String}
    (registered : executor.tasks.get? taskId = some task) (result : TaskResult) (success : Bool)
    (now : Timestamp) :
    Writes executor (executor.receiveCompletion taskId result success now).1 taskId := by
  have named := keyed taskId task registered
  unfold receiveCompletion
  rw [registered]
  dsimp only
  split
  · exact .intro _ rfl named rfl rfl rfl
  · exact .intro _ rfl named rfl rfl rfl

/-! ## Timeouts -/

theorem timeOut_status {now : Timestamp} :
    (timeOut now task).status = if outOfTime now task then .timeout else task.status := by
  unfold timeOut
  split <;> rfl

theorem timeOut_id (now : Timestamp) (task : DistributedTask) :
    (timeOut now task).id = task.id := by
  unfold timeOut
  split <;> rfl

theorem not_terminal_of_outOfTime {now : Timestamp} (out : outOfTime now task = true) :
    terminal task.status = false := by
  unfold outOfTime at out
  rw [Bool.and_eq_true, decide_eq_true_iff] at out
  have underWay := out.1
  simp only [mem_cons, not_mem_nil, or_false] at underWay
  rcases underWay with status | status | status <;> rw [status] <;> rfl

theorem countP_timeOut (now : Timestamp) {status : DistributedTaskStatus}
    (isTerminal : terminal status = true) (tasks : List DistributedTask) :
    (tasks.map (timeOut now)).countP (fun task => task.status = status) =
      tasks.countP (fun task => task.status = status) +
        if status = .timeout then tasks.countP (outOfTime now) else 0 := by
  induction tasks with
  | nil => simp
  | cons task tasks ih =>
    rw [map_cons, countP_cons, countP_cons, countP_cons, ih, timeOut_status]
    by_cases out : outOfTime now task
    · have other : task.status ≠ status := by
        intro same
        have stillOpen := not_terminal_of_outOfTime out
        rw [same, isTerminal] at stillOpen
        cases stillOpen
      by_cases isTimeout : status = .timeout
      · subst isTimeout
        simp [out, other]
        omega
      · simp [out, other, isTimeout, Ne.symm isTimeout]
    · by_cases isTimeout : status = .timeout
      · simp [out, isTimeout]
        omega
      · simp [out, isTimeout]

theorem Counted.checkTimeouts (counted : executor.Counted) (now : Timestamp) :
    (executor.checkTimeouts now).1.Counted := by
  rw [counted_iff] at counted ⊢
  intro status isTerminal
  have was := counted status isTerminal
  unfold listTasks at was ⊢
  rw [← countP_eq_length_filter] at was ⊢
  unfold DistributedExecutor.checkTimeouts
  rw [Dict.values_mapValues, countP_timeOut now isTerminal, ← was]
  cases status with
  | completed | failed | timeout => rfl
  | pending | dispatched | acknowledged | executing | cancelled => cases isTerminal

theorem checkTimeouts_keeps (executor : DistributedExecutor) (now : Timestamp) :
    Keeps executor (executor.checkTimeouts now).1 := by
  intro id status found isTerminal
  obtain ⟨task, registered, rfl⟩ := map_eq_some_iff.mp found
  have inTime : outOfTime now task ≠ true := by
    intro out
    rw [not_terminal_of_outOfTime out] at isTerminal
    cases isTerminal
  unfold statusOf DistributedExecutor.checkTimeouts
  rw [Dict.get?_mapValues, registered, map_some, map_some, timeOut_status,
    if_neg inTime]

theorem Keyed.checkTimeouts (keyed : executor.Keyed) (now : Timestamp) :
    (executor.checkTimeouts now).1.Keyed := by
  intro id found isFound
  unfold DistributedExecutor.checkTimeouts at isFound
  rw [Dict.get?_mapValues] at isFound
  obtain ⟨task, registered, rfl⟩ := map_eq_some_iff.mp isFound
  exact (timeOut_id now task).trans (keyed id task registered)

def awaited : Dispatching → Option String
  | .waiting taskId => some taskId
  | .finished => none

def target (execution : Execution) : Action → Option String
  | .dispatch task _ => some task.id
  | .dispatchReturns index _ _ => execution.processes[index]?.bind awaited
  | .acknowledge ack _ => some ack.taskId
  | .complete taskId _ _ _ => some taskId
  | .checkTimeouts _ => none

variable (execution : Execution)

theorem target_dispatchReturns (index : Nat) (delivered : Bool) (now : Timestamp) :
    target execution (.dispatchReturns index delivered now) =
      execution.processes[index]?.bind awaited :=
  rfl

/-- The action is not about a closed task. -/
def InTime (execution : Execution) (action : Action) : Prop :=
  ∀ taskId, target execution action = some taskId → ¬ execution.store.closed taskId

theorem not_closed_of_none (unregistered : executor.tasks.get? id = none) :
    ¬ executor.closed id := by
  unfold closed statusOf
  rw [unregistered]
  simp

/-- What one step does to the tasks: nothing, or it writes one, or it checks them all. -/
theorem step_cases (execution : Execution) (action : Action) (keyed : execution.store.Keyed) :
    ((step execution action).store = execution.store ∧ InTime execution action) ∨
      (∃ taskId, target execution action = some taskId ∧
        Writes execution.store (step execution action).store taskId) ∨
      ∃ now, action = .checkTimeouts now ∧
        (step execution action).store = (execution.store.checkTimeouts now).1 := by
  cases action with
  | dispatch task now =>
    refine .inr (.inl ⟨task.id, rfl, ?_⟩)
    have named : ((execution.store.tasks.get? task.id).getD task).id = task.id := by
      cases registered : execution.store.tasks.get? task.id with
      | none => rfl
      | some existing => exact keyed task.id existing registered
    have writes := launch_writes execution.store
      ((execution.store.tasks.get? task.id).getD task) now
    rw [named] at writes
    exact writes
  | dispatchReturns index delivered now =>
    change ((Pool.resume (returned delivered now) execution index).store = _ ∧ _) ∨
      (∃ _, _ ∧ Writes _ (Pool.resume (returned delivered now) execution index).store _) ∨ _
    cases present : execution.processes[index]? with
    | none =>
      left
      refine ⟨congrArg Pool.store (Pool.resume_of_none present), fun taskId targeted => ?_⟩
      rw [target_dispatchReturns, present] at targeted
      cases targeted
    | some dispatching =>
      rw [Pool.resume_of_some present]
      cases dispatching with
      | finished =>
        left
        refine ⟨rfl, fun taskId targeted => ?_⟩
        rw [target_dispatchReturns, present] at targeted
        cases targeted
      | waiting taskId =>
        have targeted : target execution (.dispatchReturns index delivered now) =
            some taskId := by
          rw [target_dispatchReturns, present]
          rfl
        cases registered : execution.store.tasks.get? taskId with
        | none =>
          left
          constructor
          · unfold returned
            dsimp only
            rw [registered]
          · intro other isOther
            rw [targeted] at isOther
            cases isOther
            exact not_closed_of_none registered
        | some task =>
          exact .inr (.inl ⟨taskId, targeted, returned_writes keyed registered delivered now⟩)
  | acknowledge ack now =>
    cases registered : execution.store.tasks.get? ack.taskId with
    | none =>
      left
      constructor
      · unfold step receiveAcknowledgement
        dsimp only
        rw [registered]
      · intro other isOther
        cases isOther
        exact not_closed_of_none registered
    | some task =>
      exact .inr (.inl ⟨ack.taskId, rfl, receiveAcknowledgement_writes keyed registered now⟩)
  | complete taskId result success now =>
    cases registered : execution.store.tasks.get? taskId with
    | none =>
      left
      constructor
      · unfold step receiveCompletion
        dsimp only
        rw [registered]
      · intro other isOther
        cases isOther
        exact not_closed_of_none registered
    | some task =>
      exact .inr (.inl ⟨taskId, rfl, receiveCompletion_writes keyed registered result success now⟩)
  | checkTimeouts now => exact .inr (.inr ⟨now, rfl, rfl⟩)

section

variable (action : Action) (keyed : execution.store.Keyed)
include keyed

theorem keyed_step : (step execution action).store.Keyed := by
  obtain ⟨same, -⟩ | ⟨taskId, -, writes⟩ | ⟨now, -, same⟩ := step_cases execution action keyed
  · rw [same]
    exact keyed
  · exact writes.keyed keyed
  · rw [same]
    exact keyed.checkTimeouts now

/-- One step: the statistics stay right exactly if it comes in time. -/
theorem counted_step_iff (counted : execution.store.Counted) :
    (step execution action).store.Counted ↔ InTime execution action := by
  obtain ⟨same, inTime⟩ | ⟨taskId, targeted, writes⟩ | ⟨now, rfl, same⟩ :=
    step_cases execution action keyed
  · rw [same]
    exact iff_of_true counted inTime
  · rw [writes.counted_iff counted]
    unfold InTime
    rw [targeted]
    simp
  · refine iff_of_true (counted.checkTimeouts now) fun taskId targeted => ?_
    cases targeted

theorem keeps_step (inTime : InTime execution action) :
    Keeps execution.store (step execution action).store := by
  obtain ⟨same, -⟩ | ⟨taskId, targeted, writes⟩ | ⟨now, -, same⟩ :=
    step_cases execution action keyed
  · rw [same]
    exact .refl execution.store
  · exact writes.keeps (inTime taskId targeted)
  · rw [same]
    exact checkTimeouts_keeps execution.store now

end

/-! ## Runs -/

/-- An executor that has not seen a task. -/
def fresh (localNodeId : String) : Execution where
  store := { localNodeId := localNodeId }
  processes := []

/-- In every run the tasks that have ended stay as they are and are counted once, exactly if
every action comes in time. -/
theorem ended_tasks_stay_iff (localNodeId : String) (actions : List Action) :
    (∀ earlier later, earlier <+: later → later <+: actions →
        Keeps (run step (fresh localNodeId) earlier).store
          (run step (fresh localNodeId) later).store) ∧
      Always step (fun execution => execution.store.Counted) (fresh localNodeId) actions ↔
    Along step InTime (fresh localNodeId) actions := by
  have keyed : (fresh localNodeId).store.Keyed := fun _ _ found => by cases found
  have counted : (fresh localNodeId).store.Counted := by exact ⟨rfl, rfl, rfl⟩
  have exactly :
      Always step (fun execution => execution.store.Counted) (fresh localNodeId) actions ↔
        Along step InTime (fresh localNodeId) actions :=
    always_iff_along (fun execution => execution.store.Keyed)
      (fun execution action keyed _ _ => keyed_step execution action keyed)
      (fun execution action keyed counted => counted_step_iff execution action keyed counted)
      keyed counted actions
  constructor
  · exact fun both => exactly.mp both.2
  · intro along
    refine ⟨fun earlier later first second => ?_, exactly.mpr along⟩
    let keeps : Execution → Execution → Prop := fun before after => before.store.Keeps after.store
    have reflexive : ∀ execution, keeps execution execution :=
      fun execution => .refl execution.store
    have transitive : ∀ before between after, keeps before between → keeps between after →
        keeps before after := fun _ _ _ => .trans
    exact along.related reflexive transitive keeps_step
      (fun execution action keyed _ => keyed_step execution action keyed) keyed first second

/-- A remote task whose completion arrives twice, and behind its timeout. -/
theorem late_completion :
    let timedOut := run step (fresh "a")
      [.dispatch { id := "t", assignedNodeId := "b" } 0, .dispatchReturns 0 true 1,
        .checkTimeouts 100]
    let late := run step timedOut [.complete "t" {} true 101]
    let twice := run step late [.complete "t" {} true 102]
    (timedOut.store.statusOf "t" = some .timeout ∧ late.store.statusOf "t" = some .completed) ∧
      (late.store.stats.timedOut = 1 ∧ (late.store.listTasks .timeout).length = 0) ∧
      twice.store.stats.completed = 2 ∧ (twice.store.listTasks .completed).length = 1 := by
  decide +kernel

end DistributedExecutor

end AgenticOS.Distributed
