import AgenticOS.Persistent.TaskQueue.Core

/-!
# Conservation of tasks

A task ever enqueued should be in exactly one of a queue list, the table of leases,
the dead-letter list, and completion. Three pieces of code break this. `ack` and `nack`
fall back to a task that stands in a queue list and leave it there;
`check_timeouts` returns a task to its queue list while the table of leases keeps it
until the whole scan has ended; and `lease` has popped its task when the end of the lease
overflows. The main theorem says that these are the only ones.
-/

namespace AgenticOS.Persistent.DurableTaskQueue

open AgenticOS.Transition List Function

/-- The actions that move no task out of its place: no `ack` or `nack` of a task that
stands in a queue list, no `check_timeouts` that meets an expired lease, and no `lease` of a task
for a time that ends beyond the calendar. -/
def Undisturbed (state : DurableTaskQueue) : Action → Prop
  | .lease queue _ leaseSeconds now => state.queueList queue = [] ∨ (now.after? leaseSeconds).isSome
  | .ack task _ _ => ¬ state.Queued task
  | .nack task _ _ => ¬ state.Queued task
  | .checkTimeouts now => ∀ task ∈ state.leased, ¬ state.Expired now task
  | _ => True

/-- Exactly the enqueued tasks are somewhere, each of them in one place, and no scan is
under way. -/
structure Tidy (state : DurableTaskQueue) : Prop where
  placed : ∀ task, state.places task = if task < state.nextTask then 1 else 0
  noScan : state.scans = []

theorem tidy_init : Tidy init where
  placed _ := rfl
  noScan := rfl

variable {state : DurableTaskQueue}

theorem Tidy.onePlace (tidy : Tidy state) : state.OnePlace := by
  intro task enqueued
  rw [tidy.placed, if_pos enqueued]

section

variable {state : DurableTaskQueue} {task : TaskId}

theorem Tidy.enqueued_of_pos (tidy : Tidy state) (somewhere : 0 < state.places task) :
    task < state.nextTask ∧ state.places task = 1 := by
  have placed := tidy.placed task
  by_cases enqueued : task < state.nextTask
  · exact ⟨enqueued, placed.trans (if_pos enqueued)⟩
  · rw [if_neg enqueued] at placed
    omega

theorem Tidy.places_of_queued (tidy : Tidy state) (queued : state.Queued task) :
    task < state.nextTask ∧ state.queuedCount task = 1 ∧ state.leased.count task = 0 ∧
      state.deadLetter.count task = 0 ∧ completion (state.tasks task) = 0 := by
  have present := (state.queued_iff_queuedCount_pos task).mp queued
  obtain ⟨enqueued, once⟩ := tidy.enqueued_of_pos (by unfold places; omega : 0 < state.places task)
  rw [places] at once
  exact ⟨enqueued, by omega, by omega, by omega, by omega⟩

theorem Tidy.places_of_leased (tidy : Tidy state) (leased : task ∈ state.leased) :
    task < state.nextTask ∧ state.leased.count task = 1 ∧ state.queuedCount task = 0 ∧
      state.deadLetter.count task = 0 ∧ completion (state.tasks task) = 0 := by
  have present := count_pos_iff.mpr leased
  obtain ⟨enqueued, once⟩ := tidy.enqueued_of_pos (by unfold places; omega : 0 < state.places task)
  rw [places] at once
  exact ⟨enqueued, by omega, by omega, by omega, by omega⟩

theorem Tidy.not_known_of_completed (tidy : Tidy state)
    (completed : (state.tasks task).status = .completed) : ¬ state.Known task := by
  have one := completion_eq_one completed
  rintro (leased | queued)
  · have := tidy.places_of_leased leased
    omega
  · have := tidy.places_of_queued queued
    omega

end

/-- A lease returns no task, or pops the first one; it enters it into the table if the lease ends
within the calendar, and raises otherwise. -/
theorem lease_cases (state : DurableTaskQueue) (queue worker : String) (leaseSeconds : ℚ)
    (now : Timestamp) :
    (state.queueList queue = [] ∧
        state.lease queue worker leaseSeconds now = (some none, state)) ∨
      ∃ task rest record leased,
        (state.queueList queue).insertionSort state.NotAfter = task :: rest ∧
        (record.status = .leased ∧ record.attempts = (state.tasks task).attempts + 1 ∧
          record.maxAttempts = (state.tasks task).maxAttempts) ∧
        (state.lease queue worker leaseSeconds now).2 =
          { state with
            tasks := Function.update state.tasks task record
            queues := state.queues.set queue rest
            leased } ∧
        ((now.after? leaseSeconds = none ∧ leased = state.leased ∧
            (state.lease queue worker leaseSeconds now).1 = none) ∨
          ((now.after? leaseSeconds).isSome ∧
            leased = (if task ∈ state.leased then state.leased else state.leased ++ [task]) ∧
            (state.lease queue worker leaseSeconds now).1 = some (some task))) := by
  rw [lease]
  have sorted := perm_insertionSort state.NotAfter (state.queueList queue)
  cases order : (state.queueList queue).insertionSort state.NotAfter with
  | nil =>
    rw [order] at sorted
    exact .inl ⟨sorted.symm.eq_nil, rfl⟩
  | cons task rest =>
    right
    cases ends : now.after? leaseSeconds with
    | none =>
      refine ⟨task, rest, _, _, rfl, ?_, rfl, .inl ⟨rfl, rfl, rfl⟩⟩
      exact ⟨rfl, rfl, rfl⟩
    | some expires =>
      refine ⟨task, rest, _, _, rfl, ?_, rfl, .inr ⟨rfl, rfl, rfl⟩⟩
      exact ⟨rfl, rfl, rfl⟩

theorem perm_of_sorted {queue : String} {task : TaskId} {rest : List TaskId}
    (order : (state.queueList queue).insertionSort state.NotAfter = task :: rest) :
    (task :: rest).Perm (state.queueList queue) :=
  order ▸ perm_insertionSort state.NotAfter (state.queueList queue)

theorem queued_of_mem_queueList {queue : String} {task : TaskId}
    (listed : task ∈ state.queueList queue) : state.Queued task := by
  rw [queueList] at listed
  cases lookup : state.queues.get? queue with
  | none => simp [lookup] at listed
  | some tasks =>
    rw [lookup] at listed
    exact ⟨(queue, tasks), Dict.get?_eq_some_iff.mp lookup, listed⟩

/-- A scan that meets no expired lease removes the tasks timed out so far; otherwise it
stops at the first expired one. -/
theorem advance_cases (state : DurableTaskQueue) (now : Timestamp) (timedOut tasks : List TaskId) :
    ((∀ task ∈ tasks, ¬ state.Expired now task) ∧
        state.advance now timedOut tasks =
          ({ state with leased := timedOut.foldl List.erase state.leased }, none)) ∨
      ∃ task ∈ tasks, state.Expired now task ∧
        (state.advance now timedOut tasks).1 = state.timeOut task := by
  induction tasks with
  | nil => exact .inl ⟨by simp, rfl⟩
  | cons task rest ih =>
    rw [advance]
    by_cases expired : state.Expired now task
    · rw [if_pos expired]
      exact .inr ⟨task, mem_cons_self, expired, rfl⟩
    · rw [if_neg expired]
      rcases ih with ⟨none, result⟩ | ⟨found, foundMem, foundExpired, result⟩
      · refine .inl ⟨?_, result⟩
        intro other otherMem
        rcases mem_cons.mp otherMem with rfl | later
        · exact expired
        · exact none other later
      · exact .inr ⟨found, mem_cons_of_mem task foundMem, foundExpired, result⟩

theorem checkTimeouts_of_none_expired {now : Timestamp}
    (none : ∀ task ∈ state.leased, ¬ state.Expired now task) : state.checkTimeouts now = state := by
  rw [checkTimeouts]
  rcases state.advance_cases now [] state.leased with
    ⟨_, result⟩ | ⟨task, taskMem, expired, _⟩
  · rw [result]
    simp
  · exact absurd expired (none task taskMem)

theorem resumeTimeouts_of_noScan (noScan : state.scans = []) (index : Nat) :
    state.resumeTimeouts index = state := by
  rw [resumeTimeouts]
  simp [noScan]

section

variable {state : DurableTaskQueue}

section

variable (tidy : Tidy state)
include tidy

theorem Tidy.enqueue (queue : String) (priority maxAttempts : ℤ) (now : Timestamp) :
    Tidy (state.enqueue queue priority maxAttempts now).2 := by
  constructor
  · intro task
    have placed := tidy.placed task
    have counted := state.queuedCount_append queue state.nextTask task
    have after : (state.enqueue queue priority maxAttempts now).2.places task =
        (state.queuedCount task + if task = state.nextTask then 1 else 0) +
          state.leased.count task + state.deadLetter.count task +
          completion (Function.update state.tasks state.nextTask
            { queue, priority, maxAttempts, createdAt := now } task) := by
      rw [← counted]
      rfl
    rw [after]
    change _ = if task < state.nextTask + 1 then 1 else 0
    rw [places] at placed
    by_cases fresh : task = state.nextTask
    · subst fresh
      rw [if_neg (Nat.lt_irrefl _)] at placed
      rw [update_self, completion_eq_zero (by simp), if_pos rfl,
        if_pos (Nat.lt_succ_self _)]
      omega
    · have bound : task < state.nextTask + 1 ↔ task < state.nextTask :=
        ⟨fun below => lt_of_le_of_ne (Nat.lt_succ_iff.mp below) fresh, Nat.lt_succ_of_lt⟩
      rw [update_of_ne fresh, if_neg fresh, add_zero]
      simp only [bound]
      exact placed
  · exact tidy.noScan

theorem Tidy.lease {queue : String} {leaseSeconds : ℚ} {now : Timestamp}
    (undisturbed : state.queueList queue = [] ∨ (now.after? leaseSeconds).isSome)
    (worker : String) : Tidy (state.lease queue worker leaseSeconds now).2 := by
  rcases state.lease_cases queue worker leaseSeconds now with
    ⟨_, unchanged⟩ | ⟨leasedTask, rest, record, leased, order, ⟨status, -⟩, result, outcome⟩
  · rw [unchanged]
    exact tidy
  · have order := perm_of_sorted order
    have queued : state.Queued leasedTask :=
      queued_of_mem_queueList (order.mem_iff.mp mem_cons_self)
    obtain ⟨enqueued, once, notLeased, notDead, notCompleted⟩ := tidy.places_of_queued queued
    have entered : leased = state.leased ++ [leasedTask] := by
      rcases outcome with ⟨raises, -⟩ | ⟨-, entered, -⟩
      · rcases undisturbed with empty | ends
        · rw [empty] at order
          cases order.eq_nil
        · rw [raises] at ends
          cases ends
      · rw [entered, if_neg (count_eq_zero.mp notLeased)]
    rw [result, entered]
    constructor
    · intro task
      have placed := tidy.placed task
      have counted := state.queuedCount_set queue rest task
      rw [← order.count_eq task] at counted
      unfold places queuedCount at placed ⊢
      dsimp only
      by_cases same : task = leasedTask
      · subst same
        rw [count_cons_self] at counted
        rw [if_pos enqueued, update_self, completion_eq_zero (by simp [status]),
          count_append, count_singleton_self]
        omega
      · have elsewhere : [leasedTask].count task = 0 :=
          count_eq_zero_of_not_mem (by simpa using same)
        rw [count_cons_of_ne (.symm same)] at counted
        rw [update_of_ne same, count_append, elsewhere, ← placed]
        rw [queuedCount] at counted
        omega
    · exact tidy.noScan

theorem Tidy.ack {task : TaskId} (undisturbed : ¬ state.Queued task) (worker : String)
    (now : Timestamp) : Tidy (state.ack task worker now).2 := by
  rw [DurableTaskQueue.ack]
  split
  · rename_i known
    obtain ⟨enqueued, leased, notQueued, notDead, _⟩ :=
      tidy.places_of_leased (known.resolve_right undisturbed)
    constructor
    · intro other
      have placed := tidy.placed other
      unfold places queuedCount at placed ⊢
      dsimp only
      by_cases same : other = task
      · subst same
        rw [if_pos enqueued, update_self, completion_eq_one (by simp),
          count_erase_self]
        rw [queuedCount] at notQueued
        omega
      · rw [update_of_ne same, count_erase_of_ne same]
        exact placed
    · exact tidy.noScan
  · exact tidy

theorem Tidy.nack {task : TaskId} (undisturbed : ¬ state.Queued task) (worker error : String) :
    Tidy (state.nack task worker error).2 := by
  rw [DurableTaskQueue.nack]
  split
  · rename_i known
    obtain ⟨enqueued, leased, notQueued, notDead, notCompleted⟩ :=
      tidy.places_of_leased (known.resolve_right undisturbed)
    dsimp only
    split
    · constructor
      · intro other
        have placed := tidy.placed other
        unfold places queuedCount at placed ⊢
        dsimp only
        by_cases same : other = task
        · subst same
          rw [if_pos enqueued, update_self, completion_eq_zero (by simp),
            count_erase_self, count_append, count_singleton_self]
          rw [queuedCount] at notQueued
          omega
        · have elsewhere : [task].count other = 0 :=
            count_eq_zero_of_not_mem (by simpa using same)
          rw [update_of_ne same, count_erase_of_ne same, count_append, elsewhere]
          exact placed
      · exact tidy.noScan
    · constructor
      · intro other
        have placed := tidy.placed other
        have counted := state.queuedCount_append (state.tasks task).queue task other
        unfold places queuedCount at placed ⊢
        dsimp only
        by_cases same : other = task
        · subst same
          rw [if_pos rfl] at counted
          rw [if_pos enqueued, update_self, completion_eq_zero (by simp),
            count_erase_self]
          omega
        · rw [if_neg same, add_zero] at counted
          rw [update_of_ne same, count_erase_of_ne same, ← placed]
          rw [queuedCount] at counted
          omega
      · exact tidy.noScan
  · exact tidy

theorem Tidy.step {action : Action} (undisturbed : state.Undisturbed action) :
    Tidy (state.step action) := by
  cases action with
  | enqueue queue priority maxAttempts now => exact tidy.enqueue queue priority maxAttempts now
  | lease queue worker leaseSeconds now => exact tidy.lease undisturbed worker
  | ack task worker now => exact tidy.ack undisturbed worker now
  | nack task worker error => exact tidy.nack undisturbed worker error
  | checkTimeouts now =>
    simp only [DurableTaskQueue.step, checkTimeouts_of_none_expired undisturbed]
    exact tidy
  | resumeTimeouts index =>
    simp only [DurableTaskQueue.step, resumeTimeouts_of_noScan tidy.noScan]
    exact tidy

theorem Tidy.undisturbed_of_onePlace {action : Action} (onePlace : (state.step action).OnePlace) :
    state.Undisturbed action := by
  cases action with
  | enqueue | resumeTimeouts => trivial
  | lease queue worker leaseSeconds now =>
    rcases state.lease_cases queue worker leaseSeconds now with
      ⟨empty, -⟩ | ⟨task, rest, record, leased, order, ⟨status, -⟩, result, outcome⟩
    · exact .inl empty
    · rcases outcome with ⟨-, entered, -⟩ | ⟨ends, -⟩
      · -- The popped task is nowhere.
        have order := perm_of_sorted order
        obtain ⟨enqueued, once, notLeased, notDead, -⟩ := tidy.places_of_queued
          (queued_of_mem_queueList (order.mem_iff.mp mem_cons_self))
        have counted := state.queuedCount_set queue rest task
        rw [← order.count_eq task, count_cons_self] at counted
        have one := onePlace task
        rw [DurableTaskQueue.step, result, entered] at one
        unfold places queuedCount at one
        dsimp only at one
        rw [update_self, completion_eq_zero (by simp [status])] at one
        have some := one enqueued
        omega
      · exact .inr ends
  | ack task worker now =>
    intro queued
    obtain ⟨enqueued, once, _⟩ := tidy.places_of_queued queued
    have known : state.Known task := .inr queued
    simp only [DurableTaskQueue.step, DurableTaskQueue.ack, if_pos known] at onePlace
    have one := onePlace task enqueued
    rw [places, queuedCount] at one
    dsimp only at one
    rw [update_self, completion_eq_one (by simp)] at one
    rw [queuedCount] at once
    omega
  | nack task worker error =>
    intro queued
    obtain ⟨enqueued, once, _⟩ := tidy.places_of_queued queued
    have known : state.Known task := .inr queued
    simp only [DurableTaskQueue.step, DurableTaskQueue.nack, if_pos known] at onePlace
    split at onePlace
    · have one := onePlace task enqueued
      rw [places, queuedCount] at one
      dsimp only at one
      rw [count_append, count_singleton_self] at one
      rw [queuedCount] at once
      omega
    · have one := onePlace task enqueued
      have counted := state.queuedCount_append (state.tasks task).queue task task
      rw [if_pos rfl] at counted
      rw [places, queuedCount] at one
      dsimp only at one
      omega
  | checkTimeouts now =>
    simp only [DurableTaskQueue.step, checkTimeouts] at onePlace
    rcases state.advance_cases now [] state.leased with
      ⟨none, _⟩ | ⟨task, taskMem, _, result⟩
    · exact none
    · obtain ⟨enqueued, leased, _⟩ := tidy.places_of_leased taskMem
      have counted := state.queuedCount_append (state.tasks task).queue task task
      rw [if_pos rfl] at counted
      rw [result] at onePlace
      have one := onePlace task enqueued
      rw [places, queuedCount] at one
      simp only [timeOut] at one
      omega

end

end

/-! ## Runs -/

/-- An `ack` of the task returned `True` during the run. -/
def Acked (state : DurableTaskQueue) (actions : List Action) (task : TaskId) : Prop :=
  Occurs step (fun current action =>
    ∃ worker now, action = .ack task worker now ∧ (current.ack task worker now).1 = true)
    state actions

def leasedTask (state : DurableTaskQueue) : Action → Option TaskId
  | .lease queue worker leaseSeconds now => (state.lease queue worker leaseSeconds now).1.join
  | _ => none

/-- In every state of the run each task ever enqueued is in exactly one place, and no task
is handed out after it was acknowledged. -/
structure Conserves (state : DurableTaskQueue) (actions : List Action) : Prop where
  onePlace : Always step OnePlace state actions
  finished : ∀ done action rest task, actions = done ++ action :: rest →
    Acked state done task → (run step state done).leasedTask action ≠ some task

theorem Tidy.completed_step (tidy : Tidy state) {action : Action}
    (undisturbed : state.Undisturbed action) {task : TaskId}
    (completed : task < state.nextTask ∧ (state.tasks task).status = .completed) :
    task < (state.step action).nextTask ∧
      ((state.step action).tasks task).status = .completed := by
  have notKnown := tidy.not_known_of_completed completed.2
  cases action with
  | enqueue queue priority maxAttempts now =>
    have old : task ≠ state.nextTask := Nat.ne_of_lt completed.1
    refine ⟨Nat.lt_succ_of_lt completed.1, ?_⟩
    simpa [DurableTaskQueue.step, DurableTaskQueue.enqueue, update_of_ne old]
      using completed.2
  | lease queue worker leaseSeconds now =>
    simp only [DurableTaskQueue.step]
    rcases state.lease_cases queue worker leaseSeconds now with
      ⟨_, unchanged⟩ | ⟨handed, rest, record, leased, order, -, result, -⟩
    · rw [unchanged]
      exact completed
    · have other : task ≠ handed := by
        rintro rfl
        exact notKnown
          (.inr (queued_of_mem_queueList ((perm_of_sorted order).mem_iff.mp mem_cons_self)))
      rw [result]
      simpa [update_of_ne other] using completed
  | ack acked worker now =>
    simp only [DurableTaskQueue.step, DurableTaskQueue.ack]
    split
    · rename_i known
      have other : task ≠ acked := fun same => notKnown (same ▸ known)
      simpa [update_of_ne other] using completed
    · exact completed
  | nack nacked worker error =>
    simp only [DurableTaskQueue.step, DurableTaskQueue.nack]
    split
    · rename_i known
      have other : task ≠ nacked := fun same => notKnown (same ▸ known)
      split
      · simpa [update_of_ne other] using completed
      · simpa [update_of_ne other] using completed
    · exact completed
  | checkTimeouts now =>
    simp only [DurableTaskQueue.step, checkTimeouts_of_none_expired undisturbed]
    exact completed
  | resumeTimeouts index =>
    simp only [DurableTaskQueue.step, resumeTimeouts_of_noScan tidy.noScan]
    exact completed

theorem completed_of_acked {actions : List Action} {task : TaskId}
    (along : Along step Undisturbed init actions) (acked : Acked init actions task) :
    task < (run step init actions).nextTask ∧
      ((run step init actions).tasks task).status = .completed := by
  apply Occurs.establishes
    (fun state => task < state.nextTask ∧ (state.tasks task).status = .completed)
    (fun _ _ tidy undisturbed => .step tidy undisturbed) _
    (fun _ _ tidy undisturbed completed => tidy.completed_step undisturbed completed)
    acked along tidy_init
  rintro state action tidy undisturbed ⟨worker, now, rfl, granted⟩
  rw [DurableTaskQueue.ack] at granted
  split at granted
  · rename_i known
    have enqueued : task < state.nextTask :=
      (tidy.places_of_leased (known.resolve_right undisturbed)).1
    simp [DurableTaskQueue.step, DurableTaskQueue.ack, known, enqueued]
  · cases granted

/-- Starting from the empty queue, tasks are conserved in a run exactly if every action of
the run is undisturbed. -/
theorem conserves_iff_along_undisturbed (actions : List Action) :
    Conserves init actions ↔ Along step Undisturbed init actions := by
  have exact : Always step OnePlace init actions ↔ Along step Undisturbed init actions :=
    always_iff_along Tidy (fun _ _ tidy _ undisturbed => tidy.step undisturbed)
      (fun _ _ tidy _ => ⟨tidy.undisturbed_of_onePlace,
        fun undisturbed => (tidy.step undisturbed).onePlace⟩)
      tidy_init tidy_init.onePlace actions
  constructor
  · intro conserves
    exact exact.mp conserves.onePlace
  · intro along
    refine ⟨exact.mpr along, ?_⟩
    rintro done action rest task rfl acked handed
    have before := (along_append _ _ _).mp along
    have tidy : Tidy (run step init done) :=
      before.1.invariant (fun _ _ tidy undisturbed => .step tidy undisturbed) tidy_init
    have notKnown := tidy.not_known_of_completed (completed_of_acked before.1 acked).2
    cases action with
    | lease queue worker leaseSeconds now =>
      rcases (run step init done).lease_cases queue worker leaseSeconds now with
        ⟨-, none⟩ | ⟨first, tail, _, _, order, -, -, ⟨-, -, none⟩ | ⟨-, -, some⟩⟩
      · simp [leasedTask, none] at handed
      · simp [leasedTask, none] at handed
      · simp only [leasedTask, some, Option.join_some, Option.some.injEq] at handed
        exact notKnown (.inr (queued_of_mem_queueList
          ((perm_of_sorted order).mem_iff.mp (handed ▸ mem_cons_self))))
    | _ => simp [leasedTask] at handed

/-- A worker's lease runs out, the task returns to its queue, and the worker acknowledges
it late: the completed task is handed out again. -/
theorem late_ack_leased_again : ¬ ∀ actions, Conserves init actions := by
  intro conserves
  have again := (conserves [.enqueue "default" 5 3 0, .lease "default" "first" 60 0,
    .checkTimeouts 61, .resumeTimeouts 0, .ack 0 "first" 62,
    .lease "default" "second" 60 63]).finished
    [.enqueue "default" 5 3 0, .lease "default" "first" 60 0,
      .checkTimeouts 61, .resumeTimeouts 0, .ack 0 "first" 62]
    (.lease "default" "second" 60 63) [] 0 rfl
  have acked : Acked init [.enqueue "default" 5 3 0, .lease "default" "first" 60 0,
      .checkTimeouts 61, .resumeTimeouts 0, .ack 0 "first" 62] 0 := by
    refine .inr (.inr (.inr (.inr (.inl ⟨"first", 62, rfl, ?_⟩))))
    decide +kernel
  exact again acked (by decide +kernel)

/-!
## Lease exclusivity

`ack` and `nack` receive the id of the worker that calls them, and the task object
records its lease owner, but the two are never compared. A call therefore changes
whatever task it finds. It respects the leases exactly if the callers do.
-/

/-- The worker that holds a live lease on the task. -/
def owner (state : DurableTaskQueue) (task : TaskId) : Option String :=
  if task ∈ state.leased ∧ (state.tasks task).status = .leased then
    some (state.tasks task).leaseOwner
  else none

/-- The task that an `ack` or `nack` names, and the worker that issues it. -/
def Action.acknowledges? : Action → Option (TaskId × String)
  | .ack task worker _ => some (task, worker)
  | .nack task worker _ => some (task, worker)
  | _ => none

/-- An `ack` or `nack` of a worker that does not own the task changes nothing: neither the
task nor any container. In particular a task leased to another worker is neither completed
nor queued again. -/
def OwnerOnly (state : DurableTaskQueue) (action : Action) : Prop :=
  ∀ task worker, action.acknowledges? = some (task, worker) →
    state.owner task ≠ some worker → state.step action = state

/-- An `ack` or `nack` comes from the owner of the task, or names a task that is neither
leased nor queued. -/
def FromOwner (state : DurableTaskQueue) (action : Action) : Prop :=
  ∀ task worker, action.acknowledges? = some (task, worker) →
    state.owner task = some worker ∨ ¬ state.Known task

section

variable {action : Action} {task : TaskId} {worker : String}
  (acknowledges : action.acknowledges? = some (task, worker))
include acknowledges

/-- A known task is changed by every `ack` and `nack`: the object counts them. -/
theorem step_ne_of_known {state : DurableTaskQueue} (known : state.Known task) :
    state.step action ≠ state := by
  intro unchanged
  have sameTask := congrArg (fun current : DurableTaskQueue => current.tasks task) unchanged
  cases action with
  | ack named caller now =>
    cases acknowledges
    have counted := congrArg QueueTask.ackCount sameTask
    simp [step, ack, known] at counted
  | nack named caller error =>
    cases acknowledges
    have counted := congrArg QueueTask.nackCount sameTask
    simp only [step, nack, if_pos known] at counted
    split at counted
    · simp at counted
    · simp at counted
  | _ => cases acknowledges

theorem step_eq_of_not_known {state : DurableTaskQueue} (unknown : ¬ state.Known task) :
    state.step action = state := by
  cases action with
  | ack named caller now =>
    cases acknowledges
    simp [step, ack, unknown]
  | nack named caller error =>
    cases acknowledges
    simp [step, nack, unknown]
  | _ => cases acknowledges

end

theorem ownerOnly_iff_fromOwner (state : DurableTaskQueue) (action : Action) :
    state.OwnerOnly action ↔ state.FromOwner action := by
  constructor
  · intro exclusive task worker acknowledges
    by_cases owned : state.owner task = some worker
    · exact .inl owned
    · exact .inr fun known =>
        step_ne_of_known acknowledges known (exclusive task worker acknowledges owned)
  · intro fromOwner task worker acknowledges notOwned
    rcases fromOwner task worker acknowledges with owned | unknown
    · exact absurd owned notOwned
    · exact step_eq_of_not_known acknowledges unknown

/-- Acknowledgements respect the leases in a run exactly if every one of them is issued by
the owner of the task, or names a task that is neither leased nor queued. -/
theorem along_ownerOnly_iff_along_fromOwner (actions : List Action) :
    Along step OwnerOnly init actions ↔ Along step FromOwner init actions :=
  along_congr ownerOnly_iff_fromOwner init actions

/-- The lease of the first worker runs out, the second worker leases the task, and the late
`ack` of the first completes it. -/
theorem late_ack_completes_foreign_lease : ¬ ∀ actions, Along step OwnerOnly init actions := by
  intro along
  have exclusive := (along [.enqueue "default" 5 3 0, .lease "default" "first" 60 0,
    .checkTimeouts 61, .resumeTimeouts 0, .lease "default" "second" 60 62,
    .ack 0 "first" 63]).2.2.2.2.2.1 0 "first" rfl (by decide +kernel)
  have status := congrArg (fun state : DurableTaskQueue => (state.tasks 0).status) exclusive
  exact absurd status (by decide +kernel)

end AgenticOS.Persistent.DurableTaskQueue
