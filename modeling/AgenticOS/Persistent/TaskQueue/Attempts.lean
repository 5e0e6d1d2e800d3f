import AgenticOS.Persistent.TaskQueue.Conservation

/-!
# The attempts of a task

A lease counts an attempt, but only `nack` compares the count with the limit. A task whose lease
runs out is queued again whatever its count is, and so is every task that is enqueued without
any attempt. With `nack` of a task that already stands in a queue there are more copies than
attempts. A lease that raises uses up an attempt too, and its task is put nowhere. The attempts
are bounded if no step does one of these.
-/

namespace AgenticOS.Persistent.DurableTaskQueue

open AgenticOS.Transition List Function

variable (state : DurableTaskQueue)

def Exhausted (task : TaskId) : Prop :=
  (state.tasks task).maxAttempts ≤ (state.tasks task).attempts

/-- One more copy of the task in the queue lists can be leased within the limit. -/
def Room (task : TaskId) : Prop :=
  (state.tasks task).attempts + state.queuedCount task < (state.tasks task).maxAttempts

/-- There is room for the task that the scan times out next; at its end it drops no lease of an
exhausted task. -/
def Scans (now : Timestamp) (timedOut tasks : List TaskId) : Prop :=
  (∀ task, tasks.find? (fun task => state.Expired now task) = some task → state.Room task) ∧
    (tasks.find? (fun task => state.Expired now task) = none →
      ∀ task ∈ timedOut, task ∈ state.leased → ¬ state.Exhausted task)

/-- The action queues a task only where there is room for it, and loses no exhausted one: a lease
whose end overflows leaves its task an attempt. -/
def Affords : Action → Prop
  | .enqueue _ _ maxAttempts _ => 0 < maxAttempts
  | .lease queue _ leaseSeconds now =>
    ∀ task ∈ ((state.queueList queue).insertionSort state.NotAfter).head?,
      (now.after? leaseSeconds).isSome ∨
        (state.tasks task).attempts + 1 < (state.tasks task).maxAttempts
  | .nack task _ _ => state.Known task → ¬ state.Exhausted task → state.Room task
  | .checkTimeouts now => state.Scans now [] state.leased
  | .resumeTimeouts index =>
    ∀ scan, state.scans[index]? = some scan → state.Scans scan.now scan.timedOut scan.remaining
  | _ => True

/-- How often the task was leased in a run from the beginning. -/
def leases (actions : List Action) (task : TaskId) : ℕ :=
  occurrences step (fun state action => state.leasedTask action = some task) init actions

/-- A task was not leased more often than its limit allows, and once its attempts are used up it
is in no queue: it is leased, dead-lettered or completed. -/
def Within (task : TaskId) (count : ℕ) : Prop :=
  count ≤ (state.tasks task).maxAttempts ∧
    (state.Exhausted task → ¬ state.Queued task ∧
      (task ∈ state.leased ∨ task ∈ state.deadLetter ∨ (state.tasks task).status = .completed))

/-- Every task keeps to its limit. -/
def AttemptsBounded (actions : List Action) : Prop :=
  ∀ task < (run step init actions).nextTask,
    (run step init actions).Within task (leases actions task)

/-- The attempts and the queued copies of a task keep to its limit, and once it is exhausted it
is somewhere else. -/
structure Spare (state : DurableTaskQueue) (task : TaskId) : Prop where
  room : (state.tasks task).attempts + state.queuedCount task ≤ (state.tasks task).maxAttempts
  kept : state.Exhausted task →
    task ∈ state.leased ∨ task ∈ state.deadLetter ∨ (state.tasks task).status = .completed

structure Limited (state : DurableTaskQueue) : Prop where
  spare : ∀ task < state.nextTask, state.Spare task
  fresh : ∀ task, state.nextTask ≤ task →
    state.tasks task = {} ∧ state.queuedCount task = 0 ∧ task ∉ state.leased

theorem limited_init : Limited init where
  spare _ := nofun
  fresh _ _ := ⟨rfl, rfl, not_mem_nil⟩

section

variable {state next : DurableTaskQueue} {task : TaskId}

theorem Limited.lt_of_queued (limited : Limited state) (queued : 0 < state.queuedCount task) :
    task < state.nextTask := by
  by_contra beyond
  have fresh := (limited.fresh task (Nat.le_of_not_lt beyond)).2.1
  omega

theorem Limited.lt_of_known (limited : Limited state) (known : state.Known task) :
    task < state.nextTask := by
  rcases known with leased | queued
  · by_contra beyond
    exact (limited.fresh task (Nat.le_of_not_lt beyond)).2.2 leased
  · exact limited.lt_of_queued ((state.queued_iff_queuedCount_pos task).mp queued)

theorem Limited.lt_of_expired (limited : Limited state) {now : Timestamp}
    (expired : state.Expired now task) : task < state.nextTask := by
  by_contra beyond
  have status := expired.1
  rw [(limited.fresh task (Nat.le_of_not_lt beyond)).1] at status
  cases status

variable {record : QueueTask}

section

variable (limited : Limited state)
include limited

theorem Limited.change (inside : task < state.nextTask) (sameNext : next.nextTask = state.nextTask)
    (records : next.tasks = Function.update state.tasks task record)
    (others : ∀ other, other ≠ task → next.queuedCount other = state.queuedCount other ∧
      (other ∈ next.leased ↔ other ∈ state.leased) ∧
      (other ∈ state.deadLetter → other ∈ next.deadLetter))
    (room : record.attempts + next.queuedCount task ≤ record.maxAttempts)
    (kept : record.maxAttempts ≤ record.attempts →
      task ∈ next.leased ∨ task ∈ next.deadLetter ∨ record.status = .completed) : Limited next := by
  constructor
  · intro other below
    by_cases here : other = task
    · subst here
      have changed : next.tasks other = record := by rw [records, update_self]
      exact ⟨changed ▸ room, by rwa [Exhausted, changed]⟩
    · obtain ⟨count, leased, dead⟩ := others other here
      have before := limited.spare other (sameNext ▸ below)
      have same : next.tasks other = state.tasks other := by rw [records, update_of_ne here]
      constructor
      · rw [same, count]
        exact before.room
      · rw [Exhausted, same, leased]
        exact fun exhausted => (before.kept exhausted).imp_right (.imp_left dead)
  · intro other beyond
    rw [sameNext] at beyond
    have distinct : other ≠ task := Nat.ne_of_gt (inside.trans_le beyond)
    obtain ⟨count, leased, -⟩ := others other distinct
    rw [records, update_of_ne distinct, count, leased]
    exact limited.fresh other beyond

theorem Limited.enqueue (queue : String) (priority : ℤ) {maxAttempts : ℤ} (some : 0 < maxAttempts)
    (now : Timestamp) : Limited (state.enqueue queue priority maxAttempts now).2 := by
  have counted := state.queuedCount_append queue state.nextTask
  have others : ∀ task, task ≠ state.nextTask →
      (state.enqueue queue priority maxAttempts now).2.tasks task = state.tasks task ∧
        (state.enqueue queue priority maxAttempts now).2.queuedCount task =
          state.queuedCount task := by
    intro task distinct
    have same := counted task
    rw [if_neg distinct, add_zero] at same
    exact ⟨update_of_ne distinct _ _, same⟩
  constructor
  · intro task below
    by_cases here : task = state.nextTask
    · subst here
      have one := counted state.nextTask
      rw [(limited.fresh _ (Nat.le_refl _)).2.1, if_pos rfl] at one
      constructor
      · unfold DurableTaskQueue.enqueue queuedCount
        dsimp only
        rw [one, update_self]
        dsimp only
        omega
      · unfold DurableTaskQueue.enqueue Exhausted
        dsimp only
        rw [update_self]
        intro exhausted
        exact absurd exhausted (not_le.mpr some)
    · have before := limited.spare task (lt_of_le_of_ne (Nat.lt_succ_iff.mp below) here)
      obtain ⟨record, count⟩ := others task here
      refine ⟨by rw [record, count]; exact before.room, ?_⟩
      rw [Exhausted, record]
      exact before.kept
  · intro task beyond
    obtain ⟨record, count⟩ := others task (Nat.ne_of_gt beyond)
    rw [record, count]
    exact limited.fresh task (Nat.le_of_lt beyond)

theorem Limited.lease {queue : String} {leaseSeconds : ℚ} {now : Timestamp} (worker : String)
    (affords : ∀ task ∈ ((state.queueList queue).insertionSort state.NotAfter).head?,
      (now.after? leaseSeconds).isSome ∨
        (state.tasks task).attempts + 1 < (state.tasks task).maxAttempts) :
    Limited (state.lease queue worker leaseSeconds now).2 := by
  rcases state.lease_cases queue worker leaseSeconds now with
    ⟨-, unchanged⟩ | ⟨task, rest, record, leased, order, ⟨-, attempts, most⟩, result, outcome⟩
  · rw [unchanged]
    exact limited
  · rw [order] at affords
    have sorted := perm_of_sorted order
    have counted : ∀ other, _ := state.queuedCount_set queue rest
    have inside : task < state.nextTask := limited.lt_of_known
      (.inr (queued_of_mem_queueList (sorted.mem_iff.mp mem_cons_self)))
    rw [result]
    refine limited.change inside (by rfl) rfl ?_ ?_ fun exhausted => ?_
    · intro other distinct
      have moved := counted other
      rw [← sorted.count_eq other, count_cons_of_ne (.symm distinct)] at moved
      refine ⟨Nat.add_right_cancel moved, ?_, id⟩
      rcases outcome with ⟨-, entered, -⟩ | ⟨-, entered, -⟩
      · rw [entered]
      · rw [entered]
        split
        · exact .rfl
        · simp [distinct]
    · have moved := counted task
      rw [← sorted.count_eq task, count_cons_self] at moved
      have room := (limited.spare task inside).room
      unfold queuedCount at room moved ⊢
      dsimp only
      omega
    · rcases outcome with ⟨raises, -⟩ | ⟨-, entered, -⟩
      · rcases affords task rfl with ends | left
        · rw [raises] at ends
          cases ends
        · omega
      · left
        rw [entered]
        split
        · assumption
        · exact mem_append_right _ mem_cons_self

theorem Limited.ack (task : TaskId) (worker : String) (now : Timestamp) :
    Limited (state.ack task worker now).2 := by
  unfold DurableTaskQueue.ack
  split
  · rename_i known
    have inside := limited.lt_of_known known
    exact limited.change inside (by rfl) rfl
      (fun other distinct => ⟨rfl, mem_erase_of_ne distinct, id⟩)
      (limited.spare task inside).room fun _ => .inr (.inr rfl)
  · exact limited

theorem Limited.requeue (inside : task < state.nextTask) (sameNext : next.nextTask = state.nextTask)
    (records : next.tasks = Function.update state.tasks task record)
    (attempts : record.attempts = (state.tasks task).attempts)
    (maxAttempts : record.maxAttempts = (state.tasks task).maxAttempts)
    (queues : next.queues = state.append (state.tasks task).queue task)
    (others : ∀ other, other ≠ task → (other ∈ next.leased ↔ other ∈ state.leased))
    (dead : next.deadLetter = state.deadLetter) (room : state.Room task) : Limited next := by
  have counted : ∀ other, next.queuedCount other =
      state.queuedCount other + if other = task then 1 else 0 := by
    intro other
    rw [queuedCount, queues]
    exact state.queuedCount_append (state.tasks task).queue task other
  unfold Room at room
  refine limited.change inside sameNext records (fun other distinct => ?_) ?_ fun exhausted => ?_
  · rw [counted, if_neg distinct, dead]
    exact ⟨add_zero _, others other distinct, id⟩
  · rw [counted, if_pos rfl, attempts, maxAttempts]
    omega
  · omega

theorem Limited.nack (worker error : String)
    (affords : state.Known task → ¬ state.Exhausted task → state.Room task) :
    Limited (state.nack task worker error).2 := by
  unfold DurableTaskQueue.nack
  split
  · rename_i known
    have inside := limited.lt_of_known known
    dsimp only
    split
    · exact limited.change inside (by rfl) rfl
        (fun other distinct => ⟨rfl, mem_erase_of_ne distinct, mem_append_left _⟩)
        (limited.spare task inside).room
        fun _ => .inr (.inl (mem_append_right _ mem_cons_self))
    · rename_i left
      exact limited.requeue inside (by rfl) rfl rfl rfl rfl
        (fun other distinct => mem_erase_of_ne distinct) rfl (affords known left)
  · exact limited

theorem Limited.timeOut (inside : task < state.nextTask) (room : state.Room task) :
    Limited (state.timeOut task) :=
  limited.requeue inside (by rfl) rfl rfl rfl rfl (fun _ _ => .rfl) rfl room

end

theorem advance_fst (state : DurableTaskQueue) (now : Timestamp) (timedOut tasks : List TaskId) :
    (state.advance now timedOut tasks).1 =
      match tasks.find? (fun task => state.Expired now task) with
      | some task => state.timeOut task
      | none => { state with leased := timedOut.foldl List.erase state.leased } := by
  induction tasks with
  | nil => rfl
  | cons task rest ih =>
    rw [advance, find?_cons]
    by_cases expired : state.Expired now task
    · simp [expired]
    · simp [expired, ih]

variable {tasks : List TaskId}

theorem mem_foldl_erase (dropped : List TaskId) (leased : task ∈ tasks) (other : task ∉ dropped) :
    task ∈ dropped.foldl List.erase tasks := by
  induction dropped generalizing tasks with
  | nil => exact leased
  | cons head dropped ih =>
    rw [mem_cons, not_or] at other
    exact ih ((mem_erase_of_ne other.1).mpr leased) other.2

theorem mem_of_mem_foldl_erase (dropped : List TaskId)
    (leased : task ∈ dropped.foldl List.erase tasks) : task ∈ tasks := by
  induction dropped generalizing tasks with
  | nil => exact leased
  | cons head dropped ih => exact mem_of_mem_erase (ih leased)

theorem Limited.advance (limited : Limited state) {now : Timestamp} {timedOut : List TaskId}
    (scans : state.Scans now timedOut tasks) : Limited (state.advance now timedOut tasks).1 := by
  rw [advance_fst]
  cases found : tasks.find? fun task => state.Expired now task with
  | some task =>
    have expired := find?_some found
    rw [decide_eq_true_iff] at expired
    exact limited.timeOut (limited.lt_of_expired expired) (scans.1 task found)
  | none =>
    constructor
    · intro task below
      have before := limited.spare task below
      refine ⟨before.room, fun exhausted => ?_⟩
      rcases before.kept exhausted with leased | elsewhere
      · left
        exact mem_foldl_erase timedOut leased fun dropped =>
          scans.2 found task dropped leased exhausted
      · exact .inr elsewhere
    · intro task beyond
      obtain ⟨record, count, notLeased⟩ := limited.fresh task beyond
      exact ⟨record, count, fun leased => notLeased (mem_of_mem_foldl_erase timedOut leased)⟩

theorem Limited.withScans (limited : Limited state) (scans : List Scan) :
    Limited { state with scans } where
  spare task below := ⟨(limited.spare task below).room, (limited.spare task below).kept⟩
  fresh := limited.fresh

theorem Limited.step (limited : Limited state) {action : Action} (affords : state.Affords action) :
    Limited (state.step action) := by
  cases action with
  | enqueue queue priority maxAttempts now => exact limited.enqueue queue priority affords now
  | lease queue worker leaseSeconds now => exact limited.lease worker affords
  | ack task worker now => exact limited.ack task worker now
  | nack task worker error => exact limited.nack worker error affords
  | checkTimeouts now => exact (limited.advance affords).withScans _
  | resumeTimeouts index =>
    change Limited (state.resumeTimeouts index)
    rw [resumeTimeouts]
    cases present : state.scans[index]? with
    | none => exact limited
    | some scan => exact ((limited.withScans (state.scans.eraseIdx index)).advance
        (affords scan present)).withScans _

theorem attempts_update {changed : TaskId}
    (same : record.attempts = (state.tasks changed).attempts) (task : TaskId) :
    (Function.update state.tasks changed record task).attempts = (state.tasks task).attempts := by
  by_cases here : task = changed
  · rw [here, update_self, same]
  · rw [update_of_ne here]

theorem attempts_advance (state : DurableTaskQueue) (now : Timestamp)
    (timedOut tasks : List TaskId) (task : TaskId) :
    ((state.advance now timedOut tasks).1.tasks task).attempts = (state.tasks task).attempts := by
  rw [advance_fst]
  split
  · exact attempts_update (by rfl) task
  · rfl

theorem Limited.attempts_step (limited : Limited state) (action : Action) (task : TaskId) :
    (state.tasks task).attempts + (if state.leasedTask action = some task then 1 else 0) ≤
      ((state.step action).tasks task).attempts := by
  cases action with
  | enqueue queue priority maxAttempts now =>
    have none : (state.tasks state.nextTask).attempts = 0 := by
      rw [(limited.fresh _ (Nat.le_refl _)).1]
    exact (add_zero _).trans_le (attempts_update none.symm task).ge
  | lease queue worker leaseSeconds now =>
    unfold DurableTaskQueue.step leasedTask
    rcases state.lease_cases queue worker leaseSeconds now with
      ⟨-, unchanged⟩ | ⟨first, rest, record, leased, -, ⟨-, attempts, -⟩, result, outcome⟩
    · simp [unchanged]
    · have handed : (state.lease queue worker leaseSeconds now).1.join = some task →
          task = first := by
        rcases outcome with ⟨-, -, raised⟩ | ⟨-, -, returned⟩
        · simp [raised]
        · simp [returned, eq_comm]
      dsimp only
      rw [result]
      dsimp only
      by_cases here : task = first
      · subst here
        rw [update_self, attempts]
        split
        · exact le_refl _
        · omega
      · rw [if_neg fun returned => here (handed returned), update_of_ne here]
        exact (add_zero _).le
  | ack acked worker now =>
    refine (add_zero _).trans_le ?_
    unfold DurableTaskQueue.step DurableTaskQueue.ack
    dsimp only
    split
    · exact (attempts_update (by rfl) task).ge
    · exact le_refl _
  | nack nacked worker error =>
    refine (add_zero _).trans_le ?_
    unfold DurableTaskQueue.step DurableTaskQueue.nack
    dsimp only
    split
    · split
      · exact (attempts_update (by rfl) task).ge
      · exact (attempts_update (by rfl) task).ge
    · exact le_refl _
  | checkTimeouts now => exact (add_zero _).trans_le (attempts_advance _ _ _ _ task).ge
  | resumeTimeouts index =>
    refine (add_zero _).trans_le ?_
    change _ ≤ ((state.resumeTimeouts index).tasks task).attempts
    rw [resumeTimeouts]
    cases state.scans[index]? with
    | none => exact le_refl _
    | some scan => exact (attempts_advance _ _ _ _ task).ge

end

/-- If every step of a run affords what it does, the attempts are bounded in every state of it. -/
theorem attemptsBounded_of_affords {actions : List Action}
    (affords : Along step Affords init actions) : AttemptsBounded actions := by
  intro task below
  have counted : Limited (run step init actions) ∧
      ((0 + leases actions task : ℕ) : ℤ) ≤ ((run step init actions).tasks task).attempts :=
    affords.counted (fun state action => leasedTask state action = some task)
      (fun state (count : ℕ) => Limited state ∧ count ≤ (state.tasks task).attempts)
      (fun shows affords => ⟨shows.1.step affords, by
        push_cast
        exact (Int.add_le_add_right shows.2 _).trans (shows.1.attempts_step _ task)⟩)
      ⟨limited_init, le_refl _⟩
  obtain ⟨limited, atMost⟩ := counted
  have spare := limited.spare task below
  have room := spare.room
  constructor
  · omega
  · intro exhausted
    refine ⟨fun queued => ?_, spare.kept exhausted⟩
    have some := ((run step init actions).queued_iff_queuedCount_pos task).mp queued
    unfold Exhausted at exhausted
    omega

/-- A task with one attempt that is leased and given back by its worker. -/
theorem attemptsBounded_of_nack :
    AttemptsBounded [.enqueue "default" 5 1 0, .lease "default" "first" 60 0,
      .nack 0 "first" "failed"] :=
  attemptsBounded_of_affords ⟨Int.zero_lt_one, fun _ _ => .inl (by decide +kernel),
    fun _ left => absurd (by unfold Exhausted; decide +kernel) left, trivial⟩

/-- The lease of the only attempt runs out, and the task is leased again. -/
theorem leased_beyond_attempts : ¬ ∀ actions, AttemptsBounded actions := by
  intro bounded
  have within := (bounded [.enqueue "default" 5 1 0, .lease "default" "first" 60 0,
    .checkTimeouts 61, .resumeTimeouts 0, .lease "default" "second" 60 62] 0 (by decide +kernel)).1
  exact absurd within (by decide +kernel)

end AgenticOS.Persistent.DurableTaskQueue
