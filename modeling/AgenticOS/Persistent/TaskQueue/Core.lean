import Mathlib.Data.List.Sort
import AgenticOS.Data.Clock
import AgenticOS.Data.Dict
import AgenticOS.Transition.Run

/-!
# The durable task queue

A priority queue with leases and a dead-letter list. Queue lists and the table of
leases hold references to shared task objects, so the state keeps the objects in one
store and the containers hold task ids.

`enqueue`, `lease`, `ack` and `nack` change the state before their first `await` and
only return afterwards: each is one action. `check_timeouts` awaits the persistence
of every timed-out task inside its loop. It is a suspended `Scan` between these
points, and any other action may come in between.
-/

namespace AgenticOS.Persistent

open List

/-- Task ids are drawn from a counter; like the generated ones they never repeat. -/
abbrev TaskId := Nat

inductive QueueTaskStatus
  | queued | leased | completed | failed | deadLetter | timedOut
  deriving DecidableEq

/-- A task object. The empty expiry string is `none`. -/
structure QueueTask where
  queue : String := "default"
  priority : ℤ := 5
  status : QueueTaskStatus := .queued
  leaseOwner : String := ""
  leaseExpires : Option Timestamp := none
  ackCount : Nat := 0
  nackCount : Nat := 0
  maxAttempts : ℤ := 3
  attempts : ℤ := 0
  error : String := ""
  createdAt : Timestamp := 0
  completedAt : Option Timestamp := none

/-- The counters kept by the queue. -/
structure QueueStatistics where
  enqueued : Nat := 0
  completed : Nat := 0
  deadLettered : Nat := 0
  timedOut : Nat := 0

/-- A call of `check_timeouts` that awaits the persistence of a task: the time it
started, the leases it has not looked at, and the tasks it timed out. -/
structure Scan where
  now : Timestamp
  remaining : List TaskId
  timedOut : List TaskId

structure DurableTaskQueue where
  /-- The task objects. -/
  tasks : TaskId → QueueTask
  /-- The id the next task receives. -/
  nextTask : TaskId
  queues : Dict String (List TaskId)
  /-- The keys of the table of leases, in insertion order. -/
  leased : List TaskId
  deadLetter : List TaskId
  scans : List Scan
  stats : QueueStatistics

namespace DurableTaskQueue

def init : DurableTaskQueue where
  tasks := fun _ => {}
  nextTask := 0
  queues := Dict.empty
  leased := []
  deadLetter := []
  scans := []
  stats := {}

variable (state : DurableTaskQueue)

def queueList (queue : String) : List TaskId :=
  (state.queues.get? queue).getD []

def append (queue : String) (task : TaskId) : Dict String (List TaskId) :=
  state.queues.set queue (state.queueList queue ++ [task])

def enqueue (queue : String) (priority maxAttempts : ℤ)
    (now : Timestamp) : TaskId × DurableTaskQueue :=
  let task := state.nextTask
  (task,
    { state with
      tasks := Function.update state.tasks task { queue, priority, maxAttempts, createdAt := now }
      nextTask := state.nextTask + 1
      queues := state.append queue task
      stats := { state.stats with enqueued := state.stats.enqueued + 1 } })

/-- The sort key of a lease: priority first, then age. -/
def NotAfter (left right : TaskId) : Prop :=
  (state.tasks left).priority < (state.tasks right).priority ∨
    ((state.tasks left).priority = (state.tasks right).priority ∧
      (state.tasks left).createdAt ≤ (state.tasks right).createdAt)
deriving Decidable

/-- Lease the first task of a queue list. It leaves the list, and its attempt is counted, before
the end of the lease is computed: where that raises, no task is returned and the popped one is
put nowhere. -/
def lease (queue worker : String) (leaseSeconds : ℚ)
    (now : Timestamp) : Option (Option TaskId) × DurableTaskQueue :=
  match (state.queueList queue).insertionSort state.NotAfter with
  | [] => (some none, state)
  | task :: rest =>
    let record := { state.tasks task with
      status := .leased
      leaseOwner := worker
      attempts := (state.tasks task).attempts + 1 }
    let popped := { state with
      tasks := Function.update state.tasks task record
      queues := state.queues.set queue rest }
    match now.after? leaseSeconds with
    | none => (none, popped)
    | some expires =>
      (some (some task),
        { popped with
          tasks := Function.update state.tasks task { record with leaseExpires := some expires }
          leased := if task ∈ state.leased then state.leased else state.leased ++ [task] })

variable (task : TaskId)

/-- The task stands in some queue list. -/
def Queued : Prop :=
  ∃ entry ∈ state.queues.entries, task ∈ entry.2
deriving Decidable

/-- A task that `ack` and `nack` find: they look into the table of leases first, and
then into every queue list. -/
def Known : Prop :=
  task ∈ state.leased ∨ state.Queued task
deriving Decidable

/-- Acknowledge a task as completed. The worker's id is not used. A task found in a
queue list stays there. -/
def ack (_worker : String) (now : Timestamp) : Bool × DurableTaskQueue :=
  if state.Known task then
    let record := state.tasks task
    (true,
      { state with
        tasks := Function.update state.tasks task
          { record with
            status := .completed
            ackCount := record.ackCount + 1
            completedAt := some now }
        leased := state.leased.erase task
        stats := { state.stats with completed := state.stats.completed + 1 } })
  else (false, state)

/-- Negative acknowledgement: retry or dead-letter the task. The worker's id is not
used. A task found in a queue list stays there. -/
def nack (_worker error : String) : Bool × DurableTaskQueue :=
  if state.Known task then
    let record := { state.tasks task with nackCount := (state.tasks task).nackCount + 1, error }
    if record.maxAttempts ≤ record.attempts then
      (true,
        { state with
          tasks := Function.update state.tasks task { record with status := .deadLetter }
          leased := state.leased.erase task
          deadLetter := state.deadLetter ++ [task]
          stats := { state.stats with deadLettered := state.stats.deadLettered + 1 } })
    else
      (true,
        { state with
          tasks := Function.update state.tasks task
            { record with status := .queued, leaseOwner := "", leaseExpires := none }
          leased := state.leased.erase task
          queues := state.append record.queue task })
  else (false, state)

def Expired (now : Timestamp) (task : TaskId) : Prop :=
  (state.tasks task).status = .leased ∧ ∃ expires ∈ (state.tasks task).leaseExpires, expires < now
deriving Decidable

/-- Time a task out: it returns to its queue list, while the table of leases keeps it. -/
def timeOut : DurableTaskQueue :=
  let record := state.tasks task
  { state with
    tasks := Function.update state.tasks task
      { record with status := .timedOut, leaseOwner := "", leaseExpires := none }
    queues := state.append record.queue task
    stats := { state.stats with timedOut := state.stats.timedOut + 1 } }

/-- Run a scan to its next `await`, or to its end. Only the end removes the timed-out
tasks from the table of leases. -/
def advance (state : DurableTaskQueue) (now : Timestamp) (timedOut : List TaskId) :
    List TaskId → DurableTaskQueue × Option Scan
  | [] => ({ state with leased := timedOut.foldl List.erase state.leased }, none)
  | task :: rest =>
    if state.Expired now task then
      (state.timeOut task, some { now, remaining := rest, timedOut := timedOut ++ [task] })
    else state.advance now timedOut rest

def checkTimeouts (now : Timestamp) : DurableTaskQueue :=
  let (next, suspended) := state.advance now [] state.leased
  { next with scans := next.scans ++ suspended.toList }

/-- A suspended `check_timeouts` continues. -/
def resumeTimeouts (index : Nat) : DurableTaskQueue :=
  match state.scans[index]? with
  | none => state
  | some scan =>
    let waiting := { state with scans := state.scans.eraseIdx index }
    let (next, suspended) := waiting.advance scan.now scan.timedOut scan.remaining
    { next with scans := next.scans ++ suspended.toList }

/-! ## Actions -/

/-- What may happen between two suspensions. -/
inductive Action
  | enqueue (queue : String) (priority maxAttempts : ℤ) (now : Timestamp)
  | lease (queue worker : String) (leaseSeconds : ℚ) (now : Timestamp)
  | ack (task : TaskId) (worker : String) (now : Timestamp)
  | nack (task : TaskId) (worker error : String)
  | checkTimeouts (now : Timestamp)
  | resumeTimeouts (index : Nat)

def step : Action → DurableTaskQueue
  | .enqueue queue priority maxAttempts now => (state.enqueue queue priority maxAttempts now).2
  | .lease queue worker leaseSeconds now => (state.lease queue worker leaseSeconds now).2
  | .ack task worker now => (state.ack task worker now).2
  | .nack task worker error => (state.nack task worker error).2
  | .checkTimeouts now => state.checkTimeouts now
  | .resumeTimeouts index => state.resumeTimeouts index

/-- How often a task stands in the queue lists. -/
def queuedCount : Nat :=
  state.queues.sumBy fun _ tasks => tasks.count task

/-- Completion counts as a place. -/
def completion (record : QueueTask) : Nat :=
  if record.status = .completed then 1 else 0

/-- The number of places a task is in: its occurrences in the queue lists, in the table of
leases and in the dead-letter list, and completion. -/
def places : Nat :=
  state.queuedCount task + state.leased.count task + state.deadLetter.count task +
    completion (state.tasks task)

/-- Every task ever enqueued is in exactly one place. -/
def OnePlace : Prop :=
  ∀ task, task < state.nextTask → state.places task = 1

variable (state : DurableTaskQueue)

theorem queued_iff_queuedCount_pos (task : TaskId) :
    state.Queued task ↔ 0 < state.queuedCount task := by
  unfold Queued queuedCount Dict.sumBy
  rw [Nat.pos_iff_ne_zero, ne_eq, sum_eq_zero_iff]
  simp only [mem_map, forall_exists_index, and_imp, forall_apply_eq_imp_iff₂,
    count_eq_zero, not_forall, not_not, exists_prop]

theorem queuedCount_set (queue : String) (tasks : List TaskId) (task : TaskId) :
    ((state.queues.set queue tasks).sumBy fun _ tasks => tasks.count task) +
        (state.queueList queue).count task =
      state.queuedCount task + tasks.count task := by
  have moved := state.queues.sumBy_set_add (fun _ tasks => tasks.count task) queue tasks
  unfold queueList
  cases lookup : state.queues.get? queue with
  | none | some => simpa [lookup, queuedCount] using moved

theorem queuedCount_append (queue : String) (added task : TaskId) :
    ((state.append queue added).sumBy fun _ tasks => tasks.count task) =
      state.queuedCount task + if task = added then 1 else 0 := by
  have moved := state.queuedCount_set queue (state.queueList queue ++ [added]) task
  unfold append
  rw [count_append] at moved
  by_cases same : task = added
  · subst same
    rw [count_singleton_self] at moved
    rw [if_pos rfl]
    omega
  · have absent : [added].count task = 0 :=
      count_eq_zero_of_not_mem (by simpa using same)
    rw [if_neg same]
    omega

theorem completion_eq_zero {record : QueueTask} (status : record.status ≠ .completed) :
    completion record = 0 :=
  if_neg status

theorem completion_eq_one {record : QueueTask} (status : record.status = .completed) :
    completion record = 1 :=
  if_pos status

end DurableTaskQueue

end AgenticOS.Persistent
