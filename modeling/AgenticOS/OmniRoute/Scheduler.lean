import Mathlib.Data.List.Sort
import AgenticOS.Data.Heapq
import AgenticOS.OmniRoute.Domain

/-!
# The request scheduler

Accepted requests wait in one of three structures: priority queues, a heap by deadline, and
queues by group that are served fairly. The algorithm decides where a request goes. Item
ids are drawn from a counter; like the generated ones they never repeat.
-/

namespace AgenticOS.OmniRoute

open List

/-- The scheduling algorithm. A name that the engine does not know is treated as
`adaptive_hybrid`. -/
inductive SchedulingAlgorithm
  | fifo | priority | edf | fair | rr | wrr | adaptiveHybrid
  | other (name : String)
  deriving DecidableEq

/-- What the scheduler does at its maximal depth. -/
inductive QueueOverflowStrategy
  | reject | dropOldest | dropNewest | delay | spillover | priorityEviction | adaptiveEviction
  deriving DecidableEq

structure SchedulingPolicy where
  algorithm : SchedulingAlgorithm := .adaptiveHybrid
  maxQueueDepth : ℤ := 500
  overflowStrategy : QueueOverflowStrategy := .reject

/-- A request for scheduling. -/
structure QueueItem where
  id : Nat
  provider : String := ""
  model : String := ""
  priority : PriorityLevel := .normal
  createdAt : Timestamp
  deadline : Option Timestamp := none
  cost : ℚ := 0
  estimatedLatencyMs : ℚ := 0
  queueAffinity : String := ""
  deriving DecidableEq

/-- An item with its times on the monotonic clock, in milliseconds. -/
structure QueueEntry where
  item : QueueItem
  priorityLevel : PriorityLevel
  enqueuedMs : ℚ
  deadlineMs : Option ℚ := none
  deriving DecidableEq

/-- Why the scheduler answers as it does. -/
inductive SchedulingReason
  | queued | queueFull | queuePaused | schedulerNotRunning
  deriving DecidableEq

/-- The answer of the scheduler. -/
structure SchedulingDecision where
  queued : Bool := false
  itemId : Option Nat := none
  position : ℤ := 0
  reason : SchedulingReason := .queued
  retryAfterMs : ℚ := 0

structure PriorityQueueManager where
  maxSize : ℤ := 500
  queues : PriorityLevel → List QueueEntry := fun _ => []
  total : ℤ := 0
  overflowCount : Nat := 0

namespace PriorityQueueManager

variable (manager : PriorityQueueManager)

/-- Push an entry; a full queue refuses it. The other overflow strategies of the source are
not used by the engine. -/
def push (entry : QueueEntry) : Bool × PriorityQueueManager :=
  if manager.maxSize ≤ manager.total then
    (false, { manager with overflowCount := manager.overflowCount + 1 })
  else
    (true,
      { manager with
        queues := fun level =>
          if level = entry.priorityLevel then manager.queues level ++ [entry]
          else manager.queues level
        total := manager.total + 1 })

def shorten (level : PriorityLevel) (entries : List QueueEntry) : PriorityQueueManager :=
  { manager with
    queues := Function.update manager.queues level entries
    total := manager.total - 1 }

def popFrom (manager : PriorityQueueManager) :
    List PriorityLevel → Option QueueEntry × PriorityQueueManager
  | [] => (none, manager)
  | level :: levels =>
    match manager.queues level with
    | [] => manager.popFrom levels
    | entry :: rest => (some entry, manager.shorten level rest)

def pop : Option QueueEntry × PriorityQueueManager :=
  manager.popFrom PriorityLevel.all

/-- Remove the first entry for an item from the first of the given levels that has one. -/
def removeFrom (manager : PriorityQueueManager) (id : Nat) :
    List PriorityLevel → Bool × PriorityQueueManager
  | [] => (false, manager)
  | level :: levels =>
    if (manager.queues level).any fun entry => entry.item.id = id then
      (true, manager.shorten level ((manager.queues level).eraseP fun entry => entry.item.id = id))
    else manager.removeFrom id levels

def remove (id : Nat) : Bool × PriorityQueueManager :=
  manager.removeFrom id PriorityLevel.all

def clear : PriorityQueueManager :=
  { manager with queues := fun _ => [], total := 0, overflowCount := 0 }

def Holds (entry : QueueEntry) : Prop :=
  ∃ level, entry ∈ manager.queues level

theorem holds_push {manager : PriorityQueueManager} {added entry : QueueEntry} :
    (manager.push added).2.Holds entry ↔
      manager.Holds entry ∨ ((manager.push added).1 ∧ entry = added) := by
  unfold push
  split
  · simp only [Holds, Bool.false_eq_true, false_and, or_false]
  · simp only [Holds, true_and]
    constructor
    · rintro ⟨level, member⟩
      split at member
      · rcases mem_append.mp member with old | new
        · exact .inl ⟨level, old⟩
        · exact .inr (mem_singleton.mp new)
      · exact .inl ⟨level, member⟩
    · rintro (⟨level, member⟩ | rfl)
      · refine ⟨level, ?_⟩
        split
        · exact mem_append_left _ member
        · exact member
      · refine ⟨entry.priorityLevel, ?_⟩
        rw [if_pos rfl]
        exact mem_append_right _ mem_cons_self

end PriorityQueueManager

/-- A heap by deadline, entries with equal deadlines by their number. An entry without a
deadline is last. -/
structure EDFQueue where
  heap : Array (WithTop ℚ × Nat × QueueEntry) := #[]
  counter : Nat := 0

namespace EDFQueue

/-- The order of the heap. -/
def before (left right : WithTop ℚ × Nat × QueueEntry) : Bool :=
  left.1 < right.1 ∨ (left.1 = right.1 ∧ left.2.1 < right.2.1)

def push (queue : EDFQueue) (entry : QueueEntry) : EDFQueue :=
  let deadline : WithTop ℚ :=
    match entry.deadlineMs with
    | some deadline => (deadline : WithTop ℚ)
    | none => ⊤
  { heap := Heapq.heappush before queue.heap (deadline, queue.counter + 1, entry)
    counter := queue.counter + 1 }

def pop (queue : EDFQueue) : Option QueueEntry × EDFQueue :=
  match Heapq.heappop before queue.heap with
  | none => (none, queue)
  | some (slot, heap) => (some slot.2.2, { queue with heap })

/-- Remove the entries for an item. The others keep their order in the array, which need
not be a heap any more. -/
def remove (queue : EDFQueue) (id : Nat) : Bool × EDFQueue :=
  (queue.heap.any fun slot => slot.2.2.item.id = id,
    { queue with heap := queue.heap.filter fun slot => slot.2.2.item.id ≠ id })

def clear (_queue : EDFQueue) : EDFQueue where
  heap := #[]
  counter := 0

/-- Pop entries while the root has expired. The first argument bounds their number. -/
def expireLoop (now : ℚ) : Nat → EDFQueue → List QueueEntry × EDFQueue
  | 0, queue => ([], queue)
  | turns + 1, queue =>
    match Heapq.heappop before queue.heap with
    | none => ([], queue)
    | some (slot, heap) =>
      if slot.1 ≤ now then
        let (later, queue) := expireLoop now turns { queue with heap }
        (slot.2.2 :: later, queue)
      else ([], queue)

/-- Pop and return the expired entries. -/
def expired (queue : EDFQueue) (now : ℚ) : List QueueEntry × EDFQueue :=
  expireLoop now queue.heap.size queue

def Holds (queue : EDFQueue) (entry : QueueEntry) : Prop :=
  ∃ slot ∈ queue.heap.toList, slot.2.2 = entry

theorem holds_push {queue : EDFQueue} {added entry : QueueEntry} :
    (queue.push added).Holds entry ↔ queue.Holds entry ∨ entry = added := by
  simp only [Holds, push, (Heapq.toList_heappush_perm before queue.heap _).mem_iff, mem_cons]
  constructor
  · rintro ⟨slot, rfl | old, same⟩
    · exact .inr same.symm
    · exact .inl ⟨slot, old, same⟩
  · rintro (⟨slot, old, same⟩ | rfl)
    · exact ⟨slot, .inr old, same⟩
    · exact ⟨_, .inl rfl, rfl⟩

end EDFQueue

/-- The service a group has received. -/
structure FairnessTracker where
  dispatched : Nat := 0
  lastDispatchMs : ℚ := 0
  deficit : ℚ := 0

structure WeightedFairQueue where
  queues : Dict String (List QueueEntry) := Dict.empty
  fairness : Dict String FairnessTracker := Dict.empty
  weights : Dict String ℚ := Dict.empty
  roundRobin : List String := []
  rrIndex : Nat := 0
  total : ℤ := 0

namespace WeightedFairQueue

variable (fair : WeightedFairQueue)

def queueOf (group : String) : List QueueEntry :=
  (fair.queues.get? group).getD []

def weightOf (group : String) : ℚ :=
  (fair.weights.get? group).getD 1

def shorten (group : String) (entries : List QueueEntry) : WeightedFairQueue :=
  { fair with queues := fair.queues.set group entries, total := fair.total - 1 }

def candidates : List (ℚ × String) :=
  fair.queues.entries.filterMap fun (group, entries) =>
    if entries = [] then none
    else some (((fair.fairness.get? group).getD {}).deficit / fair.weightOf group, group)

def popWfq (nowMs : ℚ) : Option QueueEntry × WeightedFairQueue :=
  match fair.candidates.insertionSort fun left right => left.1 ≤ right.1 with
  | [] => (none, fair)
  | (_, chosen) :: _ =>
    match fair.queueOf chosen with
    | [] => (none, fair)
    | entry :: rest =>
      let tracker := (fair.fairness.get? chosen).getD {}
      (some entry,
        { fair.shorten chosen rest with
          fairness := fair.fairness.set chosen
            { dispatched := tracker.dispatched + 1
              lastDispatchMs := nowMs
              deficit := tracker.deficit + 1 } })

/-- Move on to the next group of the round. -/
def advance : WeightedFairQueue :=
  { fair with rrIndex := (fair.rrIndex + 1) % fair.roundRobin.length }

/-- Look at the deque of a group. The `defaultdict` enters an empty one where there is none. -/
def look (group : String) : WeightedFairQueue :=
  { fair with queues := fair.queues.set group (fair.queueOf group) }

/-- Turn through the groups until one that `eligible` selects has an entry. -/
def popRound (eligible : String → Bool) :
    Nat → WeightedFairQueue → Option QueueEntry × WeightedFairQueue
  | 0, fair => (none, fair)
  | turns + 1, fair =>
    match fair.roundRobin[fair.rrIndex]? with
    | none => (none, fair)
    | some group =>
      let fair := fair.look group
      match fair.queueOf group with
      | [] => popRound eligible turns fair.advance
      | entry :: rest =>
        if eligible group then (some entry, fair.advance.shorten group rest)
        else popRound eligible turns fair.advance

def popRr : Option QueueEntry × WeightedFairQueue :=
  fair.popRound (fun _ => true) fair.roundRobin.length

/-- Weighted round robin: three rounds over the groups with a tenth of the weight, then a
round over all. -/
def popWrr : Option QueueEntry × WeightedFairQueue :=
  let totalWeight := (fair.roundRobin.map fair.weightOf).sum
  if totalWeight = 0 then fair.popRr
  else
    match fair.popRound (fun group => 1 / 10 ≤ fair.weightOf group / totalWeight)
        (fair.roundRobin.length * 3) with
    | (some entry, fair) => (some entry, fair)
    | (none, fair) => fair.popRr

def remove (id : Nat) : Bool × WeightedFairQueue :=
  match fair.queues.keys.find? fun group =>
      (fair.queueOf group).any fun entry => entry.item.id = id with
  | none => (false, fair)
  | some group =>
    (true, fair.shorten group ((fair.queueOf group).eraseP fun entry => entry.item.id = id))

/-- The groups keep their weights and their places in the round. -/
def clear : WeightedFairQueue :=
  { fair with queues := Dict.empty, fairness := Dict.empty, total := 0, rrIndex := 0 }

def setWeight (group : String) (weight : ℚ) : WeightedFairQueue :=
  let weighted := { fair with weights := fair.weights.set group (max (1 / 10) weight) }
  if (fair.fairness.get? group).isSome then weighted
  else
    { weighted with
      fairness := fair.fairness.set group {}
      roundRobin := fair.roundRobin ++ [group] }

def push (group : String) (entry : QueueEntry) : WeightedFairQueue :=
  let known := if (fair.fairness.get? group).isSome then fair else fair.setWeight group 1
  { known with
    queues := known.queues.set group ((known.queues.get? group).getD [] ++ [entry])
    total := known.total + 1 }

def Holds (entry : QueueEntry) : Prop :=
  ∃ group entries, fair.queues.get? group = some entries ∧ entry ∈ entries

theorem queues_push (group : String) (entry : QueueEntry) : (fair.push group entry).queues =
      fair.queues.set group ((fair.queues.get? group).getD [] ++ [entry]) := by
  unfold push setWeight
  split
  · rfl
  · rfl

theorem holds_iff {fair : WeightedFairQueue} {entry : QueueEntry} :
    fair.Holds entry ↔ ∃ group, entry ∈ (fair.queues.get? group).getD [] := by
  constructor
  · rintro ⟨group, entries, found, member⟩
    refine ⟨group, ?_⟩
    rw [found]
    exact member
  · rintro ⟨group, member⟩
    cases found : fair.queues.get? group with
    | none =>
      rw [found] at member
      cases member
    | some entries =>
      rw [found] at member
      exact ⟨group, entries, found, member⟩

theorem holds_push {fair : WeightedFairQueue} {group : String} {added entry : QueueEntry} :
    (fair.push group added).Holds entry ↔ fair.Holds entry ∨ entry = added := by
  simp only [holds_iff, queues_push, Dict.get?_set]
  constructor
  · rintro ⟨asked, member⟩
    split at member
    · rcases mem_append.mp member with old | new
      · exact .inl ⟨group, old⟩
      · exact .inr (mem_singleton.mp new)
    · exact .inl ⟨asked, member⟩
  · rintro (⟨asked, member⟩ | rfl)
    · refine ⟨asked, ?_⟩
      split
      next same =>
        subst same
        exact mem_append_left _ member
      · exact member
    · refine ⟨group, ?_⟩
      rw [if_pos rfl]
      exact mem_append_right _ mem_cons_self

end WeightedFairQueue

structure BackPressureManager where
  high : ℤ := 450
  low : ℤ := 250
  backpressure : Bool := false
  events : Nat := 0

def BackPressureManager.update (manager : BackPressureManager) (depth : ℤ) : BackPressureManager :=
  if manager.high ≤ depth ∧ manager.backpressure = false then
    { manager with backpressure := true, events := manager.events + 1 }
  else if depth ≤ manager.low ∧ manager.backpressure then
    { manager with backpressure := false, events := manager.events + 1 }
  else manager

structure QueueBalancer where
  providerLoads : Dict String ℤ := Dict.empty
  totalLoad : ℤ := 0

def QueueBalancer.recordPush (balancer : QueueBalancer) (provider : String) : QueueBalancer where
  providerLoads :=
    balancer.providerLoads.set provider ((balancer.providerLoads.get? provider).getD 0 + 1)
  totalLoad := balancer.totalLoad + 1

structure WorkerAllocator where
  poolSize : ℤ := 32
  acquired : ℤ := 0

namespace WorkerAllocator

def acquire (workers : WorkerAllocator) : Bool × WorkerAllocator :=
  if workers.acquired + 1 ≤ workers.poolSize then
    (true, { workers with acquired := workers.acquired + 1 })
  else (false, workers)

def release (workers : WorkerAllocator) : WorkerAllocator :=
  { workers with acquired := max 0 (workers.acquired - 1) }

end WorkerAllocator

/-- When a dispatched item may be tried again. -/
structure RetrySchedule where
  shouldRetry : Bool := false
  retryCount : Nat := 0
  delayMs : ℚ := 0
  reason : String := ""

/-- The retries planned for each item. -/
structure RetryPlanner where
  retryCounts : Dict Nat Nat := Dict.empty
  totalRetries : Nat := 0

def RetryPlanner.plan (planner : RetryPlanner) (id : Nat) (maxRetries : Nat) :
    RetrySchedule × RetryPlanner :=
  let count := (planner.retryCounts.get? id).getD 0
  if maxRetries ≤ count then
    ({ retryCount := count, reason := "max retries exceeded" }, planner)
  else
    ({ shouldRetry := true
       retryCount := count + 1
       delayMs := 100 * 2 ^ count + 50
       reason := "retry #" ++ toString (count + 1) },
      { retryCounts := planner.retryCounts.set id (count + 1)
        totalRetries := planner.totalRetries + 1 })

structure DispatchReservation where
  itemId : Nat
  provider : String := ""
  model : String := ""
  reservedAt : ℚ := 0
  expiresAt : ℚ := 0

/-! ## The engine -/

structure SchedulerEngineImpl where
  running : Bool := false
  paused : Bool := false
  schedulerPolicy : SchedulingPolicy := {}
  fifo : PriorityQueueManager := {}
  edf : EDFQueue := {}
  fair : WeightedFairQueue := {}
  backpressure : BackPressureManager := {}
  balancer : QueueBalancer := {}
  nextItem : Nat := 0
  workers : WorkerAllocator := {}
  retry : RetryPlanner := {}
  reservations : Dict Nat DispatchReservation := Dict.empty

/-- What the caller asks the scheduler for. -/
structure ScheduleRequest where
  provider : String
  model : String
  priority : PriorityLevel := .normal
  deadlineS : Option ℚ := none
  providerCost : ℚ := 0
  estimatedLatencyMs : ℚ := 0
  queueAffinity : Option String := none

namespace ScheduleRequest

/-- `queue_affinity or ""`. -/
def affinity (request : ScheduleRequest) : String :=
  request.queueAffinity.getD ""

/-- The group of the fair queues: `queue_affinity or provider`. -/
def group (request : ScheduleRequest) : String :=
  if request.affinity = "" then request.provider else request.affinity

/-- The entry for the request. A deadline of zero seconds counts as no deadline on the
monotonic clock. -/
def entry (request : ScheduleRequest) (id : Nat) (instant : Instant) : QueueEntry where
  item :=
    { id
      provider := request.provider
      model := request.model
      priority := request.priority
      createdAt := instant.now
      deadline := request.deadlineS.map fun seconds => instant.now + seconds
      cost := request.providerCost
      estimatedLatencyMs := request.estimatedLatencyMs
      queueAffinity := request.affinity }
  priorityLevel := request.priority
  enqueuedMs := instant.mono * 1000
  deadlineMs := (request.deadlineS.filter fun seconds => seconds ≠ 0).map fun seconds =>
    instant.mono * 1000 + seconds * 1000

end ScheduleRequest

namespace SchedulerEngineImpl

variable (engine : SchedulerEngineImpl)

def totalDepth : ℤ :=
  engine.fifo.total + engine.edf.heap.size + engine.fair.total

def place (request : ScheduleRequest) (entry : QueueEntry) : Bool × SchedulerEngineImpl :=
  let intoFifo :=
    let (queued, fifo) := engine.fifo.push entry
    (queued, { engine with fifo })
  let intoEdf := (true, { engine with edf := engine.edf.push entry })
  let intoFair := (true, { engine with fair := engine.fair.push request.group entry })
  match engine.schedulerPolicy.algorithm with
  | .edf => intoEdf
  | .fair => intoFair
  | .fifo | .priority => intoFifo
  | .rr | .wrr | .adaptiveHybrid | .other _ =>
    if request.deadlineS.isSome then intoEdf
    else if request.group ≠ "" then intoFair
    else intoFifo

/-- Enqueue a request. A request with an affinity that finds the priority queues full is
reported as queued. A deadline beyond the last date raises before anything is queued, which is
not followed here. -/
def enqueue (instant : Instant) (request : ScheduleRequest) :
    SchedulingDecision × SchedulerEngineImpl :=
  if ¬ engine.running then ({ reason := .schedulerNotRunning }, engine)
  else if engine.paused then ({ reason := .queuePaused }, engine)
  else
    let entry := request.entry engine.nextItem instant
    let depth := engine.totalDepth
    let engine :=
      { engine with
        nextItem := engine.nextItem + 1
        backpressure := engine.backpressure.update depth }
    let policy := engine.schedulerPolicy
    let full : SchedulingDecision := { reason := .queueFull, retryAfterMs := 30000 }
    if policy.maxQueueDepth ≤ depth ∧ (policy.algorithm = .fifo ∨ policy.algorithm = .priority) ∧
        policy.overflowStrategy = .reject then
      (full, engine)
    else
      let (queued, engine) := engine.place request entry
      let excused : Bool :=
        ((policy.algorithm = .edf ∨ policy.algorithm = .fair) ∧
          request.deadlineS.any fun seconds => seconds ≠ 0) ∨ request.affinity ≠ ""
      if !queued && !excused then (full, engine)
      else
        ({ queued := true, itemId := some entry.item.id, position := depth + 1 },
          { engine with balancer := engine.balancer.recordPush request.provider })

def schedule (instant : Instant) (request : ScheduleRequest) :
    SchedulingDecision × SchedulerEngineImpl :=
  engine.enqueue instant request

/-- An entry waits in one of the three structures. -/
def Holds (entry : QueueEntry) : Prop :=
  engine.fifo.Holds entry ∨ engine.edf.Holds entry ∨ engine.fair.Holds entry

theorem holds_place {engine : SchedulerEngineImpl} {request : ScheduleRequest}
    {added entry : QueueEntry} : (engine.place request added).2.Holds entry ↔
      engine.Holds entry ∨ ((engine.place request added).1 ∧ entry = added) := by
  have fifo : ({ engine with fifo := (engine.fifo.push added).2 } : SchedulerEngineImpl).Holds
        entry ↔ engine.Holds entry ∨ ((engine.fifo.push added).1 ∧ entry = added) := by
    simp only [Holds, PriorityQueueManager.holds_push]
    exact or_right_comm
  have edf : ({ engine with edf := engine.edf.push added } : SchedulerEngineImpl).Holds entry ↔
      engine.Holds entry ∨ (true ∧ entry = added) := by
    simp only [Holds, EDFQueue.holds_push, true_and]
    rw [or_right_comm, or_assoc, or_assoc, or_assoc]
  have fair : ({ engine with fair := engine.fair.push request.group added } :
        SchedulerEngineImpl).Holds entry ↔
      engine.Holds entry ∨ (true ∧ entry = added) := by
    simp only [Holds, WeightedFairQueue.holds_push, true_and]
    rw [or_assoc, or_assoc]
  unfold place
  dsimp only
  split
  · exact edf
  · exact fair
  · exact fifo
  · exact fifo
  all_goals
    split
    · exact edf
    · split
      · exact fair
      · exact fifo

variable (engine : SchedulerEngineImpl)

/-- Scheduling a request keeps what is queued; what it adds is its own entry, and only where
it reports the request as queued. -/
theorem holds_schedule (instant : Instant) (request : ScheduleRequest) (entry : QueueEntry) :
    (engine.Holds entry → (engine.schedule instant request).2.Holds entry) ∧
      ((engine.schedule instant request).2.Holds entry → engine.Holds entry ∨
        ((engine.schedule instant request).1.queued ∧
          entry = request.entry engine.nextItem instant)) := by
  unfold schedule enqueue
  split
  · exact ⟨id, .inl⟩
  · split
    · exact ⟨id, .inl⟩
    · dsimp only
      split
      · exact ⟨id, .inl⟩
      · have placed := @holds_place
          { engine with
            nextItem := engine.nextItem + 1
            backpressure := engine.backpressure.update engine.totalDepth }
          request (request.entry engine.nextItem instant) entry
        constructor
        · intro holds
          have kept := placed.mpr (.inl holds)
          split
          · exact kept
          · exact kept
        · intro holds
          split at holds
          next refused =>
            rcases placed.mp holds with before | ⟨accepted, _⟩
            · exact .inl before
            · simp [accepted] at refused
          · rw [if_neg ‹_›]
            exact (placed.mp holds).imp_right fun accepted => ⟨rfl, accepted.2⟩

theorem balancer_place (request : ScheduleRequest) (entry : QueueEntry) :
    (engine.place request entry).2.balancer = engine.balancer := by
  unfold place
  dsimp only
  split
  · rfl
  · rfl
  · rfl
  · rfl
  all_goals
    split
    · rfl
    · split
      · rfl
      · rfl

theorem providerLoads_schedule (instant : Instant) (request : ScheduleRequest) {provider : String}
    (other : (engine.schedule instant request).1.queued → provider ≠ request.provider) :
    (engine.schedule instant request).2.balancer.providerLoads.get? provider =
      engine.balancer.providerLoads.get? provider := by
  unfold schedule enqueue at other ⊢
  split
  · rfl
  next running =>
    rw [if_neg running] at other
    split
    · rfl
    next resumed =>
      rw [if_neg resumed] at other
      dsimp only at other ⊢
      split
      · rfl
      next roomy =>
        rw [if_neg roomy] at other
        split
        · rw [balancer_place]
        next accepted =>
          rw [if_neg accepted] at other
          dsimp only [QueueBalancer.recordPush]
          rw [Dict.get?_set_ne _ (other rfl), balancer_place]

end SchedulerEngineImpl

end AgenticOS.OmniRoute
