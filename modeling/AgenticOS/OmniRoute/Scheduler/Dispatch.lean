import AgenticOS.OmniRoute.Scheduler.Deadlines

/-!
# Dispatching requests

`dequeue` drops the expired entries of the heap, takes a worker and pops an entry from the
structures that belong to the algorithm. The worker is given back only where there was no
entry; the reservation that is made for the entry lasts thirty seconds.
-/

namespace AgenticOS.OmniRoute

structure DispatchPlan where
  item : QueueItem
  priority : PriorityLevel
  waitTimeMs : ℚ
  retry : RetrySchedule
  deadlineMs : Option ℚ
  reservation : DispatchReservation
  algorithm : SchedulingAlgorithm

namespace SchedulerEngineImpl

/-- A scheduler with the given configuration. The water marks are fractions of the queue
size, truncated. -/
def create (maxQueue : ℤ := 500) (workerPool : ℤ := 32)
    (algorithm : SchedulingAlgorithm := .adaptiveHybrid) (backpressureHigh : ℚ := 9 / 10)
    (backpressureLow : ℚ := 1 / 2) : SchedulerEngineImpl where
  schedulerPolicy := { algorithm, maxQueueDepth := maxQueue }
  fifo := { maxSize := maxQueue }
  backpressure :=
    { high := truncate (backpressureHigh * maxQueue)
      low := truncate (backpressureLow * maxQueue) }
  workers := { poolSize := workerPool }
where
  /-- `int(value)`. -/
  truncate (value : ℚ) : ℤ :=
    if 0 ≤ value then ⌊value⌋ else ⌈value⌉

variable (engine : SchedulerEngineImpl)

def start : SchedulerEngineImpl :=
  if engine.running then engine else { engine with running := true, paused := false }

def stop : SchedulerEngineImpl :=
  if ¬ engine.running then engine
  else
    { engine with
      running := false
      paused := false
      fifo := engine.fifo.clear
      edf := engine.edf.clear
      fair := engine.fair.clear }

def pause : SchedulerEngineImpl :=
  { engine with paused := true }

def resume : SchedulerEngineImpl :=
  { engine with paused := false }

/-- Pop an entry from the heap, else from the fair queues, else from the priority queues. -/
def selectHybrid (nowMs : ℚ) : Option QueueEntry × SchedulerEngineImpl :=
  match engine.edf.pop with
  | (some entry, edf) => (some entry, { engine with edf })
  | (none, edf) =>
    match engine.fair.popWfq nowMs with
    | (some entry, fair) => (some entry, { engine with edf, fair })
    | (none, fair) =>
      let (entry, fifo) := engine.fifo.pop
      (entry, { engine with edf, fair, fifo })

def select (nowMs : ℚ) : Option QueueEntry × SchedulerEngineImpl :=
  match engine.schedulerPolicy.algorithm with
  | .edf =>
    let (entry, edf) := engine.edf.pop
    (entry, { engine with edf })
  | .fifo =>
    let (entry, fifo) := engine.fifo.pop
    (entry, { engine with fifo })
  | .fair =>
    let (entry, fair) := engine.fair.popWfq nowMs
    (entry, { engine with fair })
  | .wrr =>
    let (entry, fair) := engine.fair.popWrr
    (entry, { engine with fair })
  | .rr =>
    let (entry, fair) := engine.fair.popRr
    (entry, { engine with fair })
  | .priority | .adaptiveHybrid | .other _ => engine.selectHybrid nowMs

def reserve (entry : QueueEntry) (nowMs : ℚ) : DispatchReservation where
  itemId := entry.item.id
  provider := entry.item.provider
  model := entry.item.model
  reservedAt := nowMs
  expiresAt := nowMs + 30000

def dispatch (nowMs : ℚ) (entry : QueueEntry) : DispatchPlan × SchedulerEngineImpl :=
  let (schedule, retry) := engine.retry.plan entry.item.id 3
  let reservation := reserve entry nowMs
  ({ item := entry.item
     priority := entry.priorityLevel
     waitTimeMs := nowMs - entry.enqueuedMs
     retry := schedule
     deadlineMs := entry.deadlineMs
     reservation
     algorithm := engine.schedulerPolicy.algorithm },
    { engine with
      retry
      backpressure := engine.backpressure.update engine.totalDepth
      reservations := engine.reservations.set entry.item.id reservation })

/-- Dispatch the next item. -/
def dequeue (instant : Instant) : Option DispatchPlan × SchedulerEngineImpl :=
  if ¬ engine.running ∨ engine.paused then (none, engine)
  else
    let nowMs := instant.mono * 1000
    let engine := { engine with edf := (engine.edf.expired nowMs).2 }
    let (free, workers) := engine.workers.acquire
    if ¬ free then (none, engine)
    else
      match { engine with workers }.select nowMs with
      | (none, engine) => (none, { engine with workers := engine.workers.release })
      | (some entry, engine) =>
        let (plan, engine) := engine.dispatch nowMs entry
        (some plan, engine)

/-- Remove a waiting item. -/
def cancel (id : Nat) : Bool × SchedulerEngineImpl :=
  match engine.fifo.remove id with
  | (true, fifo) => (true, { engine with fifo })
  | (false, fifo) =>
    match engine.edf.remove id with
    | (true, edf) => (true, { engine with fifo, edf })
    | (false, edf) =>
      let (found, fair) := engine.fair.remove id
      (found, { engine with fifo, edf, fair })

/-- The calls on a scheduler, with the time of those that read the clocks. -/
inductive Call
  | enqueue (instant : Instant) (request : ScheduleRequest)
  | dequeue (instant : Instant)
  | cancel (id : Nat)
  | pause
  | resume
  | start
  | stop

def step : Call → SchedulerEngineImpl
  | .enqueue instant request => (engine.enqueue instant request).2
  | .dequeue instant => (engine.dequeue instant).2
  | .cancel id => (engine.cancel id).2
  | .pause => engine.pause
  | .resume => engine.resume
  | .start => engine.start
  | .stop => engine.stop

/-- The entries of the structures from which `dequeue` pops. -/
def Inspects (entry : QueueEntry) : Prop :=
  match engine.schedulerPolicy.algorithm with
  | .edf => engine.edf.Holds entry
  | .fifo => engine.fifo.Holds entry
  | .fair | .wrr | .rr => engine.fair.Holds entry
  | .priority | .adaptiveHybrid | .other _ => engine.Holds entry

end SchedulerEngineImpl

end AgenticOS.OmniRoute
