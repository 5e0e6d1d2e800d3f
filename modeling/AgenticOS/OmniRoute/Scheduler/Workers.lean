import AgenticOS.OmniRoute.Scheduler.Engine

/-!
# The workers of the scheduler

A dispatch takes a worker, and no call gives it back: the workers in use are the requests
dispatched since the scheduler was created. Reservations expire, workers do not.
-/

namespace AgenticOS.OmniRoute

open AgenticOS.Transition

namespace SchedulerEngineImpl

variable {engine : SchedulerEngineImpl}

def live (engine : SchedulerEngineImpl) (nowMs : ℚ) : List DispatchReservation :=
  engine.reservations.values.filter fun reservation =>
    reservation.reservedAt ≤ nowMs ∧ nowMs < reservation.expiresAt

/-- The scheduler works, there is something to dispatch, and fewer reservations are live
than it has workers. -/
structure Ready (engine : SchedulerEngineImpl) (instant : Instant) : Prop where
  running : engine.running
  unpaused : ¬ engine.paused
  waiting : ∃ entry, engine.Inspects entry ∧ ¬ entry.due ≤ ((instant.mono * 1000 : ℚ) : WithTop ℚ)
  unreserved : ((engine.live (instant.mono * 1000)).length : ℤ) < engine.workers.poolSize

structure Tally where
  engine : SchedulerEngineImpl
  dispatched : ℤ := 0

namespace Tally

def step (tally : Tally) (call : Call) : Tally where
  engine := tally.engine.step call
  dispatched :=
    match call with
    | .dequeue instant =>
      tally.dispatched + if (tally.engine.dequeue instant).1.isSome then 1 else 0
    | _ => tally.dispatched

/-- A ready scheduler answers a dequeue with a plan. -/
def Dispatches (tally : Tally) : Call → Prop
  | .dequeue instant => tally.engine.Ready instant → (tally.engine.dequeue instant).1.isSome
  | _ => True

/-- When a ready scheduler is asked for a request, it has dispatched fewer requests than it
has workers. -/
def Staffed (tally : Tally) : Call → Prop
  | .dequeue instant =>
    tally.engine.Ready instant → tally.dispatched < tally.engine.workers.poolSize
  | _ => True

structure Sound (tally : Tally) : Prop where
  accounted : tally.engine.Accounted
  nonneg : 0 ≤ tally.dispatched
  acquired : tally.engine.workers.acquired = tally.dispatched

variable {tally : Tally}

theorem workers_stop (engine : SchedulerEngineImpl) : engine.stop.workers = engine.workers := by
  unfold SchedulerEngineImpl.stop
  split
  · rfl
  · rfl

theorem workers_start (engine : SchedulerEngineImpl) : engine.start.workers = engine.workers := by
  unfold SchedulerEngineImpl.start
  split
  · rfl
  · rfl

theorem workers_step (accounted : engine.Accounted) {call : Call}
    (other : ∀ instant, call ≠ .dequeue instant) : (engine.step call).workers = engine.workers := by
  cases call with
  | enqueue instant request => exact (enqueues_enqueue accounted instant request).workers
  | dequeue instant => exact absurd rfl (other instant)
  | cancel id => exact (removes_cancel accounted id).workers
  | pause | resume => rfl
  | start => exact workers_start engine
  | stop => exact workers_stop engine

theorem Sound.step (sound : tally.Sound) (call : Call) : (tally.step call).Sound := by
  have accounted := step_accounted sound.accounted call
  cases call with
  | dequeue instant =>
    have dequeues := dequeues_dequeue sound.accounted instant
    have acquired := dequeues.acquired (sound.acquired.symm ▸ sound.nonneg)
    refine ⟨accounted, ?_, ?_⟩
    · have nonneg := sound.nonneg
      unfold Tally.step
      dsimp only
      split
      · omega
      · omega
    · exact acquired.trans (congrArg (· + _) sound.acquired)
  | enqueue | cancel | pause | resume | start | stop =>
    refine ⟨accounted, sound.nonneg, ?_⟩
    exact (congrArg _ (workers_step sound.accounted (by simp))).trans sound.acquired

theorem isSome_dequeue_iff (sound : tally.Sound) {instant : Instant}
    (ready : tally.engine.Ready instant) : (tally.engine.dequeue instant).1.isSome ↔
      tally.dispatched < tally.engine.workers.poolSize := by
  rw [← sound.acquired]
  constructor
  · intro found
    by_contra busy
    rw [dequeue_eq_none_of_busy (not_lt.mp busy)] at found
    cases found
  · intro free
    rcases ready.waiting with ⟨entry, waiting, current⟩
    exact isSome_dequeue_of_free sound.accounted ready.running ready.unpaused free waiting current

theorem dispatches_iff_staffed (sound : tally.Sound) (call : Call) :
    tally.Dispatches call ↔ tally.Staffed call := by
  cases call with
  | dequeue instant => exact forall_congr' fun ready => isSome_dequeue_iff sound ready
  | enqueue | cancel | pause | resume | start | stop => exact Iff.rfl

/-- A new scheduler that has dispatched nothing. -/
def create (maxQueue workerPool : ℤ) (algorithm : SchedulingAlgorithm) (high low : ℚ) : Tally where
  engine := SchedulerEngineImpl.create maxQueue workerPool algorithm high low

theorem sound_create (maxQueue workerPool : ℤ) (algorithm : SchedulingAlgorithm)
    (high low : ℚ) : (create maxQueue workerPool algorithm high low).Sound :=
  ⟨accounted_create maxQueue workerPool algorithm high low, le_refl _, rfl⟩

/-- In every run of a scheduler, each dequeue of a ready scheduler returns a plan exactly if
each comes before the workers are used up. -/
theorem along_dispatches_iff (maxQueue workerPool : ℤ) (algorithm : SchedulingAlgorithm)
    (high low : ℚ) (calls : List Call) :
    Along step Dispatches (create maxQueue workerPool algorithm high low) calls ↔
      Along step Staffed (create maxQueue workerPool algorithm high low) calls := by
  have sound := sound_create maxQueue workerPool algorithm high low
  constructor
  · intro along
    exact along.imp_of_invariant (fun tally call sound _ => sound.step call)
      (fun tally call sound => (dispatches_iff_staffed sound call).mp) sound
  · intro along
    exact along.imp_of_invariant (fun tally call sound _ => sound.step call)
      (fun tally call sound => (dispatches_iff_staffed sound call).mpr) sound

/-- A request of provider `p`. -/
def sampleRequest : ScheduleRequest where
  provider := "p"
  model := "m"

/-- The only worker is still taken a minute after the dispatch, when no reservation is live. -/
theorem worker_is_kept :
    let calls : List Call :=
      [.start, .enqueue ⟨0, 0⟩ sampleRequest, .dequeue ⟨0, 0⟩, .enqueue ⟨60, 60⟩ sampleRequest]
    let tally := run step (create 500 1 .adaptiveHybrid (9 / 10) (1 / 2)) calls
    tally.engine.Ready ⟨60, 60⟩ ∧ tally.engine.live 60000 = [] ∧
      (tally.engine.dequeue ⟨60, 60⟩).1 = none ∧
      ¬ Along step Dispatches (create 500 1 .adaptiveHybrid (9 / 10) (1 / 2))
        (calls ++ [.dequeue ⟨60, 60⟩]) := by
  intro calls tally
  have waiting : tally.engine.Inspects (sampleRequest.entry 1 ⟨60, 60⟩) := by
    refine .inr (.inr ⟨"p", [sampleRequest.entry 1 ⟨60, 60⟩], ?_, List.mem_cons_self⟩)
    decide +kernel
  have current : ¬ (sampleRequest.entry 1 ⟨60, 60⟩).due ≤ ((60 * 1000 : ℚ) : WithTop ℚ) := by
    decide +kernel
  have ready : tally.engine.Ready ⟨60, 60⟩ :=
    ⟨by decide +kernel, by decide +kernel, ⟨_, waiting, current⟩, by decide +kernel⟩
  have nothing : (tally.engine.dequeue ⟨60, 60⟩).1 = none := by decide +kernel
  refine ⟨ready, by decide +kernel, nothing, ?_⟩
  intro along
  have found := along.at ready
  cases found

end Tally

end SchedulerEngineImpl

end AgenticOS.OmniRoute
