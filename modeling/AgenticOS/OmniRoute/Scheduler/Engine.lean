import AgenticOS.OmniRoute.Scheduler.Queues

/-!
# What the calls on the scheduler do

One description for each call: what `dequeue` takes out of the inspected structures, what a
cancellation removes, and where an accepted request is put. All calls keep the counters of
the structures right.
-/

namespace AgenticOS.OmniRoute

open PriorityQueueManager

namespace SchedulerEngineImpl

/-- The counters agree with what the structures hold, under the policy of the source. -/
structure Accounted (engine : SchedulerEngineImpl) : Prop where
  fifo : engine.fifo.Counted
  edf : engine.edf.Dated
  fair : engine.fair.Sound
  size : engine.fifo.maxSize = engine.schedulerPolicy.maxQueueDepth
  rejecting : engine.schedulerPolicy.overflowStrategy = .reject

/-- Two engines that differ in their queues and records only. -/
structure SameSetting (before after : SchedulerEngineImpl) : Prop where
  running : after.running = before.running
  paused : after.paused = before.paused
  policy : after.schedulerPolicy = before.schedulerPolicy
  nextItem : after.nextItem = before.nextItem

variable {engine : SchedulerEngineImpl}

theorem accounted_create (maxQueue workerPool : ℤ) (algorithm : SchedulingAlgorithm)
    (high low : ℚ) : (create maxQueue workerPool algorithm high low).Accounted where
  fifo := by
    rfl
  edf := fun _ impossible => by cases impossible
  fair :=
    { counted := rfl
      tracked := fun _ impossible => by cases impossible
      covered := fun _ impossible => absurd rfl impossible
      inside := .inl rfl }
  size := rfl
  rejecting := rfl

theorem holds_of_inspects {entry : QueueEntry} (inspected : engine.Inspects entry) :
    engine.Holds entry := by
  rw [Inspects] at inspected
  split at inspected
  · exact .inr (.inl inspected)
  · exact .inl inspected
  · exact .inr (.inr inspected)
  · exact .inr (.inr inspected)
  · exact .inr (.inr inspected)
  · exact inspected
  · exact inspected
  · exact inspected

theorem Accounted.nonneg (accounted : engine.Accounted) : 0 ≤ engine.totalDepth := by
  have fifo := accounted.fifo.nonneg
  have fair := accounted.fair.nonneg
  rw [totalDepth]
  omega

def inspected : Container SchedulerEngineImpl where
  holds := Inspects
  total := totalDepth
  sound := Accounted

/-- What a selection does: it takes an inspected entry, or there is none. -/
structure Selects (engine : SchedulerEngineImpl)
    (result : Option QueueEntry × SchedulerEngineImpl) : Prop where
  pops : Pops inspected engine result
  held : ∀ entry, result.2.Holds entry → engine.Holds entry
  setting : SameSetting engine result.2
  workers : result.2.workers = engine.workers
  reservations : result.2.reservations = engine.reservations

theorem inspects_edf (algorithm : engine.schedulerPolicy.algorithm = .edf) :
    engine.Inspects = engine.edf.Holds := by
  funext entry
  rw [Inspects, algorithm]

theorem inspects_fifo (algorithm : engine.schedulerPolicy.algorithm = .fifo) :
    engine.Inspects = engine.fifo.Holds := by
  funext entry
  rw [Inspects, algorithm]

theorem inspects_fair (algorithm : engine.schedulerPolicy.algorithm = .fair ∨
      engine.schedulerPolicy.algorithm = .wrr ∨ engine.schedulerPolicy.algorithm = .rr) :
    engine.Inspects = engine.fair.Holds := by
  funext entry
  rw [Inspects]
  rcases algorithm with is | is | is
  all_goals rw [is]

variable {lost : QueueEntry → Prop} {after : SchedulerEngineImpl}

theorem loses_holds (fifo : Loses engine.fifo.Holds after.fifo.Holds lost)
    (edf : Loses engine.edf.Holds after.edf.Holds lost)
    (fair : Loses engine.fair.Holds after.fair.Holds lost) :
    Loses engine.Holds after.Holds lost where
  subset := by
    intro entry holds
    exact holds.imp (fifo.subset entry) (.imp (edf.subset entry) (fair.subset entry))
  kept := by
    rintro entry (inFifo | inEdf | inFair)
    · exact (fifo.kept entry inFifo).imp_left .inl
    · exact (edf.kept entry inEdf).imp_left fun still => .inr (.inl still)
    · exact (fair.kept entry inFair).imp_left fun still => .inr (.inr still)

theorem loses_inspects (policy : after.schedulerPolicy = engine.schedulerPolicy)
    (fifo : Loses engine.fifo.Holds after.fifo.Holds lost)
    (edf : Loses engine.edf.Holds after.edf.Holds lost)
    (fair : Loses engine.fair.Holds after.fair.Holds lost) :
    Loses engine.Inspects after.Inspects lost := by
  have holds := loses_holds fifo edf fair
  unfold Inspects
  rw [policy]
  cases engine.schedulerPolicy.algorithm with
  | fifo => exact fifo
  | edf => exact edf
  | fair | rr | wrr => exact fair
  | priority | adaptiveHybrid | other => exact holds

variable {entry : Option QueueEntry}

theorem selects_of_loses (accounted : after.Accounted) (setting : SameSetting engine after)
    (workers : after.workers = engine.workers)
    (reservations : after.reservations = engine.reservations)
    (fifo : Loses engine.fifo.Holds after.fifo.Holds fun other => entry = some other)
    (edf : Loses engine.edf.Holds after.edf.Holds fun other => entry = some other)
    (fair : Loses engine.fair.Holds after.fair.Holds fun other => entry = some other)
    (depth : after.totalDepth = engine.totalDepth - if entry.isSome then 1 else 0)
    (found : ∀ other, entry = some other → engine.Inspects other)
    (nothing : entry = none → ∀ other, ¬ engine.Inspects other) :
    engine.Selects (entry, after) where
  pops := by
    have loses := loses_inspects setting.policy fifo edf fair
    cases entry with
    | none =>
      refine ⟨accounted, ?_, fun _ impossible => by cases impossible⟩
      intro _
      refine ⟨nothing rfl, fun other inspects => nothing rfl other (loses.subset other inspects),
        ?_⟩
      exact depth.trans (sub_zero _)
    | some taken =>
      refine ⟨accounted, fun impossible => (by cases impossible), ?_⟩
      rintro other ⟨⟩
      exact ⟨found taken rfl, loses.mono fun same equal => (Option.some.inj equal).symm, depth⟩
  held := (loses_holds fifo edf fair).subset
  setting := setting
  workers := workers
  reservations := reservations

theorem selects_of_pops {σ : Type*} {container : Container σ} {part part' : σ}
    (pops : Pops container part (entry, part')) (accounted : after.Accounted)
    (setting : SameSetting engine after) (workers : after.workers = engine.workers)
    (reservations : after.reservations = engine.reservations)
    (fifo : Loses engine.fifo.Holds after.fifo.Holds fun other => entry = some other)
    (edf : Loses engine.edf.Holds after.edf.Holds fun other => entry = some other)
    (fair : Loses engine.fair.Holds after.fair.Holds fun other => entry = some other)
    (depth : after.totalDepth - container.total part' = engine.totalDepth - container.total part)
    (inspects : engine.Inspects = container.holds part) : engine.Selects (entry, after) := by
  have total := pops.total
  dsimp only at total
  refine selects_of_loses accounted setting workers reservations fifo edf fair ?_ ?_ ?_
  · omega
  · rw [inspects]
    exact fun other popped => (pops.taken other popped).1
  · rw [inspects]
    exact fun none => (pops.empty none).1

theorem selects_edf (accounted : engine.Accounted)
    (algorithm : engine.schedulerPolicy.algorithm = .edf) {edf : EDFQueue}
    (pops : Pops EDFQueue.container engine.edf (entry, edf)) :
    engine.Selects (entry, { engine with edf }) := by
  refine selects_of_pops pops { accounted with edf := pops.sound } ⟨rfl, rfl, rfl, rfl⟩ rfl rfl
    (.refl _) pops.loses (.refl _) ?_ (inspects_edf algorithm)
  simp only [totalDepth, EDFQueue.container]
  ring

theorem selects_fifo (accounted : engine.Accounted)
    (algorithm : engine.schedulerPolicy.algorithm = .fifo) {fifo : PriorityQueueManager}
    (size : fifo.maxSize = engine.fifo.maxSize)
    (pops : Pops PriorityQueueManager.container engine.fifo (entry, fifo)) :
    engine.Selects (entry, { engine with fifo }) := by
  refine selects_of_pops pops
    { accounted with fifo := pops.sound, size := size.trans accounted.size }
    ⟨rfl, rfl, rfl, rfl⟩ rfl rfl pops.loses (.refl _) (.refl _) ?_
    (inspects_fifo algorithm)
  simp only [totalDepth, PriorityQueueManager.container]
  ring

theorem selects_fair (accounted : engine.Accounted)
    (algorithm : engine.schedulerPolicy.algorithm = .fair ∨
      engine.schedulerPolicy.algorithm = .wrr ∨ engine.schedulerPolicy.algorithm = .rr)
    {fair : WeightedFairQueue} (pops : Pops WeightedFairQueue.container engine.fair (entry, fair)) :
    engine.Selects (entry, { engine with fair }) := by
  refine selects_of_pops pops { accounted with fair := pops.sound } ⟨rfl, rfl, rfl, rfl⟩ rfl rfl
    (.refl _) (.refl _) pops.loses ?_ (inspects_fair algorithm)
  simp only [totalDepth, WeightedFairQueue.container]
  ring

theorem loses_of_none {σ : Type*} {container : Container σ} {queue queue' : σ}
    (pops : Pops container queue (none, queue')) :
    Loses (container.holds queue) (container.holds queue') lost :=
  pops.loses.mono fun _ impossible => by cases impossible

theorem selects_selectHybrid (accounted : engine.Accounted) (nowMs : ℚ)
    (inspects : engine.Inspects = engine.Holds) : engine.Selects (engine.selectHybrid nowMs) := by
  have edfPops := EDFQueue.pops_pop accounted.edf
  have fairPops := WeightedFairQueue.pops_popWfq accounted.fair nowMs
  have fifoPops := pops_pop accounted.fifo
  have size := maxSize_pop engine.fifo
  rw [selectHybrid]
  cases fromEdf : engine.edf.pop with
  | mk first edf =>
  rw [fromEdf] at edfPops
  have edfTotal : (edf.heap.size : ℤ) = engine.edf.heap.size - if first.isSome then 1 else 0 :=
    edfPops.total
  cases first with
  | some entry =>
    refine selects_of_loses { accounted with edf := edfPops.sound } ⟨rfl, rfl, rfl, rfl⟩ rfl rfl
      (.refl _) edfPops.loses (.refl _) ?_ ?_ ?_
    · unfold totalDepth
      rw [edfTotal]
      ring
    · rw [inspects]
      exact fun other popped => .inr (.inl (edfPops.taken other popped).1)
    · intro impossible
      cases impossible
  | none =>
    cases fromFair : engine.fair.popWfq nowMs with
    | mk second fair =>
    rw [fromFair] at fairPops
    have fairTotal : fair.total = engine.fair.total - if second.isSome then 1 else 0 :=
      fairPops.total
    have edfEmpty := (edfPops.empty rfl).1
    cases second with
    | some entry =>
      refine selects_of_loses { accounted with edf := edfPops.sound, fair := fairPops.sound }
        ⟨rfl, rfl, rfl, rfl⟩ rfl rfl (.refl _) (loses_of_none edfPops) fairPops.loses
        ?_ ?_ ?_
      · unfold totalDepth
        rw [edfTotal, fairTotal]
        simp
        ring
      · rw [inspects]
        exact fun other popped => .inr (.inr (fairPops.taken other popped).1)
      · intro impossible
        cases impossible
    | none =>
      have fairEmpty := (fairPops.empty rfl).1
      cases fromFifo : engine.fifo.pop with
      | mk third fifo =>
      rw [fromFifo] at fifoPops size
      have fifoTotal : fifo.total = engine.fifo.total - if third.isSome then 1 else 0 :=
        fifoPops.total
      refine selects_of_loses
        ⟨fifoPops.sound, edfPops.sound, fairPops.sound, size.trans accounted.size,
          accounted.rejecting⟩ ⟨rfl, rfl, rfl, rfl⟩ rfl rfl fifoPops.loses
        (loses_of_none edfPops) (loses_of_none fairPops) ?_ ?_ ?_
      · unfold totalDepth
        rw [edfTotal, fairTotal, fifoTotal]
        simp
        ring
      · rw [inspects]
        exact fun other popped => .inl (fifoPops.taken other popped).1
      · rw [inspects]
        rintro none other (inFifo | inEdf | inFair)
        · exact (fifoPops.empty none).1 other inFifo
        · exact edfEmpty other inEdf
        · exact fairEmpty other inFair

theorem inspects_holds (algorithm : engine.schedulerPolicy.algorithm = .priority ∨
      engine.schedulerPolicy.algorithm = .adaptiveHybrid ∨
      ∃ name, engine.schedulerPolicy.algorithm = .other name) : engine.Inspects = engine.Holds := by
  funext entry
  rw [Inspects]
  rcases algorithm with is | is | ⟨name, is⟩
  all_goals rw [is]

theorem selects_select (accounted : engine.Accounted) (nowMs : ℚ) :
    engine.Selects (engine.select nowMs) := by
  rw [select]
  split
  next is => exact selects_edf accounted is (EDFQueue.pops_pop accounted.edf)
  next is =>
    exact selects_fifo accounted is (maxSize_pop engine.fifo) (pops_pop accounted.fifo)
  next is =>
    exact selects_fair accounted (.inl is) (WeightedFairQueue.pops_popWfq accounted.fair nowMs)
  next is =>
    exact selects_fair accounted (.inr (.inl is)) (WeightedFairQueue.pops_popWrr accounted.fair)
  next is =>
    exact selects_fair accounted (.inr (.inr is)) (WeightedFairQueue.pops_popRr accounted.fair)
  next is => exact selects_selectHybrid accounted nowMs (inspects_holds (.inl is))
  next is => exact selects_selectHybrid accounted nowMs (inspects_holds (.inr (.inl is)))
  next name is =>
    exact selects_selectHybrid accounted nowMs (inspects_holds (.inr (.inr ⟨name, is⟩)))

/-! ## Dequeuing -/

/-- The engine after the expired entries have been dropped. -/
def expire (engine : SchedulerEngineImpl) (nowMs : ℚ) : SchedulerEngineImpl :=
  { engine with edf := (engine.edf.expired nowMs).2 }

section

variable (accounted : engine.Accounted) (nowMs : ℚ)
include accounted

theorem accounted_expire : (engine.expire nowMs).Accounted :=
  { accounted with edf := (EDFQueue.expired_loses accounted.edf nowMs).2.1 }

theorem totalDepth_expire_le : (engine.expire nowMs).totalDepth ≤ engine.totalDepth := by
  have smaller := (EDFQueue.expired_loses accounted.edf nowMs).2.2
  change engine.fifo.total + ((engine.edf.expired nowMs).2.heap.size : ℤ) + engine.fair.total ≤
    engine.fifo.total + engine.edf.heap.size + engine.fair.total
  omega

theorem loses_expire : Loses engine.Inspects (engine.expire nowMs).Inspects
      (fun entry => entry.due ≤ (nowMs : WithTop ℚ)) :=
  loses_inspects rfl (Loses.refl _) (EDFQueue.expired_loses accounted.edf nowMs).1 (Loses.refl _)

theorem holds_of_holds_expire {entry : QueueEntry} (holds : (engine.expire nowMs).Holds entry) :
    engine.Holds entry :=
  holds.imp_right (Or.imp_left ((EDFQueue.expired_loses accounted.edf nowMs).1.subset entry))

end

/-- The engine that selects: expired entries are dropped and a worker is taken. -/
def staff (engine : SchedulerEngineImpl) (nowMs : ℚ) : SchedulerEngineImpl :=
  { engine.expire nowMs with
    workers := { engine.workers with acquired := engine.workers.acquired + 1 } }

@[simp] theorem workers_staff (nowMs : ℚ) : (engine.staff nowMs).workers =
    { engine.workers with acquired := engine.workers.acquired + 1 } :=
  rfl

theorem selects_staff (accounted : engine.Accounted) (nowMs : ℚ) :
    (engine.staff nowMs).Selects ((engine.staff nowMs).select nowMs) := by
  have expired : (engine.staff nowMs).Accounted := { accounted_expire accounted nowMs with }
  exact selects_select expired nowMs

/-- What a dequeue does: it drops expired entries and dispatches one of the others, and
keeps a worker for a dispatched one. -/
structure Dequeues (engine : SchedulerEngineImpl) (nowMs : ℚ)
    (result : Option DispatchPlan × SchedulerEngineImpl) : Prop where
  accounted : result.2.Accounted
  setting : SameSetting engine result.2
  poolSize : result.2.workers.poolSize = engine.workers.poolSize
  acquired : 0 ≤ engine.workers.acquired → result.2.workers.acquired =
    engine.workers.acquired + if result.1.isSome then 1 else 0
  held : ∀ entry, result.2.Holds entry → engine.Holds entry
  loses : Loses engine.Inspects result.2.Inspects fun entry =>
    entry.due ≤ (nowMs : WithTop ℚ) ∨ ∃ plan, result.1 = some plan ∧ plan.item = entry.item
  depth : result.2.totalDepth ≤ engine.totalDepth - if result.1.isSome then 1 else 0

/-- The cases of a dequeue: the scheduler does not work, no worker is free, no entry is
left, or an entry is dispatched. -/
theorem dequeue_cases (engine : SchedulerEngineImpl) (instant : Instant) :
    ((¬ engine.running ∨ engine.paused) ∧ engine.dequeue instant = (none, engine)) ∨
    (engine.running ∧ ¬ engine.paused ∧ engine.workers.poolSize ≤ engine.workers.acquired ∧
      engine.dequeue instant = (none, engine.expire (instant.mono * 1000))) ∨
    ∃ selected, (engine.running ∧ ¬ engine.paused ∧
      engine.workers.acquired < engine.workers.poolSize ∧
      (engine.staff (instant.mono * 1000)).select (instant.mono * 1000) = selected) ∧
      ((selected.1 = none ∧ engine.dequeue instant =
          (none, { selected.2 with workers := selected.2.workers.release })) ∨
        ∃ entry, selected.1 = some entry ∧ engine.dequeue instant =
          (some (selected.2.dispatch (instant.mono * 1000) entry).1,
            (selected.2.dispatch (instant.mono * 1000) entry).2)) := by
  by_cases idle : ¬ engine.running ∨ engine.paused
  · refine .inl ⟨idle, ?_⟩
    rw [dequeue, if_pos idle]
  · have working := not_or.mp idle
    have running : engine.running := not_not.mp working.1
    right
    by_cases free : engine.workers.acquired + 1 ≤ engine.workers.poolSize
    · right
      refine ⟨_, ⟨running, working.2, by omega, rfl⟩, ?_⟩
      have acquired : engine.workers.acquire =
          (true, { engine.workers with acquired := engine.workers.acquired + 1 }) := if_pos free
      cases selected : (engine.staff (instant.mono * 1000)).select (instant.mono * 1000) with
      | mk entry after =>
        rw [staff, expire] at selected
        rw [dequeue, if_neg idle]
        dsimp only
        rw [acquired]
        dsimp only
        rw [if_neg (by decide), selected]
        cases entry with
        | none => exact .inl ⟨rfl, rfl⟩
        | some entry => exact .inr ⟨entry, rfl, rfl⟩
    · left
      refine ⟨running, working.2, by omega, ?_⟩
      have refused : engine.workers.acquire = (false, engine.workers) := if_neg free
      rw [dequeue, if_neg idle]
      dsimp only
      rw [refused]
      rfl

theorem Selects.dequeues {nowMs : ℚ} {left : SchedulerEngineImpl}
    (chosen : (engine.staff nowMs).Selects (entry, left)) (accounted : engine.Accounted)
    {plan : Option DispatchPlan}
    (planned : plan.map DispatchPlan.item = entry.map QueueEntry.item) (workers : WorkerAllocator)
    (retry : RetryPlanner) (backpressure : BackPressureManager)
    (reservations : Dict Nat DispatchReservation)
    (poolSize : workers.poolSize = engine.workers.poolSize)
    (acquired : 0 ≤ engine.workers.acquired →
      workers.acquired = engine.workers.acquired + if plan.isSome then 1 else 0) :
    Dequeues engine nowMs (plan, { left with workers, retry, backpressure, reservations }) where
  accounted := { chosen.pops.sound with }
  setting := ⟨chosen.setting.running, chosen.setting.paused, chosen.setting.policy,
    chosen.setting.nextItem⟩
  poolSize := poolSize
  acquired := acquired
  held other holds := holds_of_holds_expire accounted nowMs (chosen.held other holds)
  loses := by
    apply ((loses_expire accounted nowMs).mono fun other due => .inl due).trans
    apply chosen.pops.loses.mono
    rintro other rfl
    obtain ⟨made, isPlan, sameItem⟩ := Option.map_eq_some_iff.mp planned
    exact .inr ⟨made, isPlan, sameItem⟩
  depth := by
    have smaller := totalDepth_expire_le accounted nowMs
    have counted : left.totalDepth = (engine.expire nowMs).totalDepth -
        if entry.isSome then 1 else 0 := chosen.pops.total
    have asMany : plan.isSome = entry.isSome := by simpa using congrArg Option.isSome planned
    change left.totalDepth ≤ engine.totalDepth - if plan.isSome then 1 else 0
    rw [asMany]
    omega

theorem dequeues_dequeue (accounted : engine.Accounted) (instant : Instant) :
    Dequeues engine (instant.mono * 1000) (engine.dequeue instant) := by
  rcases dequeue_cases engine instant with
    ⟨-, same⟩ | ⟨-, -, -, same⟩ | ⟨⟨entry, left⟩, ⟨-, -, -, selects⟩, outcome⟩
  · rw [same]
    exact ⟨accounted, ⟨rfl, rfl, rfl, rfl⟩, rfl, fun _ => (add_zero _).symm, fun _ => id,
      .refl _, (sub_zero _).ge⟩
  · rw [same]
    refine ⟨accounted_expire accounted (instant.mono * 1000), ⟨rfl, rfl, rfl, rfl⟩, rfl,
      fun _ => (add_zero _).symm,
      fun _ => holds_of_holds_expire accounted (instant.mono * 1000),
      (loses_expire accounted (instant.mono * 1000)).mono fun entry due => .inl due, ?_⟩
    exact (totalDepth_expire_le accounted (instant.mono * 1000)).trans (sub_zero _).ge
  · have chosen := selects_staff accounted (instant.mono * 1000)
    rw [selects] at chosen
    have staffed : left.workers =
        { engine.workers with acquired := engine.workers.acquired + 1 } :=
      chosen.workers.trans (workers_staff _)
    rcases outcome with ⟨nothing, same⟩ | ⟨taken, found, same⟩
    · rw [same]
      obtain rfl : entry = none := nothing
      refine chosen.dequeues accounted rfl _ _ _ _ ?_ ?_
      · rw [staffed]
        rfl
      · intro nonneg
        rw [staffed]
        change max 0 (engine.workers.acquired + 1 - 1) = _
        simp [nonneg]
    · rw [same]
      obtain rfl : entry = some taken := found
      refine chosen.dequeues accounted rfl _ _ _ _ ?_ ?_
      · rw [staffed]
      · rw [staffed]
        exact fun _ => rfl

variable {instant : Instant}

section

variable (accounted : engine.Accounted) (running : engine.running) (unpaused : ¬ engine.paused)
  (free : engine.workers.acquired < engine.workers.poolSize) {entry : QueueEntry}
include accounted running unpaused free

theorem isSome_dequeue_of_waits (waits : (engine.staff (instant.mono * 1000)).Inspects entry) :
    (engine.dequeue instant).1.isSome := by
  rcases dequeue_cases engine instant with
    ⟨idle, -⟩ | ⟨-, -, busy, -⟩ | ⟨selected, ⟨-, -, -, selects⟩, outcome⟩
  · rcases idle with stopped | paused
    · exact absurd running stopped
    · exact absurd paused unpaused
  · omega
  · rcases outcome with ⟨none, -⟩ | ⟨taken, -, same⟩
    · have chosen := selects_staff accounted (instant.mono * 1000)
      rw [selects] at chosen
      exact absurd waits ((chosen.pops.empty none).1 entry)
    · rw [same]
      rfl

theorem isSome_dequeue_of_free (waiting : engine.Inspects entry)
    (current : ¬ entry.due ≤ ((instant.mono * 1000 : ℚ) : WithTop ℚ)) :
    (engine.dequeue instant).1.isSome := by
  have dropped := loses_expire accounted (instant.mono * 1000)
  exact isSome_dequeue_of_waits accounted running unpaused free
    ((dropped.kept entry waiting).resolve_right current)

end

theorem dequeue_eq_none_of_busy (busy : engine.workers.poolSize ≤ engine.workers.acquired) :
    (engine.dequeue instant).1 = none := by
  rcases dequeue_cases engine instant with
    ⟨-, same⟩ | ⟨-, -, -, same⟩ | ⟨selected, ⟨-, -, free, -⟩, -⟩
  · rw [same]
  · rw [same]
  · omega

/-! ## Cancelling -/

/-- What a call does that touches the queues only: it loses certain entries. -/
structure Removes (engine : SchedulerEngineImpl) (after : SchedulerEngineImpl)
    (lost : QueueEntry → Prop) : Prop where
  accounted : after.Accounted
  setting : SameSetting engine after
  workers : after.workers = engine.workers
  inspected : Loses engine.Inspects after.Inspects lost
  held : Loses engine.Holds after.Holds lost

theorem removes_of_loses (accounted : after.Accounted) (setting : SameSetting engine after)
    (workers : after.workers = engine.workers)
    (fifo : Loses engine.fifo.Holds after.fifo.Holds lost)
    (edf : Loses engine.edf.Holds after.edf.Holds lost)
    (fair : Loses engine.fair.Holds after.fair.Holds lost) : Removes engine after lost :=
  ⟨accounted, setting, workers, loses_inspects setting.policy fifo edf fair,
    loses_holds fifo edf fair⟩

theorem removes_cancel (accounted : engine.Accounted) (id : Nat) :
    Removes engine (engine.cancel id).2
      (fun entry => (engine.cancel id).1 = true ∧ entry.item.id = id) := by
  rw [cancel]
  rcases removeFrom_cases engine.fifo id PriorityLevel.all with
    kept | ⟨level, found, removed⟩
  · have fifo : engine.fifo.remove id = (false, engine.fifo) := kept
    rw [fifo]
    have edfLoses := EDFQueue.remove_loses engine.edf id
    have dated := accounted.edf.remove id
    cases fromEdf : engine.edf.remove id with
    | mk found edf =>
    rw [fromEdf] at edfLoses dated
    cases found with
    | true =>
      have loses : Loses engine.edf.Holds edf.Holds
          (fun entry => true = true ∧ entry.item.id = id) :=
        edfLoses.mono fun entry gone => ⟨rfl, gone.2⟩
      exact removes_of_loses { accounted with edf := dated } ⟨rfl, rfl, rfl, rfl⟩ rfl
        (.refl _) loses (.refl _)
    | false =>
      have unchanged : ∀ lost, Loses engine.edf.Holds edf.Holds lost := fun lost =>
        edfLoses.mono fun entry gone => absurd gone.1 Bool.false_ne_true
      rcases WeightedFairQueue.remove_cases engine.fair id with
        missing | ⟨group, found, removed⟩
      · rw [missing]
        exact removes_of_loses { accounted with edf := dated } ⟨rfl, rfl, rfl, rfl⟩ rfl
          (.refl _) (unchanged _) (.refl _)
      · rw [removed]
        rcases eraseP_item found with ⟨length, subset, others⟩
        have loses : Loses engine.fair.Holds
            (engine.fair.shorten group
              ((engine.fair.queueOf group).eraseP fun entry => entry.item.id = id)).Holds
            (fun entry => true = true ∧ entry.item.id = id) :=
          WeightedFairQueue.loses_shorten subset fun entry member =>
            (others entry member).imp_right fun same => ⟨rfl, same⟩
        exact removes_of_loses
          { accounted with edf := dated, fair := accounted.fair.shorten length }
          ⟨rfl, rfl, rfl, rfl⟩ rfl (.refl _) (unchanged _) loses
  · have fifo : engine.fifo.remove id = _ := removed
    rw [fifo]
    rcases eraseP_item found with ⟨length, subset, others⟩
    have loses : Loses engine.fifo.Holds
        (engine.fifo.shorten level
          ((engine.fifo.queues level).eraseP fun entry => entry.item.id = id)).Holds
        (fun entry => true = true ∧ entry.item.id = id) :=
      loses_shorten subset fun entry member =>
        (others entry member).imp_right fun same => ⟨rfl, same⟩
    exact removes_of_loses
      { accounted with fifo := accounted.fifo.shorten length, size := accounted.size }
      ⟨rfl, rfl, rfl, rfl⟩ rfl loses (.refl _) (.refl _)

/-- An entry for the request is put into an inspected structure. The round robin policies
inspect the queues by group only, yet a deadline leads into the heap. -/
def Fits (engine : SchedulerEngineImpl) (request : ScheduleRequest) : Prop :=
  engine.schedulerPolicy.algorithm = .rr ∨ engine.schedulerPolicy.algorithm = .wrr →
    request.deadlineS = none ∧ request.group ≠ ""
deriving Decidable

theorem place_cases (engine : SchedulerEngineImpl) (request : ScheduleRequest)
    (added : QueueEntry) :
    engine.place request added =
        ((engine.fifo.push added).1, { engine with fifo := (engine.fifo.push added).2 }) ∨
      engine.place request added = (true, { engine with edf := engine.edf.push added }) ∨
      engine.place request added =
        (true, { engine with fair := engine.fair.push request.group added }) := by
  rw [place]
  split
  · exact .inr (.inl rfl)
  · exact .inr (.inr rfl)
  · exact .inl rfl
  · exact .inl rfl
  all_goals
    split
    · exact .inr (.inl rfl)
    · split
      · exact .inr (.inr rfl)
      · exact .inl rfl

theorem maxSize_push (manager : PriorityQueueManager) (entry : QueueEntry) :
    (manager.push entry).2.maxSize = manager.maxSize := by
  rw [push]
  split
  · rfl
  · rfl

theorem accounted_place (accounted : engine.Accounted) (request : ScheduleRequest)
    (added : QueueEntry) : (engine.place request added).2.Accounted := by
  rcases place_cases engine request added with same | same | same
  · rw [same]
    exact { accounted with
      fifo := accounted.fifo.push added
      size := (maxSize_push engine.fifo added).trans accounted.size }
  · rw [same]
    exact { accounted with edf := accounted.edf.push added }
  · rw [same]
    exact { accounted with fair := accounted.fair.push request.group added }

theorem sameSetting_place (engine : SchedulerEngineImpl) (request : ScheduleRequest)
    (added : QueueEntry) : SameSetting engine (engine.place request added).2 ∧
      (engine.place request added).2.workers = engine.workers ∧
      (engine.place request added).2.reservations = engine.reservations := by
  rcases place_cases engine request added with same | same | same
  all_goals
    rw [same]
    exact ⟨⟨rfl, rfl, rfl, rfl⟩, rfl, rfl⟩

variable {request : ScheduleRequest}

theorem inspects_place {added entry : QueueEntry} :
    (engine.place request added).2.Inspects entry ↔ engine.Inspects entry ∨
      ((engine.place request added).1 ∧ engine.Fits request ∧ entry = added) := by
  have holds := @holds_place engine request added entry
  have policy := (sameSetting_place engine request added).1.policy
  unfold Inspects Fits
  rw [policy]
  cases algorithm : engine.schedulerPolicy.algorithm with
  | edf => simp [place, algorithm, EDFQueue.holds_push]
  | fifo => simp [place, algorithm, holds_push]
  | fair => simp [place, algorithm, WeightedFairQueue.holds_push]
  | rr | wrr =>
    unfold place
    rw [algorithm]
    cases deadline : request.deadlineS with
    | some seconds => simp
    | none =>
      by_cases group : request.group = ""
      · simp [group]
      · simp [group, WeightedFairQueue.holds_push]
  | priority | adaptiveHybrid | other => simpa using holds

theorem of_place_refused {added : QueueEntry} (refused : (engine.place request added).1 = false) :
    engine.fifo.maxSize ≤ engine.fifo.total ∧
      (engine.schedulerPolicy.algorithm = .fifo ∨ engine.schedulerPolicy.algorithm = .priority ∨
        engine.schedulerPolicy.algorithm ≠ .edf ∧ engine.schedulerPolicy.algorithm ≠ .fair ∧
          request.deadlineS = none ∧ request.group = "") := by
  constructor
  · rcases place_cases engine request added with same | same | same
    · rw [same] at refused
      rw [push] at refused
      by_contra room
      rw [if_neg room] at refused
      cases refused
    · rw [same] at refused
      cases refused
    · rw [same] at refused
      cases refused
  · rw [place] at refused
    cases algorithm : engine.schedulerPolicy.algorithm with
    | fifo => exact .inl rfl
    | priority => exact .inr (.inl rfl)
    | edf | fair =>
      rw [algorithm] at refused
      cases refused
    | rr | wrr | adaptiveHybrid | other =>
      right
      right
      rw [algorithm] at refused
      cases deadline : request.deadlineS with
      | some seconds =>
        rw [deadline] at refused
        cases refused
      | none =>
        by_cases group : request.group = ""
        · exact ⟨by simp, by simp, rfl, group⟩
        · simp [deadline, group] at refused

theorem affinity_of_group (group : request.group = "") : request.affinity = "" := by
  rw [ScheduleRequest.group] at group
  split at group
  · assumption
  · exact group

/-- What an enqueue does: it adds at most its own entry, which is held where the request is
reported as queued. -/
structure Enqueues (engine : SchedulerEngineImpl) (instant : Instant)
    (request : ScheduleRequest) (result : SchedulingDecision × SchedulerEngineImpl) : Prop where
  accounted : result.2.Accounted
  running : result.2.running = engine.running
  paused : result.2.paused = engine.paused
  policy : result.2.schedulerPolicy = engine.schedulerPolicy
  workers : result.2.workers = engine.workers
  reservations : result.2.reservations = engine.reservations
  nextItem : engine.nextItem ≤ result.2.nextItem
  drawn : result.1.queued → engine.nextItem < result.2.nextItem
  inspected : ∀ entry, result.2.Inspects entry ↔ engine.Inspects entry ∨
    (result.1.queued ∧ engine.Fits request ∧ entry = request.entry engine.nextItem instant)
  held : ∀ entry, result.2.Holds entry → engine.Holds entry ∨
    (result.1.queued ∧ entry = request.entry engine.nextItem instant)

section

variable (accounted : engine.Accounted) (instant : Instant) (request : ScheduleRequest)
include accounted

/-- A running scheduler that is not paused puts the request in its place, unless a queue of
the priority policies is full. -/
theorem enqueue_cases :
    ((¬ engine.running ∨ engine.paused) ∧
      (engine.enqueue instant request).1.queued = false ∧
      (engine.enqueue instant request).2 = engine) ∨
    (engine.running ∧ ¬ engine.paused) ∧ ∃ drawn : SchedulerEngineImpl,
      (drawn = { engine with
        nextItem := engine.nextItem + 1
        backpressure := engine.backpressure.update engine.totalDepth }) ∧
      (((engine.schedulerPolicy.algorithm = .fifo ∨ engine.schedulerPolicy.algorithm = .priority) ∧
          (engine.enqueue instant request).1.queued = false ∧
          (engine.enqueue instant request).2 = drawn) ∨
        ∃ placed, drawn.place request (request.entry engine.nextItem instant) = placed ∧
          (engine.enqueue instant request).1.queued = placed.1 ∧
          ∃ balancer, (engine.enqueue instant request).2 = { placed.2 with balancer }) := by
  by_cases idle : ¬ engine.running ∨ engine.paused
  · refine .inl ⟨idle, ?_⟩
    rw [enqueue]
    by_cases stopped : ¬ engine.running
    · rw [if_pos stopped]
      exact ⟨rfl, rfl⟩
    · rw [if_neg stopped, if_pos (idle.resolve_left stopped)]
      exact ⟨rfl, rfl⟩
  · have working := not_or.mp idle
    refine .inr ⟨⟨not_not.mp working.1, working.2⟩, _, rfl, ?_⟩
    rw [enqueue, if_neg working.1, if_neg working.2]
    dsimp only
    split
    next full => exact .inl ⟨full.2.1, rfl, rfl⟩
    next roomy =>
      right
      refine ⟨_, rfl, ?_⟩
      cases placed : ({ engine with
          nextItem := engine.nextItem + 1
          backpressure := engine.backpressure.update engine.totalDepth } :
          SchedulerEngineImpl).place request (request.entry engine.nextItem instant) with
      | mk queued after =>
      cases queued with
      | true => exact ⟨rfl, _, rfl⟩
      | false =>
        -- An affinity does not excuse a refusal: the depth was checked before.
        have refused := of_place_refused (congrArg Prod.fst placed)
        have fair := accounted.fair.nonneg
        have size := accounted.size
        have full : engine.schedulerPolicy.maxQueueDepth ≤ engine.totalDepth := by
          have fullFifo : engine.fifo.maxSize ≤ engine.fifo.total := refused.1
          rw [totalDepth]
          omega
        have unexcused : ¬ ((engine.schedulerPolicy.algorithm = .edf ∨
            engine.schedulerPolicy.algorithm = .fair) ∧
              request.deadlineS.any (fun seconds => seconds ≠ 0) ∨ request.affinity ≠ "") := by
          rcases refused.2 with is | is | ⟨notEdf, notFair, -, group⟩
          · exact absurd ⟨full, .inl is, accounted.rejecting⟩ roomy
          · exact absurd ⟨full, .inr is, accounted.rejecting⟩ roomy
          · rintro (⟨is | is, -⟩ | named)
            · exact notEdf is
            · exact notFair is
            · exact named (affinity_of_group group)
        simp only [unexcused]
        exact ⟨rfl, _, rfl⟩

theorem enqueues_enqueue : Enqueues engine instant request (engine.enqueue instant request) := by
  have held := fun entry => (holds_schedule engine instant request entry).2
  rcases enqueue_cases accounted instant request with ⟨-, refused, same⟩ | ⟨-, drawn, rfl, outcome⟩
  · refine ⟨?_, ?_, ?_, ?_, ?_, ?_, ?_, ?_, ?_, held⟩
    all_goals rw [same]
    · exact accounted
    · simp [refused]
    · simp [refused]
  · rcases outcome with ⟨-, refused, same⟩ | ⟨placed, rfl, queued, balancer, same⟩
    · refine ⟨?_, ?_, ?_, ?_, ?_, ?_, ?_, ?_, ?_, held⟩
      all_goals rw [same]
      · exact { accounted with }
      · exact Nat.le_succ _
      · simp [refused]
      · intro entry
        rw [refused]
        exact ⟨.inl, fun inspects => inspects.resolve_right fun added =>
          absurd added.1 Bool.false_ne_true⟩
    · have drawn : ({ engine with
          nextItem := engine.nextItem + 1
          backpressure := engine.backpressure.update engine.totalDepth } :
          SchedulerEngineImpl).Accounted := { accounted with }
      have settled := accounted_place drawn request (request.entry engine.nextItem instant)
      rcases sameSetting_place { engine with
          nextItem := engine.nextItem + 1
          backpressure := engine.backpressure.update engine.totalDepth } request
          (request.entry engine.nextItem instant) with ⟨setting, workers, reservations⟩
      refine ⟨?_, ?_, ?_, ?_, ?_, ?_, ?_, ?_, ?_, held⟩
      all_goals rw [same]
      · exact { settled with }
      · exact setting.running
      · exact setting.paused
      · exact setting.policy
      · exact workers
      · exact reservations
      · exact (Nat.le_succ _).trans setting.nextItem.ge
      · exact fun _ => (Nat.lt_succ_self _).trans_le setting.nextItem.ge
      · intro entry
        rw [queued]
        exact inspects_place

end

theorem queued_enqueue_iff (accounted : engine.Accounted) (running : engine.running)
    (unpaused : ¬ engine.paused)
    (robin : engine.schedulerPolicy.algorithm = .rr ∨ engine.schedulerPolicy.algorithm = .wrr) :
    (engine.enqueue instant request).1.queued = true ↔
      ¬ (request.deadlineS = none ∧ request.group = "" ∧
        engine.fifo.maxSize ≤ engine.fifo.total) := by
  rcases enqueue_cases accounted instant request with ⟨idle, -, -⟩ | ⟨-, drawn, rfl, outcome⟩
  · rcases idle with stopped | paused
    · exact absurd running stopped
    · exact absurd paused unpaused
  · rcases outcome with ⟨isFifo, -, -⟩ | ⟨placed, rfl, queued, -⟩
    · rcases robin with is | is
      all_goals
        rw [is] at isFifo
        simp at isFifo
    · rw [queued]
      constructor
      · rintro accepted ⟨deadline, group, full⟩
        rw [place, push] at accepted
        rcases robin with is | is
        all_goals simp [is, deadline, group, full] at accepted
      · intro room
        by_contra refused
        rcases of_place_refused (Bool.eq_false_iff.mpr refused) with
          ⟨full, is | is | ⟨-, -, deadline, group⟩⟩
        · rcases robin with robin | robin
          all_goals exact absurd (robin.symm.trans is) (by decide)
        · rcases robin with robin | robin
          all_goals exact absurd (robin.symm.trans is) (by decide)
        · exact room ⟨deadline, group, full⟩

/-! ## The other calls -/

section

variable (accounted : engine.Accounted)
include accounted

theorem accounted_start : engine.start.Accounted := by
  rw [start]
  split
  · exact accounted
  · exact { accounted with }

theorem accounted_pause : engine.pause.Accounted :=
  { accounted with }

theorem accounted_resume : engine.resume.Accounted :=
  { accounted with }

theorem accounted_stop : engine.stop.Accounted := by
  rw [stop]
  split
  · exact accounted
  · refine ⟨rfl, ?_, WeightedFairQueue.sound_clear engine.fair, accounted.size, accounted.rejecting⟩
    intro slot impossible
    cases impossible

end

theorem inspects_start (engine : SchedulerEngineImpl) :
    engine.start.Inspects = engine.Inspects ∧ engine.start.Holds = engine.Holds := by
  rw [start]
  split
  · exact ⟨rfl, rfl⟩
  · exact ⟨rfl, rfl⟩

theorem not_holds_stop (running : engine.running) (entry : QueueEntry) :
    ¬ engine.stop.Holds entry := by
  rw [stop, if_neg (not_not.mpr running)]
  rintro (⟨level, impossible⟩ | ⟨slot, impossible, -⟩ | ⟨group, entries, impossible, -⟩)
  · exact List.not_mem_nil impossible
  · exact List.not_mem_nil impossible
  · cases impossible

theorem step_accounted (accounted : engine.Accounted) (call : Call) :
    (engine.step call).Accounted := by
  cases call with
  | enqueue instant request => exact (enqueues_enqueue accounted instant request).accounted
  | dequeue instant => exact (dequeues_dequeue accounted instant).accounted
  | cancel id => exact (removes_cancel accounted id).accounted
  | pause => exact accounted_pause accounted
  | resume => exact accounted_resume accounted
  | start => exact accounted_start accounted
  | stop => exact accounted_stop accounted

end SchedulerEngineImpl

end AgenticOS.OmniRoute
