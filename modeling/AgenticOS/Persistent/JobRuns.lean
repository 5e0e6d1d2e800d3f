import AgenticOS.Persistent.Persistence
import AgenticOS.Transition.Pool
import AgenticOS.Transition.Run

/-!
# The runs of a scheduled job

The tasks of one job of a scheduler that is started. `_execute_job` catches what a handler
raises, so that a job that runs once is completed behind a failure too; and such a task, asked
to stop by a pause, writes `cancelled` over `paused`. Tasks that repeat a job write nothing when
they are stopped.
-/

namespace AgenticOS.Persistent

open AgenticOS.Transition List Pool

inductive JobPhase where
  /-- The task is created and has not run yet. -/
  | created
  | sleeping
  /-- The handler. -/
  | handling
  /-- The publication of the result. -/
  | publishing (succeeded : Bool)
  | done
  deriving DecidableEq

inductive HandlerOutcome where
  | returned
  | raised
  | cancelled
  deriving DecidableEq

structure JobTask where
  phase : JobPhase
  /-- It was asked to stop. -/
  requested : Bool := false

/-- A job, with the place of its entry in the table of tasks. -/
structure ScheduledJob where
  type : JobType
  /-- Whether the schedule is a positive number of seconds. -/
  delayed : Bool
  maxRetries : ℤ
  status : JobStatus := .scheduled
  retries : ℤ := 0
  task : Option Nat := some 0

def JobTask.Waiting (task : JobTask) : Prop :=
  task.phase = .created ∨ task.phase = .sleeping

/-- The task gets to its handler, or first to the delay before it. A missing handler counts as a
run that fails. -/
def JobTask.Nearer (before after : JobTask) : Prop :=
  before.phase = .created ∧ after.phase = .sleeping ∨
    after.phase = .handling ∨ after.phase = .publishing false

namespace ScheduledJob

variable (job : ScheduledJob)

/-- The beginning of `_execute_job`. -/
def executeJob (registered : Bool) : ScheduledJob × JobTask :=
  if registered then ({ job with status := .running }, { phase := .handling })
  else ({ job with status := .failed }, { phase := .publishing false })

/-- The head of the loop of `_run_interval`. -/
def runInterval : ScheduledJob × JobTask :=
  (job, { phase := if job.status = .scheduled then .sleeping else .done })

/-- The handlers of a cancellation. -/
def interrupt : ScheduledJob × JobTask :=
  (if job.type = .oneShot then { job with status := .cancelled } else job, { phase := .done })

/-- Behind the call of the handler. -/
def conclude : HandlerOutcome → ScheduledJob × JobTask
  | .returned => ({ job with status := .scheduled }, { phase := .publishing true })
  | .raised =>
    ({ job with
        retries := job.retries + 1
        status := if job.maxRetries ≤ job.retries + 1 then .failed else .scheduled },
      { phase := .publishing false })
  | .cancelled => job.interrupt

/-- Run a task from one suspension to the next; a request to stop is delivered first, and a
handler may take it as it likes. -/
def next (outcome : HandlerOutcome) (registered : Bool) (task : JobTask) : ScheduledJob × JobTask :=
  match task.phase with
  | .created =>
    if task.requested then (job, { phase := .done })
    else if job.type = .oneShot then
      if job.delayed then (job, { phase := .sleeping }) else job.executeJob registered
    else job.runInterval
  | .sleeping =>
    if task.requested then job.interrupt
    else if job.type = .oneShot ∨ job.status = .scheduled then job.executeJob registered
    else (job, { phase := .done })
  | .handling => job.conclude outcome
  | .publishing _ =>
    if task.requested then job.interrupt
    else if job.type = .oneShot then
      ({ job with status := .completed }, { phase := .done })
    else job.runInterval
  | .done => (job, task)

end ScheduledJob

abbrev JobPool := Pool ScheduledJob JobTask

namespace JobPool

inductive Action where
  | next (index : Nat) (outcome : HandlerOutcome) (registered : Bool)
  | pause
  | resume

def schedule (job : ScheduledJob) : JobPool where
  store := job
  processes := [{ phase := .created }]

def pause (pool : JobPool) : JobPool where
  store := { pool.store with status := .paused, task := none }
  processes :=
    match pool.store.task with
    | none => pool.processes
    | some index => pool.processes.modify index fun task => { task with requested := true }

def resumeJob (pool : JobPool) : JobPool :=
  if pool.store.status ≠ .paused then pool
  else
    pool.spawn { pool.store with status := .scheduled, task := some pool.processes.length }
      { phase := .created }

def step (pool : JobPool) : Action → JobPool
  | .next index outcome registered =>
    pool.resume (fun job task => job.next outcome registered task) index
  | .pause => pool.pause
  | .resume => pool.resumeJob

/-- No action completes a one-shot job behind a failure, and none but a resume ends a pause. A
resume schedules the job again with a new task, and a task that waits for its run and was not asked
to stop gets nearer to it when it is continued, and else waits on. -/
structure Durable (pool : JobPool) (action : Action) : Prop where
  visible : pool.store.type = .oneShot → ∀ index outcome registered task,
    action = .next index outcome registered → pool.processes[index]? = some task →
    task.phase = .publishing false → (pool.step action).store.status ≠ .completed
  paused : pool.store.status = .paused → action ≠ .resume →
    (pool.step action).store.status = .paused
  resumed : pool.store.status = .paused → action = .resume →
    (pool.step action).store.status = .scheduled ∧
      (pool.step action).store.task = some pool.processes.length ∧
      (pool.step action).processes = pool.processes ++ [{ phase := .created }]
  runs : ∀ (index : Nat) (task after : JobTask), pool.processes[index]? = some task →
    task.Waiting → task.requested = false → (pool.step action).processes[index]? = some after →
    (after.phase = task.phase ∨ task.Nearer after) ∧
      ∀ outcome registered, action = .next index outcome registered → task.Nearer after

/-- No failed one-shot job is left to its end; no task of a paused one-shot job has begun when
it is stopped; and no handler that is stopped goes on. -/
def Kept (pool : JobPool) : Action → Prop
  | .next index outcome _ => ∀ task ∈ pool.processes[index]?,
    (pool.store.type = .oneShot → task.phase = .publishing false → task.requested = true) ∧
    (task.requested = true →
      (task.phase = .handling → outcome = .cancelled) ∧
      (pool.store.type = .oneShot → pool.store.status = .paused →
        task.phase = .created ∨ task.phase = .done))
  | .pause | .resume => True

instance (pool : JobPool) : (action : Action) → Decidable (pool.Kept action)
  | .next _ _ _ => inferInstanceAs (Decidable (∀ task ∈ _, _))
  | .pause | .resume => .isTrue trivial

/-- Only the task in the table is alive and not asked to stop; it is not there while the job
is paused. If it waits for a repeated run, the job is scheduled. -/
def Sound (pool : JobPool) : Prop :=
  ∀ index task, pool.processes[index]? = some task → task.phase ≠ .done →
    task.requested = false →
    pool.store.task = some index ∧ pool.store.status ≠ .paused ∧
      (task.Waiting → pool.store.type ≠ .oneShot → pool.store.status = .scheduled)

end JobPool

namespace ScheduledJob

variable {job : ScheduledJob} {outcome : HandlerOutcome} {registered : Bool} {task : JobTask}

theorem next_of_stopped (job : ScheduledJob) (registered : Bool)
    (stopped : task.phase ≠ .done → task.requested = true)
    (stops : task.phase = .handling → outcome = .cancelled) :
    (job.next outcome registered task).2.phase = .done ∧
      ((job.next outcome registered task).1 = job ∨
        job.type = .oneShot ∧ task.phase ≠ .created ∧ task.phase ≠ .done ∧
          (job.next outcome registered task).1 = { job with status := .cancelled }) := by
  have interrupted : job.interrupt.1 = job ∨
      job.type = .oneShot ∧ job.interrupt.1 = { job with status := .cancelled } := by
    by_cases once : job.type = .oneShot
    · exact .inr ⟨once, if_pos once⟩
    · exact .inl (if_neg once)
  rw [next]
  cases phase : task.phase with
  | created => simp [stopped (by simp [phase])]
  | done => simp [phase]
  | sleeping | publishing => simpa [stopped (by simp [phase]), interrupt] using interrupted
  | handling => simpa [stops phase, conclude, interrupt] using interrupted

theorem next_frame (job : ScheduledJob) (outcome : HandlerOutcome) (registered : Bool)
    (task : JobTask) : (job.next outcome registered task).1.type = job.type ∧
      (job.next outcome registered task).1.task = job.task := by
  unfold next executeJob runInterval conclude interrupt
  repeat' split
  all_goals exact ⟨rfl, rfl⟩

structure Goes (job : ScheduledJob) (before : JobTask) (result : ScheduledJob × JobTask) :
    Prop where
  unpaused : result.1.status ≠ .paused
  waiting : result.2.Waiting → job.type ≠ .oneShot → result.1.status = .scheduled
  goesOn : before.Waiting → before.Nearer result.2

theorem goes_executeJob : Goes job task (job.executeJob registered) := by
  unfold executeJob
  split
  · constructor <;> simp [JobTask.Waiting, JobTask.Nearer]
  · constructor <;> simp [JobTask.Waiting, JobTask.Nearer]

theorem goes_runInterval (unpaused : job.status ≠ .paused)
    (scheduled : task.Waiting → task.phase = .created ∧ job.status = .scheduled) :
    Goes job task job.runInterval := by
  unfold runInterval
  split
  next again =>
    exact ⟨unpaused, fun _ _ => again, fun waits => .inl ⟨(scheduled waits).1, rfl⟩⟩
  next ended =>
    refine ⟨unpaused, ?_, fun waits => absurd (scheduled waits).2 ended⟩
    rintro (impossible | impossible) <;> cases impossible

theorem goes_conclude (unpaused : job.status ≠ .paused) (taken : ¬ task.Waiting) :
    Goes job task (job.conclude outcome) := by
  unfold conclude interrupt
  split
  · exact ⟨nofun, fun _ _ => rfl, fun waits => absurd waits taken⟩
  · refine ⟨?_, ?_, fun waits => absurd waits taken⟩
    · split <;> nofun
    · rintro (impossible | impossible) <;> cases impossible
  · refine ⟨?_, ?_, fun waits => absurd waits taken⟩
    · split
      · nofun
      · exact unpaused
    · rintro (impossible | impossible) <;> cases impossible

theorem goes_next (unrequested : task.requested = false) (alive : task.phase ≠ .done)
    (unpaused : job.status ≠ .paused)
    (scheduled : task.Waiting → job.type ≠ .oneShot → job.status = .scheduled) :
    Goes job task (job.next outcome registered task) := by
  have request : ¬ task.requested = true := by simp [unrequested]
  rw [next]
  cases phase : task.phase with
  | created =>
    have waits : task.Waiting := .inl phase
    dsimp only
    rw [if_neg request]
    split
    next once =>
      split
      · exact ⟨unpaused, fun _ repeats => absurd once repeats, fun _ => .inl ⟨phase, rfl⟩⟩
      · exact goes_executeJob
    next repeats => exact goes_runInterval unpaused fun _ => ⟨phase, scheduled waits repeats⟩
  | sleeping =>
    have waits : task.Waiting := .inr phase
    dsimp only
    rw [if_neg request, if_pos (or_iff_not_imp_left.mpr (scheduled waits))]
    exact goes_executeJob
  | handling => exact goes_conclude unpaused (by simp [JobTask.Waiting, phase])
  | publishing succeeded =>
    have taken : ¬ task.Waiting := by simp [JobTask.Waiting, phase]
    dsimp only
    rw [if_neg request]
    split
    next once =>
      exact ⟨nofun, fun _ repeats => absurd once repeats, fun waits => absurd waits taken⟩
    next => exact goes_runInterval unpaused fun waits => absurd waits taken
  | done => exact absurd phase alive

end ScheduledJob

namespace JobPool

variable {pool : JobPool} {index position : Nat} {outcome : HandlerOutcome} {registered : Bool}
  {task other : JobTask}

/-- The tasks behind a continuation: the others are as they were. -/
theorem lookup_next (present : pool.processes[index]? = some task)
    (lookup : (pool.step (.next index outcome registered)).processes[position]? = some other) :
    index = position ∧ other = (pool.store.next outcome registered task).2 ∨
      index ≠ position ∧ pool.processes[position]? = some other := by
  rw [step, resume_of_some present, getElem?_set] at lookup
  split at lookup
  next same =>
    split at lookup
    · exact .inl ⟨same, (Option.some.inj lookup).symm⟩
    · cases lookup
  next distinct => exact .inr ⟨distinct, lookup⟩

theorem Sound.next (sound : pool.Sound) (kept : pool.Kept (.next index outcome registered)) :
    (pool.step (.next index outcome registered)).Sound := by
  cases present : pool.processes[index]? with
  | none =>
    rw [step, resume_of_none present]
    exact sound
  | some task =>
    have frame := ScheduledJob.next_frame pool.store outcome registered task
    have guarded := kept task present
    have store : (pool.step (.next index outcome registered)).store =
        (pool.store.next outcome registered task).1 := by
      rw [step, resume_of_some present]
    intro position other lookup alive unrequested
    rw [store, frame.1, frame.2]
    by_cases current : task.phase ≠ .done ∧ task.requested = false
    · -- the task in the table goes on, and no other is to be considered
      obtain ⟨entry, unpaused, scheduled⟩ := sound index task present current.1 current.2
      rcases lookup_next present lookup with ⟨rfl, rfl⟩ | ⟨distinct, old⟩
      · have goes : ScheduledJob.Goes pool.store task (pool.store.next outcome registered task) :=
          ScheduledJob.goes_next current.2 current.1 unpaused scheduled
        exact ⟨entry, goes.unpaused, goes.waiting⟩
      · have own := (sound position other old alive unrequested).1
        exact absurd (Option.some.inj (entry.symm.trans own)) distinct
    · have stopped : task.phase ≠ .done → task.requested = true := by
        intro unfinished
        by_contra free
        exact current ⟨unfinished, Bool.eq_false_of_not_eq_true free⟩
      obtain ⟨ended, written⟩ := pool.store.next_of_stopped registered stopped
        fun handling => (guarded.2 (stopped (by rw [handling]; nofun))).1 handling
      rcases lookup_next present lookup with ⟨-, rfl⟩ | ⟨-, old⟩
      · exact absurd ended alive
      · obtain ⟨entry, unpaused, scheduled⟩ := sound position other old alive unrequested
        rcases written with same | ⟨once, -, -, cancelled⟩
        · rw [same]
          exact ⟨entry, unpaused, scheduled⟩
        · rw [cancelled]
          exact ⟨entry, nofun, fun _ repeats => absurd once repeats⟩

theorem Sound.step (sound : pool.Sound) {action : Action} (kept : pool.Kept action) :
    (pool.step action).Sound := by
  cases action with
  | next index outcome registered => exact sound.next kept
  | pause =>
    intro position task lookup alive unrequested
    change (pool.pause.processes)[position]? = some task at lookup
    rw [pause] at lookup
    cases entry : pool.store.task with
    | none =>
      rw [entry] at lookup
      have own := (sound position task lookup alive unrequested).1
      cases entry.symm.trans own
    | some index =>
      rw [entry] at lookup
      rw [getElem?_modify] at lookup
      obtain ⟨old, present, rfl⟩ := Option.map_eq_some_iff.mp lookup
      split at unrequested
      next => cases unrequested
      next distinct =>
        rw [if_neg distinct] at alive
        have own := (sound position old present alive unrequested).1
        exact absurd (Option.some.inj (entry.symm.trans own)) distinct
  | resume =>
    change pool.resumeJob.Sound
    unfold resumeJob
    split
    · exact sound
    next paused =>
      intro position task lookup alive unrequested
      rw [spawn, getElem?_append] at lookup
      split at lookup
      next => exact absurd (not_not.mp paused) (sound position task lookup alive unrequested).2.1
      next behind =>
        rw [getElem?_singleton] at lookup
        split at lookup
        next last =>
          cases lookup
          refine ⟨congrArg some ?_, ?_, fun _ _ => rfl⟩
          · omega
          · intro isPaused; cases isPaused
        next => cases lookup

theorem sound_schedule (job : ScheduledJob) (first : job.task = some 0)
    (scheduled : job.status = .scheduled) : (schedule job).Sound := by
  intro index task lookup _ _
  rw [schedule, getElem?_singleton] at lookup
  split at lookup
  next same => exact ⟨same ▸ first, by simp [schedule, scheduled], fun _ _ => scheduled⟩
  next => cases lookup

theorem Sound.durable (sound : pool.Sound) {action : Action} (kept : pool.Kept action) :
    pool.Durable action := by
  constructor
  · rintro once index outcome registered task rfl present failed
    rw [JobPool.step, resume_of_some present, ScheduledJob.next, failed]
    simp [(kept task present).1 once failed, ScheduledJob.interrupt, once]
  · intro paused notResumed
    cases action with
    | next index outcome registered =>
      cases present : pool.processes[index]? with
      | none =>
        rw [JobPool.step, resume_of_none present]
        exact paused
      | some task =>
        have guarded := (kept task present).2
        have stopped : task.phase ≠ .done → task.requested = true := by
          intro unfinished
          by_contra free
          have current := sound index task present unfinished (Bool.eq_false_of_not_eq_true free)
          exact current.2.1 paused
        rw [JobPool.step, resume_of_some present]
        rcases (pool.store.next_of_stopped registered stopped fun handling =>
          (guarded (stopped (by rw [handling]; nofun))).1 handling).2 with
          same | ⟨once, begun, unfinished, -⟩
        · rw [same]
          exact paused
        · exact absurd ((guarded (stopped unfinished)).2 once paused)
            (not_or.mpr ⟨begun, unfinished⟩)
    | pause => rfl
    | resume => exact absurd rfl notResumed
  · rintro paused rfl
    change pool.resumeJob.store.status = _ ∧ pool.resumeJob.store.task = _ ∧
      pool.resumeJob.processes = _
    rw [resumeJob, if_neg (not_not.mpr paused)]
    exact ⟨rfl, rfl, rfl⟩
  · intro index task after present waits unrequested lookup
    have unfinished : task.phase ≠ .done := by rcases waits with phase | phase <;> simp [phase]
    have unchanged (same : pool.processes[index]? = some after) : after.phase = task.phase := by
      rw [Option.some.inj (present.symm.trans same)]
    cases action with
    | next position outcome registered =>
      cases continued : pool.processes[position]? with
      | none =>
        rw [JobPool.step, resume_of_none continued] at lookup
        refine ⟨.inl (unchanged lookup), ?_⟩
        rintro _ _ ⟨⟩
        cases present.symm.trans continued
      | some other =>
        rcases lookup_next continued lookup with ⟨rfl, rfl⟩ | ⟨distinct, old⟩
        · obtain rfl := Option.some.inj (continued.symm.trans present)
          obtain ⟨-, unpaused, scheduled⟩ := sound position other present unfinished unrequested
          have nearer : other.Nearer (pool.store.next outcome registered other).2 :=
            (ScheduledJob.goes_next unrequested unfinished unpaused scheduled).goesOn waits
          exact ⟨.inr nearer, fun _ _ _ => nearer⟩
        · refine ⟨.inl (unchanged old), ?_⟩
          rintro _ _ ⟨⟩
          exact absurd rfl distinct
    | pause =>
      refine ⟨.inl ?_, nofun⟩
      change pool.pause.processes[index]? = some after at lookup
      rw [pause] at lookup
      split at lookup
      next => exact unchanged lookup
      next =>
        rw [getElem?_modify, present] at lookup
        rw [← Option.some.inj lookup]
        split
        · rfl
        · rfl
    | resume =>
      refine ⟨.inl ?_, nofun⟩
      change pool.resumeJob.processes[index]? = some after at lookup
      unfold resumeJob at lookup
      split at lookup
      next => exact unchanged lookup
      next =>
        have inside := (List.getElem?_eq_some_iff.mp present).1
        rw [spawn, getElem?_append_left inside] at lookup
        exact unchanged lookup

def sampleJob (type : JobType) : ScheduledJob where
  type := type
  delayed := true
  maxRetries := 3

end JobPool

end AgenticOS.Persistent
