import AgenticOS.Persistent.RoundTrip

/-!
# The background job scheduler

The jobs of the scheduler are written when they are scheduled and read again when it starts.
Jobs are read without their status, so that a restart schedules none of them; one that was
written as paused would be started as scheduled, but none is.

What a task does while it waits for its next run is left out: a task is the type and the
schedule that it was made with.
-/

namespace AgenticOS.Persistent

open JsonValue PersistenceLayer

/-- What `_schedule_job` hands to its task. -/
structure ScheduledTask where
  type : JobType
  schedule : JsonValue

structure BackgroundJobScheduler where
  persistence : PersistenceLayer
  jobs : Dict JsonValue Job := .empty
  tasks : Dict JsonValue ScheduledTask := .empty
  started : Bool := false

/-- Whether a value can be the key of a dictionary; another one raises. -/
def hashable (value : JsonValue) : Bool :=
  value.members?.isNone && value.elements?.isNone

namespace BackgroundJobScheduler

variable (scheduler : BackgroundJobScheduler)

def scheduleJob (job : Job) : BackgroundJobScheduler :=
  { scheduler with tasks := scheduler.tasks.set job.id ⟨job.type, job.schedule⟩ }

def schedule (job : Job) : BackgroundJobScheduler :=
  let job := { job with status := .scheduled }
  let kept := { scheduler with
    jobs := scheduler.jobs.set job.id job
    persistence := scheduler.persistence.saveJob job }
  kept.scheduleJob job

/-- `pause`, which writes nothing. -/
def pause (jobId : JsonValue) : BackgroundJobScheduler :=
  match scheduler.jobs.get? jobId with
  | none => scheduler
  | some job =>
    { scheduler with
      jobs := scheduler.jobs.set jobId { job with status := .paused }
      tasks := scheduler.tasks.erase jobId }

/-- The body of the loop of `start`. -/
def adopt (job : Job) : BackgroundJobScheduler :=
  if job.status = .scheduled ∨ job.status = .paused then
    let resumed := { job with status := .scheduled }
    let kept := { scheduler with jobs := scheduler.jobs.set job.id resumed }
    kept.scheduleJob resumed
  else { scheduler with jobs := scheduler.jobs.set job.id job }

def start (order : SetOrder String)
    (clock : String → JsonValue × JsonValue) : BackgroundJobScheduler :=
  if scheduler.started then scheduler
  else
    ((scheduler.persistence.loadJobs order clock).takeWhile fun job => hashable job.id).foldl
      adopt { scheduler with started := true }

/-- A new scheduler on the same files, started. -/
def restart (order : SetOrder String)
    (clock : String → JsonValue × JsonValue) : BackgroundJobScheduler :=
  start { persistence := scheduler.persistence } order clock

/-- The job is in the table and in a file. -/
def Persisted (job : Job) : Prop :=
  scheduler.jobs.get? job.id = some job ∧
    ∃ text, scheduler.persistence.jobs.get? (fileName job.id) = some text

variable (scheduler : BackgroundJobScheduler)

theorem persisted_schedule (job : Job) :
    (scheduler.schedule job).Persisted { job with status := .scheduled } :=
  ⟨Dict.get?_set_self _ _ _, _, Dict.get?_set_self scheduler.persistence.jobs _ _⟩

theorem Persisted.pause {scheduler : BackgroundJobScheduler} {job : Job}
    (persisted : scheduler.Persisted job) :
    (scheduler.pause job.id).Persisted { job with status := .paused } := by
  unfold BackgroundJobScheduler.pause
  rw [persisted.1]
  exact ⟨Dict.get?_set_self _ _ _, persisted.2⟩

/-- The persisted jobs that were scheduled before are scheduled after it with their types and
schedules, and the ones that were paused are still paused. -/
structure Resumed (before after : BackgroundJobScheduler) : Prop where
  scheduled : ∀ job, before.Persisted job → job.status = .scheduled →
    after.tasks.get? job.id = some ⟨job.type, job.schedule⟩
  paused : ∀ job, before.Persisted job → job.status = .paused →
    ∃ kept, after.jobs.get? job.id = some kept ∧ kept.status = .paused

structure Idle (scheduler : BackgroundJobScheduler) : Prop where
  tasks : scheduler.tasks = .empty
  pending : ∀ id job, scheduler.jobs.get? id = some job → job.status = .pending

theorem status_of_mem_loadJobs {layer : PersistenceLayer} {order : SetOrder String}
    {clock : String → JsonValue × JsonValue} {job : Job}
    (loaded : job ∈ layer.loadJobs order clock) : job.status = .pending := by
  obtain ⟨name, found⟩ := mem_loadJobs_iff.mp loaded
  unfold loadJob at found
  split at found
  · cases found
  · split at found
    · cases found
    · exact status_of_readJob found

theorem Idle.adopt {scheduler : BackgroundJobScheduler} (idle : scheduler.Idle) {job : Job}
    (pending : job.status = .pending) : (scheduler.adopt job).Idle := by
  have noTask : scheduler.adopt job =
      { scheduler with jobs := scheduler.jobs.set job.id job } := by
    unfold BackgroundJobScheduler.adopt
    rw [if_neg (by rw [pending]; decide)]
  rw [noTask]
  refine ⟨idle.tasks, ?_⟩
  intro id other found
  rw [Dict.get?_set] at found
  by_cases here : id = job.id
  · rw [if_pos here] at found
    rw [← Option.some.inj found]
    exact pending
  · rw [if_neg here] at found
    exact idle.pending id other found

theorem Idle.foldl {jobs : List Job} (pending : ∀ job ∈ jobs, job.status = .pending)
    {scheduler : BackgroundJobScheduler} (idle : scheduler.Idle) :
    (jobs.foldl BackgroundJobScheduler.adopt scheduler).Idle := by
  induction jobs generalizing scheduler with
  | nil => exact idle
  | cons job rest hypothesis =>
    rw [List.forall_mem_cons] at pending
    exact hypothesis pending.2 (idle.adopt pending.1)

section

variable (order : SetOrder String) (clock : String → JsonValue × JsonValue)

theorem idle_restart : (scheduler.restart order clock).Idle := by
  refine .foldl ?_ ⟨rfl, ?_⟩
  · intro job among
    exact status_of_mem_loadJobs ((List.takeWhile_sublist _).subset among)
  · intro id job found
    cases found

/-- A restart restores the jobs exactly if there are none to restore. -/
theorem resumed_restart_iff : Resumed scheduler (scheduler.restart order clock) ↔
      ∀ job, scheduler.Persisted job → job.status ≠ .scheduled ∧ job.status ≠ .paused := by
  have idle := idle_restart scheduler order clock
  constructor
  · rintro ⟨scheduled, paused⟩ job persisted
    constructor
    · intro wasScheduled
      have again := scheduled job persisted wasScheduled
      rw [idle.tasks] at again
      cases again
    · intro wasPaused
      obtain ⟨kept, found, still⟩ := paused job persisted wasPaused
      rw [idle.pending _ _ found] at still
      cases still
  · intro none
    exact ⟨fun job persisted wasScheduled => absurd wasScheduled (none job persisted).1,
      fun job persisted wasPaused => absurd wasPaused (none job persisted).2⟩

end

end BackgroundJobScheduler

open BackgroundJobScheduler

theorem saved_foldl (jobs : List Job) : (jobs.foldl saveJob {}).Saved := by
  suffices saved : ∀ layer : PersistenceLayer, layer.Saved →
      (jobs.foldl .saveJob layer).Saved from
    saved _ fun name text found => by cases found
  induction jobs with
  | nil => exact fun layer saved => saved
  | cons job rest hypothesis => exact fun layer saved => hypothesis _ (saved.saveJob job)

/-- A job comes back exactly if what is not loaded of it is as for a new job that is made
when it is loaded, and a restart restores the jobs exactly if none was scheduled or paused. -/
theorem jobs_restored_iff (earlier : List Job) (job : Job) (order : SetOrder String)
    (clock : String → JsonValue × JsonValue) (before : BackgroundJobScheduler) :
    (job ∈ ((earlier.foldl saveJob {}).saveJob job).loadJobs order clock ↔
      job.Unremarkable ∧ (job.createdAt, job.updatedAt) = clock (fileName job.id)) ∧
    (Resumed before (before.restart order clock) ↔
      ∀ job, before.Persisted job → job.status ≠ .scheduled ∧ job.status ≠ .paused) :=
  ⟨mem_loadJobs_saveJob_iff (saved_foldl earlier) job order clock,
    resumed_restart_iff before order clock⟩

/-- A job that runs once, in an hour. -/
def hourlyJob : Job where
  id := string "job-1"
  type := .oneShot
  schedule := string "3600"
  createdAt := string "2026-01-01T00:00:00+00:00"
  updatedAt := string "2026-01-01T00:00:00+00:00"

/-- It does not come back as it was saved; if it was scheduled it is not scheduled again, and
if it was paused then it is not paused. -/
theorem hourlyJob_not_restored :
    (∀ order clock, hourlyJob ∉ (saveJob {} hourlyJob).loadJobs order clock) ∧
    (∀ order clock,
      ¬ (schedule { persistence := {} } hourlyJob).Resumed
        ((schedule { persistence := {} } hourlyJob).restart order clock)) ∧
    ∀ order clock,
      ¬ ((schedule { persistence := {} } hourlyJob).pause hourlyJob.id).Resumed
        (((schedule { persistence := {} } hourlyJob).pause hourlyJob.id).restart order clock) := by
  refine ⟨?_, ?_, ?_⟩
  · intro order clock loaded
    have plain := ((mem_loadJobs_saveJob_iff (saved_foldl []) _ order clock).mp loaded).1
    have interval := plain.type
    cases interval
  · intro order clock resumed
    have none := (resumed_restart_iff _ order clock).mp resumed
    exact (none _ (persisted_schedule _ hourlyJob)).1 rfl
  · intro order clock resumed
    have none := (resumed_restart_iff _ order clock).mp resumed
    exact (none _ (persisted_schedule _ hourlyJob).pause).2 rfl

end AgenticOS.Persistent
