import AgenticOS.OmniRoute.Scheduler.Engine

/-!
# Whether accepted requests are served

A session is a scheduler together with the accepted entries that have been neither
dispatched nor cancelled and that had not expired when the queues were last looked at. An
entry that is inspected is dispatched while workers are free, and a scheduler with one of
the round robin algorithms accepts entries that it never inspects.
-/

namespace AgenticOS.OmniRoute

open AgenticOS.Transition List

namespace SchedulerEngineImpl

variable {engine : SchedulerEngineImpl}

def HasFree (engine : SchedulerEngineImpl) : Prop :=
  engine.workers.acquired < engine.workers.poolSize
deriving Decidable

def dequeued (engine : SchedulerEngineImpl) (instant : Instant) : SchedulerEngineImpl :=
  (engine.dequeue instant).2

def drain (engine : SchedulerEngineImpl) : List Instant → List DispatchPlan
  | [] => []
  | instant :: later => (engine.dequeue instant).1.toList ++ (engine.dequeued instant).drain later

theorem one_le_totalDepth (accounted : engine.Accounted) {entry : QueueEntry}
    (waiting : engine.Inspects entry) : 1 ≤ engine.totalDepth := by
  have pops := (selects_select accounted 0).pops
  have nonneg : 0 ≤ (engine.select 0).2.totalDepth := Accounted.nonneg pops.sound
  have total : (engine.select 0).2.totalDepth =
      engine.totalDepth - if (engine.select 0).1.isSome then 1 else 0 := pops.total
  cases selected : (engine.select 0).1 with
  | none => exact absurd waiting ((pops.empty selected).1 entry)
  | some taken =>
    rw [selected] at total
    simp at total
    omega

theorem drain_returns (instants : List Instant) (accounted : engine.Accounted)
    (running : engine.running) (unpaused : ¬ engine.paused)
    (enough : engine.totalDepth ≤ instants.length)
    (free : Along dequeued (fun engine _ => engine.HasFree) engine instants)
    {entry : QueueEntry} (waiting : engine.Inspects entry) :
    (∃ plan ∈ engine.drain instants, plan.item = entry.item) ∨
      ∃ instant ∈ instants, entry.due ≤ ((instant.mono * 1000 : ℚ) : WithTop ℚ) := by
  induction instants generalizing engine with
  | nil =>
    have counted := one_le_totalDepth accounted waiting
    simp at enough
    omega
  | cons instant later ih =>
    by_cases due : entry.due ≤ ((instant.mono * 1000 : ℚ) : WithTop ℚ)
    · exact .inr ⟨instant, mem_cons_self, due⟩
    have found := isSome_dequeue_of_free accounted running unpaused free.1 waiting due
    have dequeues := dequeues_dequeue accounted instant
    rcases dequeues.loses.kept entry waiting with still | expired | ⟨plan, returned, item⟩
    · have fewer := dequeues.depth
      rw [found] at fewer
      have rest := ih dequeues.accounted
        (dequeues.setting.running.trans running)
        (fun paused => unpaused (dequeues.setting.paused.symm.trans paused))
        (by
          simp at enough fewer
          omega)
        free.2 still
      rcases rest with ⟨plan, member, item⟩ | ⟨instant', member, expired⟩
      · exact .inl ⟨plan, mem_append_right _ member, item⟩
      · exact .inr ⟨instant', mem_cons_of_mem _ member, expired⟩
    · exact absurd expired due
    · refine .inl ⟨plan, mem_append_left _ ?_, item⟩
      rw [returned]
      exact mem_singleton.mpr rfl

/-- A scheduler with the accepted entries that it still owes. -/
structure Session where
  engine : SchedulerEngineImpl
  outstanding : List QueueEntry := []

namespace Session

/-- A call on the scheduler, and what it owes afterwards. -/
def step (session : Session) (call : Call) : Session where
  engine := session.engine.step call
  outstanding :=
    match call with
    | .enqueue instant request =>
      if (session.engine.enqueue instant request).1.queued then
        session.outstanding ++ [request.entry session.engine.nextItem instant]
      else session.outstanding
    | .dequeue instant =>
      session.outstanding.filter fun entry =>
        ¬ entry.due ≤ ((instant.mono * 1000 : ℚ) : WithTop ℚ) ∧
          (session.engine.dequeue instant).1.all fun plan => plan.item ≠ entry.item
    | .cancel id =>
      if (session.engine.cancel id).1 then
        session.outstanding.filter fun entry => entry.item.id ≠ id
      else session.outstanding
    | .stop => if session.engine.running then [] else session.outstanding
    | .pause | .resume | .start => session.outstanding

/-- Each entry that is owed stands where `dequeue` looks for it, and while workers are free
repeated dequeues dispatch it before it expires. -/
structure Served (session : Session) : Prop where
  inspected : ∀ entry ∈ session.outstanding, session.engine.Inspects entry
  returned : session.engine.running → ¬ session.engine.paused → ∀ instants : List Instant,
    session.engine.totalDepth ≤ instants.length →
    Along dequeued (fun engine _ => engine.HasFree) session.engine instants →
    ∀ entry ∈ session.outstanding,
      (∃ plan ∈ session.engine.drain instants, plan.item = entry.item) ∨
        ∃ instant ∈ instants, entry.due ≤ ((instant.mono * 1000 : ℚ) : WithTop ℚ)

/-- A round robin scheduler is given no request with a deadline, and none without a group
for which there is room. -/
def Agreeable (session : Session) : Call → Prop
  | .enqueue _ request =>
    session.engine.running → ¬ session.engine.paused →
    session.engine.schedulerPolicy.algorithm = .rr ∨
      session.engine.schedulerPolicy.algorithm = .wrr →
    request.deadlineS = none ∧
      (request.group ≠ "" ∨ session.engine.fifo.maxSize ≤ session.engine.fifo.total)
  | _ => True

/-- The counters are right and the held entries have been given their numbers before. -/
structure Sound (session : Session) : Prop where
  accounted : session.engine.Accounted
  numbered : ∀ entry, session.engine.Holds entry → entry.item.id < session.engine.nextItem

variable {session : Session}

section

variable (sound : session.Sound)
include sound

theorem served_of_inspected
    (inspected : ∀ entry ∈ session.outstanding, session.engine.Inspects entry) :
    session.Served where
  inspected := inspected
  returned := fun running unpaused instants enough free entry owed =>
    drain_returns instants sound.accounted running unpaused enough free (inspected entry owed)

theorem Sound.step (call : Call) : (session.step call).Sound where
  accounted := step_accounted sound.accounted call
  numbered := by
    intro entry holds
    cases call with
    | enqueue instant request =>
      have enqueues := enqueues_enqueue sound.accounted instant request
      rcases enqueues.held entry holds with before | ⟨queued, rfl⟩
      · exact (sound.numbered entry before).trans_le enqueues.nextItem
      · exact enqueues.drawn queued
    | dequeue instant =>
      have dequeues := dequeues_dequeue sound.accounted instant
      exact (sound.numbered entry (dequeues.held entry holds)).trans_eq
        dequeues.setting.nextItem.symm
    | cancel id =>
      have removes := removes_cancel sound.accounted id
      exact (sound.numbered entry (removes.held.subset entry holds)).trans_eq
        removes.setting.nextItem.symm
    | pause | resume => exact sound.numbered entry holds
    | start =>
      have same : session.engine.start.nextItem = session.engine.nextItem := by
        unfold SchedulerEngineImpl.start
        split
        · rfl
        · rfl
      change session.engine.start.Holds entry at holds
      rw [(inspects_start session.engine).2] at holds
      exact (sound.numbered entry holds).trans_eq same.symm
    | stop =>
      by_cases running : session.engine.running
      · exact absurd holds (not_holds_stop running entry)
      · have same : session.engine.stop = session.engine := if_pos running
        change session.engine.stop.Holds entry at holds
        rw [same] at holds
        change entry.item.id < session.engine.stop.nextItem
        rw [same]
        exact sound.numbered entry holds

theorem served_of_not_enqueue (served : session.Served) {call : Call}
    (other : ∀ instant request, call ≠ .enqueue instant request) : (session.step call).Served := by
  apply served_of_inspected (sound.step call)
  intro entry owed
  cases call with
  | enqueue instant request => exact absurd rfl (other instant request)
  | dequeue instant =>
    rcases mem_filter.mp owed with ⟨before, still⟩
    rw [decide_eq_true_iff] at still
    have dequeues := dequeues_dequeue sound.accounted instant
    rcases dequeues.loses.kept entry (served.inspected entry before) with
      inspected | due | ⟨plan, returned, item⟩
    · exact inspected
    · exact absurd due still.1
    · have differs := still.2
      rw [returned] at differs
      simp at differs
      exact absurd item differs
  | cancel id =>
    have removes := removes_cancel sound.accounted id
    unfold Session.step at owed
    dsimp only at owed
    split at owed
    · rcases mem_filter.mp owed with ⟨before, still⟩
      rcases removes.inspected.kept entry (served.inspected entry before) with
        inspected | ⟨-, item⟩
      · exact inspected
      · exact absurd item (of_decide_eq_true still)
    next missing =>
      rcases removes.inspected.kept entry (served.inspected entry owed) with
        inspected | ⟨found, -⟩
      · exact inspected
      · exact absurd found missing
  | pause | resume => exact served.inspected entry owed
  | start =>
    change session.engine.start.Inspects entry
    rw [(inspects_start session.engine).1]
    exact served.inspected entry owed
  | stop =>
    unfold Session.step at owed
    dsimp only at owed
    split at owed
    · exact absurd owed not_mem_nil
    next stopped =>
      have same : session.engine.stop = session.engine := if_pos stopped
      change session.engine.stop.Inspects entry
      rw [same]
      exact served.inspected entry owed

theorem served_enqueue_iff (served : session.Served) (instant : Instant)
    (request : ScheduleRequest) : (session.step (.enqueue instant request)).Served ↔
      session.Agreeable (.enqueue instant request) := by
  have enqueues := enqueues_enqueue sound.accounted instant request
  constructor
  · intro after running unpaused robin
    by_contra misplaced
    have queued : (session.engine.enqueue instant request).1.queued = true := by
      apply (queued_enqueue_iff sound.accounted running unpaused robin).mpr
      rintro ⟨deadline, -, full⟩
      exact misplaced ⟨deadline, .inr full⟩
    have owed : request.entry session.engine.nextItem instant ∈
        (session.step (.enqueue instant request)).outstanding := by
      unfold Session.step
      dsimp only
      rw [if_pos queued]
      exact mem_append_right _ mem_cons_self
    rcases (enqueues.inspected _).mp (after.inspected _ owed) with before | ⟨-, fits, -⟩
    · -- The number of the new entry has not been given before.
      have earlier := sound.numbered _ (holds_of_inspects before)
      exact absurd earlier (lt_irrefl _)
    · exact misplaced ⟨(fits robin).1, .inl (fits robin).2⟩
  · intro agreeable
    apply served_of_inspected (sound.step _)
    intro entry owed
    apply (enqueues.inspected entry).mpr
    unfold Session.step at owed
    dsimp only at owed
    split at owed
    next queued =>
      rcases mem_append.mp owed with before | added
      · exact .inl (served.inspected entry before)
      · refine .inr ⟨queued, ?_, mem_singleton.mp added⟩
        intro robin
        rcases enqueue_cases sound.accounted instant request with
          ⟨-, refused, -⟩ | ⟨⟨running, unpaused⟩, -⟩
        · rw [queued] at refused
          cases refused
        · rcases agreeable running unpaused robin with ⟨deadline, group | full⟩
          · exact ⟨deadline, group⟩
          · refine ⟨deadline, fun group => ?_⟩
            exact (queued_enqueue_iff sound.accounted running unpaused robin).mp queued
              ⟨deadline, group, full⟩
    · exact .inl (served.inspected entry owed)

theorem served_step_iff (served : session.Served) (call : Call) :
    (session.step call).Served ↔ session.Agreeable call := by
  cases call with
  | enqueue instant request => exact served_enqueue_iff sound served instant request
  | dequeue | cancel | pause | resume | start | stop =>
    exact ⟨fun _ => trivial, fun _ => served_of_not_enqueue sound served (by simp)⟩

end

/-- A new scheduler that owes nothing. -/
def create (maxQueue workerPool : ℤ) (algorithm : SchedulingAlgorithm) (high low : ℚ) :
    Session where
  engine := SchedulerEngineImpl.create maxQueue workerPool algorithm high low

theorem sound_create (maxQueue workerPool : ℤ) (algorithm : SchedulingAlgorithm)
    (high low : ℚ) : (create maxQueue workerPool algorithm high low).Sound where
  accounted := accounted_create maxQueue workerPool algorithm high low
  numbered := by
    rintro entry (⟨level, impossible⟩ | ⟨slot, impossible, -⟩ | ⟨group, entries, impossible, -⟩)
    · exact absurd impossible not_mem_nil
    · exact absurd impossible not_mem_nil
    · cases impossible

/-- In every run of a scheduler, whatever its configuration, all accepted requests are served
exactly if the round robin policies are given no request that they misplace. -/
theorem always_served_iff (maxQueue workerPool : ℤ) (algorithm : SchedulingAlgorithm)
    (high low : ℚ) (calls : List Call) :
    Always step Served (create maxQueue workerPool algorithm high low) calls ↔
      Along step Agreeable (create maxQueue workerPool algorithm high low) calls := by
  apply always_iff_along Sound
  · exact fun session call sound _ _ => sound.step call
  · exact fun session call sound served => served_step_iff sound served call
  · exact sound_create maxQueue workerPool algorithm high low
  · apply served_of_inspected (sound_create maxQueue workerPool algorithm high low)
    intro entry impossible
    exact absurd impossible not_mem_nil

/-- A request of provider `p` that is to be answered within five seconds. -/
def urgentRequest : ScheduleRequest where
  provider := "p"
  model := "m"
  deadlineS := some 5

/-- Round robin accepts the request and does not find it again. -/
theorem robin_strands_request :
    let calls : List Call := [.start, .enqueue ⟨0, 0⟩ urgentRequest]
    let session := run step (create 500 32 .rr (9 / 10) (1 / 2)) calls
    session.outstanding = [urgentRequest.entry 0 ⟨0, 0⟩] ∧ session.engine.totalDepth = 1 ∧
      session.engine.drain [⟨1, 1⟩] = [] ∧
      ¬ Always step Served (create 500 32 .rr (9 / 10) (1 / 2)) calls := by
  intro calls session
  have outstanding : session.outstanding = [urgentRequest.entry 0 ⟨0, 0⟩] := by decide +kernel
  have depth : session.engine.totalDepth = 1 := by decide +kernel
  have nothing : session.engine.drain [⟨1, 1⟩] = [] := by decide +kernel
  refine ⟨outstanding, depth, nothing, ?_⟩
  intro always
  have served : session.Served := always.last
  have owed : urgentRequest.entry 0 ⟨0, 0⟩ ∈ session.outstanding := by exact mem_cons_self
  have returned := served.returned (by decide +kernel) (by decide +kernel) [⟨1, 1⟩]
    (by rw [depth]; decide) (by decide +kernel) _ owed
  rcases returned with ⟨plan, impossible, -⟩ | ⟨instant, member, due⟩
  · exact absurd impossible not_mem_nil
  · rw [mem_singleton.mp member] at due
    revert due
    decide +kernel

end Session

end SchedulerEngineImpl

end AgenticOS.OmniRoute
