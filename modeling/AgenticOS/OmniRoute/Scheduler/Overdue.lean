import AgenticOS.OmniRoute.Scheduler.Engine

/-!
# Overdue requests

Only the heap by deadline drops what has expired, and there a deadline of zero seconds counts as
none. A request with a deadline can wait in any of the three structures.
-/

namespace AgenticOS.OmniRoute

open AgenticOS.Transition PriorityQueueManager WeightedFairQueue Heapq

/-- The deadline that came with the request, not before the enqueuing, has passed. -/
def QueueEntry.Overdue (entry : QueueEntry) (nowMs : ℚ) : Prop :=
  ∃ deadline, entry.item.deadline = some deadline ∧ entry.item.createdAt ≤ deadline ∧
    entry.enqueuedMs + (deadline - entry.item.createdAt) * 1000 < nowMs

def DispatchPlan.Overdue (plan : DispatchPlan) : Prop :=
  ∃ deadline, plan.item.deadline = some deadline ∧ plan.item.createdAt ≤ deadline ∧
    (deadline - plan.item.createdAt) * 1000 < plan.waitTimeMs

theorem overdue_entry_iff (request : ScheduleRequest) (id : ℕ) (instant : Instant) (nowMs : ℚ) :
    (request.entry id instant).Overdue nowMs ↔
      ∃ seconds, request.deadlineS = some seconds ∧ 0 ≤ seconds ∧
        (instant.mono + seconds) * 1000 < nowMs := by
  cases given : request.deadlineS with
  | none => simp [QueueEntry.Overdue, ScheduleRequest.entry, given]
  | some seconds =>
    simp only [QueueEntry.Overdue, ScheduleRequest.entry, given, Option.map_some,
      Option.some.injEq, exists_eq_left', le_add_iff_nonneg_right, add_sub_cancel_left]
    rw [add_mul]

theorem due_entry {request : ScheduleRequest} {seconds : ℚ}
    (given : request.deadlineS = some seconds) (id : ℕ) (instant : Instant) :
    (request.entry id instant).due =
      if seconds = 0 then ⊤ else (((instant.mono + seconds) * 1000 : ℚ) : WithTop ℚ) := by
  by_cases zero : seconds = 0
  · simp [QueueEntry.due, ScheduleRequest.entry, given, zero, Option.filter]
  · simp [QueueEntry.due, ScheduleRequest.entry, given, zero, add_mul, Option.filter]

/-- The three structures in which entries wait. -/
inductive QueueKind
  | fifo | edf | fair
  deriving DecidableEq

/-- The structure into which the request is put. -/
def ScheduleRequest.kind (request : ScheduleRequest) : SchedulingAlgorithm → QueueKind
  | .edf => .edf
  | .fair => .fair
  | .fifo | .priority => .fifo
  | .rr | .wrr | .adaptiveHybrid | .other _ =>
    if request.deadlineS.isSome then .edf else if request.group ≠ "" then .fair else .fifo

/-- The structures from which `dequeue` pops. -/
def SchedulingAlgorithm.PopsFrom : SchedulingAlgorithm → QueueKind → Prop
  | .edf, kind => kind = .edf
  | .fifo, kind => kind = .fifo
  | .fair, kind | .wrr, kind | .rr, kind => kind = .fair
  | .priority, _ | .adaptiveHybrid, _ | .other _, _ => True

/-- The algorithm returns no request with such a deadline too late: it finds it in the heap alone,
with a deadline other than zero, or not at all. -/
def SchedulingAlgorithm.KeepsDeadline : SchedulingAlgorithm → ℚ → Prop
  | .rr, _ | .wrr, _ => True
  | .edf, seconds | .adaptiveHybrid, seconds | .other _, seconds => seconds ≠ 0
  | .fifo, _ | .priority, _ | .fair, _ => False

namespace EDFQueue

variable {queue : EDFQueue}

theorem not_le_of_expireLoop (now : ℚ) (turns : ℕ) (queue : EDFQueue)
    (enough : queue.heap.size ≤ turns) {slot : WithTop ℚ × ℕ × QueueEntry}
    {heap : Array (WithTop ℚ × ℕ × QueueEntry)}
    (popped : heappop before (expireLoop now turns queue).2.heap = some (slot, heap)) :
    ¬ slot.1 ≤ (now : WithTop ℚ) := by
  induction turns generalizing queue with
  | zero =>
    have empty : queue.heap = #[] := Array.eq_empty_of_size_eq_zero (Nat.le_zero.mp enough)
    rw [expireLoop, (heappop_eq_none_iff before).mpr empty] at popped
    cases popped
  | succ turns ih =>
    rw [expireLoop] at popped
    cases root : heappop before queue.heap with
    | none =>
      simp only [root] at popped
      cases popped
    | some found =>
      rcases found with ⟨first, rest⟩
      rw [root] at popped
      dsimp only at popped
      split at popped
      · have size := (toList_perm_of_heappop before root).2.length_eq
        simp only [Array.length_toList, List.length_cons] at size
        exact ih { queue with heap := rest } (by dsimp only; omega) popped
      next current =>
        rw [root] at popped
        cases popped
        exact current

theorem not_due_of_pop_expired (dated : queue.Dated) {now : ℚ} {entry : QueueEntry}
    (popped : (queue.expired now).2.pop.1 = some entry) : ¬ entry.due ≤ (now : WithTop ℚ) := by
  rw [EDFQueue.pop] at popped
  cases root : heappop before (queue.expired now).2.heap with
  | none =>
    rw [root] at popped
    cases popped
  | some found =>
    rw [root] at popped
    cases popped
    have member := (toList_perm_of_heappop before root).2.mem_iff.mpr List.mem_cons_self
    rw [← (expired_loses dated now).2.1 found.1 member]
    exact not_le_of_expireLoop now queue.heap.size queue (Nat.le_refl _) root

end EDFQueue

namespace SchedulerEngineImpl

variable {engine after : SchedulerEngineImpl} {admitted : ScheduleRequest → Prop}

/-- The entry waits in the given structure. -/
def HoldsIn (engine : SchedulerEngineImpl) : QueueKind → QueueEntry → Prop
  | .fifo => engine.fifo.Holds
  | .edf => engine.edf.Holds
  | .fair => engine.fair.Holds

theorem holds_iff {entry : QueueEntry} :
    engine.Holds entry ↔ ∃ kind, engine.HoldsIn kind entry := by
  constructor
  · rintro (inFifo | inEdf | inFair)
    · exact ⟨.fifo, inFifo⟩
    · exact ⟨.edf, inEdf⟩
    · exact ⟨.fair, inFair⟩
  · rintro ⟨_ | _ | _, holds⟩
    · exact .inl holds
    · exact .inr (.inl holds)
    · exact .inr (.inr holds)

theorem inspects_iff {entry : QueueEntry} : engine.Inspects entry ↔
    ∃ kind, engine.schedulerPolicy.algorithm.PopsFrom kind ∧ engine.HoldsIn kind entry := by
  unfold Inspects SchedulingAlgorithm.PopsFrom
  cases engine.schedulerPolicy.algorithm with
  | priority | adaptiveHybrid | other => simpa using holds_iff
  | _ => simp [HoldsIn]

/-- No structure holds anything new. -/
def Shrinks (engine after : SchedulerEngineImpl) : Prop :=
  ∀ kind entry, after.HoldsIn kind entry → engine.HoldsIn kind entry

theorem shrinks_of_parts (fifo : ∀ entry, after.fifo.Holds entry → engine.fifo.Holds entry)
    (edf : ∀ entry, after.edf.Holds entry → engine.edf.Holds entry)
    (fair : ∀ entry, after.fair.Holds entry → engine.fair.Holds entry) : Shrinks engine after := by
  intro kind
  cases kind with
  | fifo => exact fifo
  | edf => exact edf
  | fair => exact fair

/-- The selected entry comes from a structure that the algorithm pops from; from the heap it is
the root. -/
structure Finds (engine : SchedulerEngineImpl)
    (result : Option QueueEntry × SchedulerEngineImpl) : Prop where
  shrinks : Shrinks engine result.2
  found : ∀ entry, result.1 = some entry → ∃ kind,
    engine.schedulerPolicy.algorithm.PopsFrom kind ∧ engine.HoldsIn kind entry ∧
      (kind = .edf → engine.edf.pop.1 = some entry)

variable {entry : Option QueueEntry}

theorem finds_of_fifo {fifo : PriorityQueueManager}
    (pops : Pops PriorityQueueManager.container engine.fifo (entry, fifo))
    (among : engine.schedulerPolicy.algorithm.PopsFrom .fifo) :
    engine.Finds (entry, { engine with fifo }) where
  shrinks := shrinks_of_parts pops.loses.subset (fun _ => id) (fun _ => id)
  found := fun taken isTaken => ⟨.fifo, among, (pops.taken taken isTaken).1, by simp⟩

theorem finds_of_fair {fair : WeightedFairQueue}
    (pops : Pops WeightedFairQueue.container engine.fair (entry, fair))
    (among : engine.schedulerPolicy.algorithm.PopsFrom .fair) :
    engine.Finds (entry, { engine with fair }) where
  shrinks := shrinks_of_parts (fun _ => id) (fun _ => id) pops.loses.subset
  found := fun taken isTaken => ⟨.fair, among, (pops.taken taken isTaken).1, by simp⟩

theorem finds_of_edf {edf : EDFQueue} (popped : engine.edf.pop = (entry, edf))
    (pops : Pops EDFQueue.container engine.edf (entry, edf))
    (among : engine.schedulerPolicy.algorithm.PopsFrom .edf) :
    engine.Finds (entry, { engine with edf }) where
  shrinks := shrinks_of_parts (fun _ => id) pops.loses.subset (fun _ => id)
  found := by
    intro taken isTaken
    refine ⟨.edf, among, (pops.taken taken isTaken).1, fun _ => ?_⟩
    rw [popped]
    exact isTaken

section

variable (accounted : engine.Accounted)
include accounted

theorem finds_selectHybrid (nowMs : ℚ)
    (among : ∀ kind, engine.schedulerPolicy.algorithm.PopsFrom kind) :
    engine.Finds (engine.selectHybrid nowMs) := by
  have edfPops := EDFQueue.pops_pop accounted.edf
  have fairPops := pops_popWfq accounted.fair nowMs
  have fifoPops := pops_pop accounted.fifo
  rw [selectHybrid]
  cases fromEdf : engine.edf.pop with
  | mk first edf =>
  rw [fromEdf] at edfPops
  cases first with
  | some entry => exact finds_of_edf fromEdf edfPops (among .edf)
  | none =>
    cases fromFair : engine.fair.popWfq nowMs with
    | mk second fair =>
    rw [fromFair] at fairPops
    cases second with
    | some entry =>
      refine ⟨shrinks_of_parts (fun _ => id) edfPops.loses.subset fairPops.loses.subset, ?_⟩
      intro taken isTaken
      exact ⟨.fair, among .fair, (fairPops.taken taken isTaken).1, by simp⟩
    | none =>
      refine ⟨shrinks_of_parts fifoPops.loses.subset edfPops.loses.subset fairPops.loses.subset, ?_⟩
      intro taken isTaken
      exact ⟨.fifo, among .fifo, (fifoPops.taken taken isTaken).1, by simp⟩

theorem finds_select (nowMs : ℚ) : engine.Finds (engine.select nowMs) := by
  have edf := EDFQueue.pops_pop accounted.edf
  have fair := accounted.fair
  rw [select]
  split
  next is => exact finds_of_edf rfl edf (by rw [is]; rfl)
  next is => exact finds_of_fifo (pops_pop accounted.fifo) (by rw [is]; rfl)
  next is => exact finds_of_fair (pops_popWfq fair nowMs) (by rw [is]; rfl)
  next is => exact finds_of_fair (pops_popWrr fair) (by rw [is]; rfl)
  next is => exact finds_of_fair (pops_popRr fair) (by rw [is]; rfl)
  next is => exact finds_selectHybrid accounted nowMs fun _ => by rw [is]; trivial
  next is => exact finds_selectHybrid accounted nowMs fun _ => by rw [is]; trivial
  next is => exact finds_selectHybrid accounted nowMs fun _ => by rw [is]; trivial

theorem shrinks_staff (nowMs : ℚ) : Shrinks engine (engine.staff nowMs) :=
  shrinks_of_parts (fun _ => id) (EDFQueue.expired_loses accounted.edf nowMs).1.subset (fun _ => id)

theorem shrinks_dequeue (instant : Instant) : Shrinks engine (engine.dequeue instant).2 := by
  have expired := shrinks_staff accounted (instant.mono * 1000)
  have staffed : (engine.staff (instant.mono * 1000)).Accounted :=
    { accounted_expire accounted _ with }
  rcases dequeue_cases engine instant with
    ⟨-, same⟩ | ⟨-, -, -, same⟩ | ⟨selected, ⟨-, -, -, selects⟩, outcome⟩
  · rw [same]
    exact fun _ _ => id
  · rw [same]
    exact expired
  · have shrinks := (finds_select staffed (instant.mono * 1000)).shrinks
    rw [selects] at shrinks
    have left : Shrinks engine selected.2 :=
      fun kind entry holds => expired kind entry (shrinks kind entry holds)
    rcases outcome with ⟨-, same⟩ | ⟨entry, -, same⟩
    · rw [same]
      exact shrinks_of_parts (left .fifo) (left .edf) (left .fair)
    · rw [same]
      exact shrinks_of_parts (left .fifo) (left .edf) (left .fair)

theorem exists_of_dequeue {instant : Instant} {plan : DispatchPlan}
    (returned : (engine.dequeue instant).1 = some plan) :
    engine.running ∧ ¬ engine.paused ∧ engine.workers.acquired < engine.workers.poolSize ∧
      ∃ kind entry, engine.schedulerPolicy.algorithm.PopsFrom kind ∧ engine.HoldsIn kind entry ∧
        (kind = .edf → ¬ entry.due ≤ ((instant.mono * 1000 : ℚ) : WithTop ℚ)) ∧
        (plan.Overdue ↔ entry.Overdue (instant.mono * 1000)) := by
  have staffed : (engine.staff (instant.mono * 1000)).Accounted :=
    { accounted_expire accounted _ with }
  rcases dequeue_cases engine instant with
    ⟨-, same⟩ | ⟨-, -, -, same⟩ | ⟨selected, ⟨running, unpaused, free, selects⟩, outcome⟩
  · rw [same] at returned
    cases returned
  · rw [same] at returned
    cases returned
  · rcases outcome with ⟨-, same⟩ | ⟨entry, taken, same⟩
    · rw [same] at returned
      cases returned
    · rw [same] at returned
      cases returned
      have finds := finds_select staffed (instant.mono * 1000)
      rw [selects] at finds
      rcases finds.found entry taken with ⟨kind, among, holds, root⟩
      refine ⟨running, unpaused, free, kind, entry, among,
        shrinks_staff accounted _ kind entry holds, ?_, ?_⟩
      · exact fun isEdf => EDFQueue.not_due_of_pop_expired accounted.edf (root isEdf)
      · simp only [DispatchPlan.Overdue, QueueEntry.Overdue, dispatch]
        simp only [lt_sub_iff_add_lt, add_comm]

end

section

variable (engine : SchedulerEngineImpl)

theorem shrinks_cancel (id : ℕ) : Shrinks engine (engine.cancel id).2 := by
  have fifo : ∀ entry, (engine.fifo.remove id).2.Holds entry → engine.fifo.Holds entry := by
    rcases removeFrom_cases engine.fifo id PriorityLevel.all with
      kept | ⟨level, found, removed⟩
    · rw [PriorityQueueManager.remove, kept]
      exact fun _ holds => holds
    · rw [PriorityQueueManager.remove, removed]
      exact (loses_shorten (eraseP_item found).2.1 (eraseP_item found).2.2).subset
  have edf := (EDFQueue.remove_loses engine.edf id).subset
  have fair : ∀ entry, (engine.fair.remove id).2.Holds entry → engine.fair.Holds entry := by
    rcases remove_cases engine.fair id with kept | ⟨group, found, removed⟩
    · rw [kept]
      exact fun _ holds => holds
    · rw [removed]
      exact (loses_shorten (eraseP_item found).2.1 (eraseP_item found).2.2).subset
  rw [cancel]
  cases fromFifo : engine.fifo.remove id with
  | mk found left =>
  rw [fromFifo] at fifo
  cases found with
  | true => exact shrinks_of_parts fifo (fun _ holds => holds) (fun _ holds => holds)
  | false =>
    cases fromEdf : engine.edf.remove id with
    | mk found rest =>
    rw [fromEdf] at edf
    cases found with
    | true => exact shrinks_of_parts fifo edf (fun _ holds => holds)
    | false => exact shrinks_of_parts fifo edf fair

theorem shrinks_start : Shrinks engine engine.start := by
  rw [start]
  split
  · exact fun _ _ holds => holds
  · exact shrinks_of_parts (fun _ holds => holds) (fun _ holds => holds) (fun _ holds => holds)

theorem schedulerPolicy_start : engine.start.schedulerPolicy = engine.schedulerPolicy := by
  rw [start]
  split
  · rfl
  · rfl

theorem schedulerPolicy_stop : engine.stop.schedulerPolicy = engine.schedulerPolicy := by
  rw [stop]
  split
  · rfl
  · rfl

theorem shrinks_stop : Shrinks engine engine.stop := by
  by_cases running : engine.running
  · have empty : ∀ entry, ¬ engine.stop.Holds entry := not_holds_stop running
    exact shrinks_of_parts (fun entry holds => absurd (.inl holds) (empty entry))
      (fun entry holds => absurd (.inr (.inl holds)) (empty entry))
      (fun entry holds => absurd (.inr (.inr holds)) (empty entry))
  · rw [stop, if_pos running]
    exact fun _ _ holds => holds

end

/-! ## Where the entries come from -/

theorem place_kind (engine : SchedulerEngineImpl) (request : ScheduleRequest)
    (added : QueueEntry) :
    (engine.place request added).2 =
      match request.kind engine.schedulerPolicy.algorithm with
      | .fifo => { engine with fifo := (engine.fifo.push added).2 }
      | .edf => { engine with edf := engine.edf.push added }
      | .fair => { engine with fair := engine.fair.push request.group added } := by
  have hybrid : (if request.deadlineS.isSome then
        (true, { engine with edf := engine.edf.push added })
      else if request.group ≠ "" then
        (true, { engine with fair := engine.fair.push request.group added })
      else ((engine.fifo.push added).1, { engine with fifo := (engine.fifo.push added).2 })).2 =
      match (if request.deadlineS.isSome then QueueKind.edf
        else if request.group ≠ "" then .fair else .fifo) with
      | .fifo => { engine with fifo := (engine.fifo.push added).2 }
      | .edf => { engine with edf := engine.edf.push added }
      | .fair => { engine with fair := engine.fair.push request.group added } := by
    split
    · rfl
    · split
      · rfl
      · rfl
  rw [place, ScheduleRequest.kind.eq_def]
  cases engine.schedulerPolicy.algorithm with
  | edf | fair | fifo | priority => rfl
  | _ => exact hybrid

variable {request : ScheduleRequest}

theorem holdsIn_place {added : QueueEntry} (kind : QueueKind) (entry : QueueEntry)
    (holds : (engine.place request added).2.HoldsIn kind entry) : engine.HoldsIn kind entry ∨
      (kind = request.kind engine.schedulerPolicy.algorithm ∧ entry = added) := by
  rw [place_kind] at holds
  cases target : request.kind engine.schedulerPolicy.algorithm with
  | fifo =>
    rw [target] at holds
    cases kind with
    | fifo => exact (holds_push.mp holds).imp_right fun new => ⟨rfl, new.2⟩
    | edf | fair => exact .inl holds
  | edf =>
    rw [target] at holds
    cases kind with
    | fifo | fair => exact .inl holds
    | edf => exact (EDFQueue.holds_push.mp holds).imp_right fun new => ⟨rfl, new⟩
  | fair =>
    rw [target] at holds
    cases kind with
    | fifo | edf => exact .inl holds
    | fair => exact (holds_push.mp holds).imp_right fun new => ⟨rfl, new⟩

/-- Each entry that waits is that of an admitted request, in the structure of this request. -/
def Requested (admitted : ScheduleRequest → Prop) (engine : SchedulerEngineImpl) : Prop :=
  ∀ kind entry, engine.HoldsIn kind entry → ∃ request id instant, admitted request ∧
    kind = request.kind engine.schedulerPolicy.algorithm ∧ entry = request.entry id instant

theorem Requested.of_shrinks (requested : Requested admitted engine)
    (shrinks : Shrinks engine after) (policy : after.schedulerPolicy = engine.schedulerPolicy) :
    Requested admitted after := by
  intro kind entry holds
  rw [policy]
  exact requested kind entry (shrinks kind entry holds)

theorem Requested.enqueue (requested : Requested admitted engine) (accounted : engine.Accounted)
    (instant : Instant) (allowed : admitted request) :
    Requested admitted (engine.enqueue instant request).2 := by
  have policy := (enqueues_enqueue accounted instant request).policy
  intro kind entry holds
  rw [policy]
  rcases enqueue_cases accounted instant request with ⟨-, -, same⟩ | ⟨-, drawn, rfl, outcome⟩
  · rw [same] at holds
    exact requested kind entry holds
  · rcases outcome with ⟨-, -, same⟩ | ⟨placed, rfl, -, balancer, same⟩
    · rw [same] at holds
      exact requested kind entry holds
    · rw [same] at holds
      rcases holdsIn_place kind entry holds with before | ⟨rfl, rfl⟩
      · exact requested kind entry before
      · exact ⟨request, _, instant, allowed, rfl, rfl⟩

def Admits (admitted : ScheduleRequest → Prop) : Call → Prop
  | .enqueue _ request => admitted request
  | .dequeue _ | .cancel _ | .pause | .resume | .start | .stop => True

theorem schedulerPolicy_step (accounted : engine.Accounted) (call : Call) :
    (engine.step call).schedulerPolicy = engine.schedulerPolicy := by
  cases call with
  | enqueue instant request => exact (enqueues_enqueue accounted instant request).policy
  | dequeue instant => exact (dequeues_dequeue accounted instant).setting.policy
  | cancel id => exact (removes_cancel accounted id).setting.policy
  | pause | resume => rfl
  | start => exact schedulerPolicy_start engine
  | stop => exact schedulerPolicy_stop engine

theorem Requested.step (requested : Requested admitted engine) (accounted : engine.Accounted)
    {call : Call} (admits : Admits admitted call) : Requested admitted (engine.step call) := by
  have policy := schedulerPolicy_step accounted call
  cases call with
  | enqueue instant request => exact requested.enqueue accounted instant admits
  | dequeue instant => exact requested.of_shrinks (shrinks_dequeue accounted instant) policy
  | cancel id => exact requested.of_shrinks (shrinks_cancel engine id) policy
  | pause | resume => exact requested
  | start => exact requested.of_shrinks (shrinks_start engine) policy
  | stop => exact requested.of_shrinks (shrinks_stop engine) policy

/-- The call returns an item that is past its deadline. -/
def ReturnsOverdue (engine : SchedulerEngineImpl) : Call → Prop
  | .dequeue instant => ∃ plan, (engine.dequeue instant).1 = some plan ∧ plan.Overdue
  | .enqueue _ _ | .cancel _ | .pause | .resume | .start | .stop => False

/-- Where `dequeue` is about to dispatch, only entries that the heap has under a deadline are past
theirs, among those that it may pop. -/
def Punctual (engine : SchedulerEngineImpl) : Call → Prop
  | .dequeue instant =>
    engine.running → ¬ engine.paused → engine.workers.acquired < engine.workers.poolSize →
      ∀ kind entry, engine.schedulerPolicy.algorithm.PopsFrom kind → engine.HoldsIn kind entry →
        entry.Overdue (instant.mono * 1000) → kind = .edf ∧ entry.deadlineMs ≠ none
  | .enqueue _ _ | .cancel _ | .pause | .resume | .start | .stop => True

/-- What is known of the entries in every run. -/
structure Traced (admitted : ScheduleRequest → Prop) (engine : SchedulerEngineImpl) : Prop where
  accounted : engine.Accounted
  requested : Requested admitted engine

theorem Traced.step (traced : Traced admitted engine) {call : Call}
    (admits : Admits admitted call) : Traced admitted (engine.step call) :=
  ⟨step_accounted traced.accounted call, traced.requested.step traced.accounted admits⟩

theorem traced_create (admitted : ScheduleRequest → Prop) (maxQueue workerPool : ℤ)
    (algorithm : SchedulingAlgorithm) (high low : ℚ) :
    Traced admitted (create maxQueue workerPool algorithm high low) := by
  refine ⟨accounted_create maxQueue workerPool algorithm high low, ?_⟩
  rintro (_ | _ | _) entry holds
  · rcases holds with ⟨level, impossible⟩
    exact absurd impossible List.not_mem_nil
  · rcases holds with ⟨slot, impossible, -⟩
    exact absurd impossible List.not_mem_nil
  · rcases holds with ⟨group, entries, impossible, -⟩
    cases impossible

theorem not_returnsOverdue (traced : Traced admitted engine) {call : Call}
    (punctual : Punctual engine call) : ¬ ReturnsOverdue engine call := by
  cases call with
  | dequeue instant =>
    rintro ⟨plan, returned, overdue⟩
    rcases exists_of_dequeue traced.accounted returned with
      ⟨running, unpaused, free, kind, entry, among, holds, current, same⟩
    have late := same.mp overdue
    rcases punctual running unpaused free kind entry among holds late with ⟨isEdf, dated⟩
    rcases traced.requested kind entry holds with ⟨request, id, enqueued, -, -, rfl⟩
    rcases (overdue_entry_iff request id enqueued _).mp late with ⟨seconds, given, -, passed⟩
    -- Had it a deadline in the heap, it would have been dropped.
    apply current isEdf
    rw [due_entry given]
    split
    next zero => simp [ScheduleRequest.entry, given, zero, Option.filter] at dated
    · exact WithTop.coe_le_coe.mpr passed.le
  | enqueue | cancel | pause | resume | start | stop => exact id

theorem Traced.punctual (traced : Traced admitted engine)
    (kept : ∀ request, admitted request → ∀ seconds, request.deadlineS = some seconds →
      0 ≤ seconds → engine.schedulerPolicy.algorithm.KeepsDeadline seconds) (call : Call) :
    Punctual engine call := by
  cases call with
  | dequeue instant =>
    intro _ _ _ kind entry among holds late
    rcases traced.requested kind entry holds with ⟨request, id, enqueued, allowed, rfl, rfl⟩
    rcases (overdue_entry_iff request id enqueued _).mp late with ⟨seconds, given, nonneg, -⟩
    have keeps := kept request allowed seconds given nonneg
    unfold ScheduleRequest.kind at among ⊢
    unfold SchedulingAlgorithm.PopsFrom at among
    unfold SchedulingAlgorithm.KeepsDeadline at keeps
    cases algorithm : engine.schedulerPolicy.algorithm with
    | rr | wrr => simp [algorithm, given] at among
    | fifo | priority | fair => simp [algorithm] at keeps
    | _ =>
      simp only [algorithm] at keeps
      simp [ScheduleRequest.entry, given, keeps, Option.filter]
  | enqueue | cancel | pause | resume | start | stop => trivial

/-! ## The deadlines that are missed -/

section

variable (accounted : engine.Accounted) (running : engine.running) (unpaused : ¬ engine.paused)
include accounted running unpaused

theorem holdsIn_enqueue (room : engine.totalDepth < engine.schedulerPolicy.maxQueueDepth)
    (instant : Instant) (request : ScheduleRequest) : (engine.enqueue instant request).2.HoldsIn
      (request.kind engine.schedulerPolicy.algorithm) (request.entry engine.nextItem instant) := by
  have fair := accounted.fair.nonneg
  have fits : ¬ engine.fifo.maxSize ≤ engine.fifo.total := by
    have size := accounted.size
    rw [totalDepth] at room
    omega
  have placed : ∀ drawn : SchedulerEngineImpl, drawn.fifo = engine.fifo →
      drawn.schedulerPolicy = engine.schedulerPolicy →
      (drawn.place request (request.entry engine.nextItem instant)).2.HoldsIn
        (request.kind engine.schedulerPolicy.algorithm)
        (request.entry engine.nextItem instant) := by
    intro drawn sameFifo samePolicy
    rw [place_kind, samePolicy]
    cases request.kind engine.schedulerPolicy.algorithm with
    | fifo =>
      refine holds_push.mpr (.inr ⟨?_, rfl⟩)
      rw [sameFifo, PriorityQueueManager.push, if_neg fits]
    | edf => exact EDFQueue.holds_push.mpr (.inr rfl)
    | fair => exact holds_push.mpr (.inr rfl)
  rw [enqueue, if_neg (not_not.mpr running), if_neg unpaused]
  dsimp only
  rw [if_neg (fun full => absurd full.1 (not_le.mpr room))]
  split
  · exact placed { engine with
      nextItem := engine.nextItem + 1
      backpressure := engine.backpressure.update engine.totalDepth } rfl rfl
  · exact placed { engine with
      nextItem := engine.nextItem + 1
      backpressure := engine.backpressure.update engine.totalDepth } rfl rfl

theorem returnsOverdue_of_alone (free : engine.workers.acquired < engine.workers.poolSize)
    {kind : QueueKind} {entry : QueueEntry} {instant : Instant}
    (among : engine.schedulerPolicy.algorithm.PopsFrom kind) (holds : engine.HoldsIn kind entry)
    (alone : ∀ kind other, engine.HoldsIn kind other → other = entry)
    (stays : kind = .edf → ¬ entry.due ≤ ((instant.mono * 1000 : ℚ) : WithTop ℚ))
    (late : entry.Overdue (instant.mono * 1000)) : ReturnsOverdue engine (.dequeue instant) := by
  have waits : (engine.staff (instant.mono * 1000)).Inspects entry := by
    refine inspects_iff.mpr ⟨kind, among, ?_⟩
    cases kind with
    | fifo | fair => exact holds
    | edf =>
      exact ((EDFQueue.expired_loses accounted.edf _).1.kept entry holds).resolve_right (stays rfl)
  obtain ⟨plan, returned⟩ := Option.isSome_iff_exists.mp
    (isSome_dequeue_of_waits accounted running unpaused free waits)
  rcases exists_of_dequeue accounted returned with
    ⟨-, -, -, place, other, -, held, -, same⟩
  obtain rfl := alone place other held
  exact ⟨plan, returned, same.mpr late⟩

end

theorem popsFrom_of_missed {algorithm : SchedulingAlgorithm} (request : ScheduleRequest)
    {seconds : ℚ} (missed : ¬ algorithm.KeepsDeadline seconds) :
    algorithm.PopsFrom (request.kind algorithm) ∧
      (request.kind algorithm = .edf → seconds = 0) := by
  unfold SchedulingAlgorithm.PopsFrom ScheduleRequest.kind
  cases algorithm with
  | rr | wrr => exact absurd trivial missed
  | edf => exact ⟨rfl, fun _ => not_not.mp missed⟩
  | adaptiveHybrid | other => exact ⟨trivial, fun _ => not_not.mp missed⟩
  | _ => simp

theorem exists_returnsOverdue {maxQueue workerPool : ℤ} {algorithm : SchedulingAlgorithm}
    (opened : 1 ≤ maxQueue) (staffed : 1 ≤ workerPool) (high low : ℚ) {seconds : ℚ}
    (given : request.deadlineS = some seconds) (nonneg : 0 ≤ seconds)
    (missed : ¬ algorithm.KeepsDeadline seconds) :
    ReturnsOverdue (run step (create maxQueue workerPool algorithm high low)
      [.start, .enqueue ⟨0, 0⟩ request]) (.dequeue ⟨seconds + 1, seconds + 1⟩) := by
  have created := accounted_create maxQueue workerPool algorithm high low
  have started := accounted_start created
  have room : (create maxQueue workerPool algorithm high low).start.totalDepth < maxQueue := by
    change (0 : ℤ) + 0 + 0 < maxQueue
    omega
  have enqueues := enqueues_enqueue started ⟨0, 0⟩ request
  have holds := holdsIn_enqueue started rfl Bool.false_ne_true room ⟨0, 0⟩ request
  have late : (request.entry 0 ⟨0, 0⟩).Overdue ((seconds + 1) * 1000) :=
    (overdue_entry_iff _ _ _ _).mpr ⟨seconds, given, nonneg, by dsimp only; linarith⟩
  rcases popsFrom_of_missed request missed with ⟨among, zero⟩
  refine returnsOverdue_of_alone enqueues.accounted enqueues.running ?_ ?_ ?_ holds ?_ ?_ late
  · rw [enqueues.paused]
    exact Bool.false_ne_true
  · rw [enqueues.workers]
    change (0 : ℤ) < workerPool
    omega
  · rw [enqueues.policy]
    exact among
  · intro kind other held
    rcases enqueues.held other (holds_iff.mpr ⟨kind, held⟩) with before | ⟨-, same⟩
    · rcases holds_iff.mp before with ⟨place, inside⟩
      rcases (traced_create (fun _ => False) maxQueue workerPool algorithm high low).requested
        place other (shrinks_start _ place other inside) with ⟨_, _, _, impossible, -⟩
      exact impossible.elim
    · exact same
  · intro isEdf
    rw [due_entry given, if_pos (zero isEdf)]
    exact not_le_of_gt (WithTop.coe_lt_top _)

/-- No item is dispatched past its deadline in a run in which, whenever `dequeue` is about to
dispatch, the entries that it may pop are not past theirs or wait in the heap under a deadline. For
every run of such requests it is so exactly if the algorithm keeps their deadlines. -/
theorem deadlines_kept (maxQueue workerPool : ℤ) (algorithm : SchedulingAlgorithm) (high low : ℚ) :
    (∀ calls, Along step Punctual (create maxQueue workerPool algorithm high low) calls →
      Along step (fun engine call => ¬ ReturnsOverdue engine call)
        (create maxQueue workerPool algorithm high low) calls) ∧
    (1 ≤ maxQueue → 1 ≤ workerPool → ∀ admitted : ScheduleRequest → Prop,
      (∀ calls, (∀ call ∈ calls, Admits admitted call) →
        Along step (fun engine call => ¬ ReturnsOverdue engine call)
          (create maxQueue workerPool algorithm high low) calls) ↔
      ∀ request, admitted request → ∀ seconds, request.deadlineS = some seconds →
        0 ≤ seconds → algorithm.KeepsDeadline seconds) := by
  refine ⟨?_, fun opened staffed admitted => ⟨?_, ?_⟩⟩
  · intro calls punctual
    have anything : ∀ call, Admits (fun _ => True) call := by
      intro call
      cases call with
      | enqueue | dequeue | cancel | pause | resume | start | stop => trivial
    exact punctual.imp_of_invariant
      (fun engine call (traced : Traced (fun _ => True) engine) _ => traced.step (anything call))
      (fun engine call traced => not_returnsOverdue traced)
      (traced_create _ maxQueue workerPool algorithm high low)
  · intro always request allowed seconds given nonneg
    by_contra missed
    have along := always [.start, .enqueue ⟨0, 0⟩ request, .dequeue ⟨seconds + 1, seconds + 1⟩]
      (by simpa [Admits] using allowed)
    exact along.2.2.1 (exists_returnsOverdue opened staffed high low given nonneg missed)
  · intro kept calls admits
    have along : Along step (fun _ call => Admits admitted call)
        (create maxQueue workerPool algorithm high low) calls :=
      .of_forall_mem (fun call member _ => admits call member) _
    have preserved : ∀ (engine : SchedulerEngineImpl) (call : Call),
        Traced admitted engine ∧ engine.schedulerPolicy.algorithm = algorithm →
        Admits admitted call →
        Traced admitted (engine.step call) ∧
          (engine.step call).schedulerPolicy.algorithm = algorithm := by
      rintro engine call ⟨traced, same⟩ admits
      refine ⟨traced.step admits, ?_⟩
      rw [schedulerPolicy_step traced.accounted call]
      exact same
    apply along.imp_of_invariant preserved
    · rintro engine call ⟨traced, same⟩ -
      apply not_returnsOverdue traced
      apply traced.punctual
      rw [same]
      exact kept
    · exact ⟨traced_create admitted maxQueue workerPool algorithm high low, rfl⟩

/-- A request that is to be answered within the given time. -/
def withinSeconds (seconds : ℚ) : ScheduleRequest where
  provider := "p"
  model := "m"
  deadlineS := some seconds

theorem heap_keeps_five : Along step (fun engine call => ¬ ReturnsOverdue engine call)
      (create 500 32 .adaptiveHybrid (9 / 10) (1 / 2))
      [.start, .enqueue ⟨0, 0⟩ (withinSeconds 5), .dequeue ⟨4, 4⟩, .dequeue ⟨6, 6⟩] := by
  have kept := (deadlines_kept 500 32 .adaptiveHybrid (9 / 10) (1 / 2)).2 (by norm_num)
    (by norm_num) fun request => request = withinSeconds 5
  apply kept.mpr
  · rintro request rfl seconds ⟨⟩ -
    exact (by norm_num : (5 : ℚ) ≠ 0)
  · simp [Admits]

/-- The fair queues return an item a second too late, and so does the heap where the deadline is
zero seconds. -/
theorem fair_returns_late : ReturnsOverdue (run step (create 500 32 .fair (9 / 10) (1 / 2))
        [.start, .enqueue ⟨0, 0⟩ (withinSeconds 5)]) (.dequeue ⟨5 + 1, 5 + 1⟩) ∧
      ReturnsOverdue (run step (create 500 32 .edf (9 / 10) (1 / 2))
        [.start, .enqueue ⟨0, 0⟩ (withinSeconds 0)]) (.dequeue ⟨0 + 1, 0 + 1⟩) :=
  ⟨exists_returnsOverdue (by norm_num) (by norm_num) _ _ rfl (by norm_num) id,
    exists_returnsOverdue (by norm_num) (by norm_num) _ _ rfl le_rfl fun keeps => keeps rfl⟩

end SchedulerEngineImpl

end AgenticOS.OmniRoute
