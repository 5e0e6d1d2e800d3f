import AgenticOS.EventBus.Local

/-!
# When the bus is stuck

The handlers run on the workers, and what they publish goes into the queue of the workers:
when the last worker that is not waiting publishes more than the queue has room for, all
workers wait for room that only a worker could make. This is the only way in which the bus
gets stuck before everything is delivered.
-/

namespace AgenticOS.EventBus

open Transition List Pool

universe u

variable {η : Type u}

namespace Action

/-- An action of the bus itself, and not of its users. -/
def Internal : Action η → Prop
  | .handle _ _ | .begin _ _ | .proceed _ => True
  | .subscribe _ _ _ | .unsubscribe _ | .publish _ => False

end Action

/-- Nothing happens any more, unless somebody from outside does something. -/
def Stuck (bus : Bus η) : Prop :=
  ∀ action : Action η, action.Internal → step bus action = bus

namespace Activity

def Waits : Activity η → Prop
  | .waiting _ _ _ => True
  | _ => False

instance (activity : Activity η) : Decidable activity.Waits :=
  match activity with
  | .waiting _ _ _ => .isTrue trivial
  | .resting | .active _ => .isFalse id

end Activity

/-- There are workers, and all of them wait to put an item. -/
def AllWait (bus : Bus η) : Prop :=
  (∃ process ∈ bus.processes, process.isWorker) ∧
    ∀ process ∈ bus.processes, process.isWorker → process.activity.Waits

/-- All workers are blocked: they wait to put an item, and the queue is full. -/
def Blocked (bus : Bus η) : Prop :=
  bus.store.full ∧ AllWait bus

instance (bus : Bus η) : Decidable (Blocked bus) :=
  inferInstanceAs (Decidable (_ ∧ (∃ process ∈ bus.processes, _) ∧
    ∀ process ∈ bus.processes, _ → _))

/-- While something is undelivered the bus is not stuck, and never are all workers blocked
waiting to enqueue. -/
def Progress (bus : Bus η) : Prop :=
  (Undelivered bus → ¬ Stuck bus) ∧ ¬ Blocked bus

variable (store : Store η)

/-- There is room in the queue for so many items. -/
def Store.Room (count : Nat) : Prop :=
  0 < store.queueCapacity → store.queue.length + count ≤ store.queueCapacity
deriving Decidable

def OthersWait (bus : Bus η) (index : Nat) : Prop :=
  ∀ position process, bus.processes[position]? = some process → position ≠ index →
    process.isWorker → process.activity.Waits

/-- The last worker that does not wait publishes an event for no more handlers than there is
room for. -/
def Fits (bus : Bus η) : Action η → Prop
  | .proceed index => ∀ event toPublish,
      bus.processes[index]? = some ⟨true, .active (event :: toPublish)⟩ → OthersWait bus index →
        bus.store.Room (bus.store.handlers event.topic).length
  | _ => True

theorem putAll_waits_iff {store : Store η} (within : store.Room 0) (event : EventEnvelope)
    (toPublish : List EventEnvelope) (handlers : List η) :
    (putAll store event toPublish handlers).2.Waits ↔ ¬ store.Room handlers.length := by
  induction handlers generalizing store with
  | nil => exact iff_of_false id (not_not_intro within)
  | cons handler handlers ih =>
    unfold putAll
    split
    case isTrue full =>
      apply iff_of_true trivial
      intro room
      have bounded := room (of_decide_eq_true full).1
      have reached := (of_decide_eq_true full).2
      rw [length_cons] at bounded
      omega
    case isFalse notFull =>
      rw [ih]
      · simp only [Store.Room, length_append, length_cons, length_nil]
        omega
      · simp only [Store.full, decide_eq_true_eq] at notFull
        simp only [Store.Room, length_append, length_cons, length_nil]
        omega

theorem putAll_full {store : Store η} {event : EventEnvelope} {toPublish : List EventEnvelope}
    {handlers : List η} (waits : (putAll store event toPublish handlers).2.Waits) :
    (putAll store event toPublish handlers).1.full := by
  induction handlers generalizing store with
  | nil => exact waits.elim
  | cons handler handlers ih =>
    unfold putAll at waits ⊢
    split
    case isTrue full => exact full
    case isFalse notFull =>
      rw [if_neg notFull] at waits
      exact ih waits

/-- The queue stays within its capacity, and nothing but the queue changes. -/
theorem putAll_within {store : Store η} (within : store.Room 0) (event : EventEnvelope)
    (toPublish : List EventEnvelope) (handlers : List η) :
    (putAll store event toPublish handlers).1.Room 0 := by
  induction handlers generalizing store with
  | nil => exact within
  | cons handler handlers ih =>
    unfold putAll
    split
    case isTrue => exact within
    case isFalse notFull =>
      apply ih
      simp only [Store.full, decide_eq_true_eq] at notFull
      simp only [Store.Room, length_append, length_cons, length_nil]
      omega

theorem workerCount_putAll (event : EventEnvelope)
    (toPublish : List EventEnvelope) (handlers : List η) :
    (putAll store event toPublish handlers).1.workerCount = store.workerCount := by
  induction handlers generalizing store with
  | nil => rfl
  | cons handler handlers ih =>
    unfold putAll
    split
    · rfl
    · exact ih _

/-- The queue is within its capacity, the workers are as many as were started, and without
workers nobody uses the queue. -/
structure Manned (bus : Bus η) : Prop where
  within : bus.store.Room 0
  workers : bus.count Process.isWorker = bus.store.workerCount
  unused : bus.store.workerCount = 0 → bus.store.queue = [] ∧
    ∀ process ∈ bus.processes, ¬ process.activity.Waits

theorem manned_start (queueCapacity : Int) (workerCount : Nat)
    (topics : Dict String (Dict String η)) (pending : List EventEnvelope) :
    Manned (start queueCapacity workerCount topics pending) where
  within positive := Int.le_of_lt positive
  workers := by
    unfold start Pool.count
    rw [countP_append, countP_replicate]
    simp
  unused _ := by
    refine ⟨rfl, fun process member => ?_⟩
    rcases mem_append.mp member with worker | publisher
    · rw [eq_of_mem_replicate worker]
      exact id
    · rw [mem_singleton.mp publisher]
      exact id

theorem workerCount_proceed (activity : Activity η) :
    (proceed store activity).1.workerCount = store.workerCount := by
  cases activity with
  | resting => rfl
  | active toPublish =>
    cases toPublish with
    | nil => rfl
    | cons event toPublish =>
      unfold proceed dispatch
      dsimp only
      split
      · exact workerCount_putAll _ event toPublish _
      · rfl
  | waiting event handlers toPublish => exact workerCount_putAll store event toPublish handlers

theorem within_proceed {store : Store η} (within : store.Room 0) (activity : Activity η) :
    (proceed store activity).1.Room 0 := by
  cases activity with
  | resting => exact within
  | active toPublish =>
    cases toPublish with
    | nil => exact within
    | cons event toPublish =>
      unfold proceed dispatch
      dsimp only
      split
      · have recorded : Store.Room { store with
            dispatched := store.dispatched ++
              (store.handlers event.topic).map fun handler => (handler, event) } 0 := within
        exact putAll_within recorded event toPublish _
      · exact within
  | waiting event handlers toPublish => exact putAll_within within event toPublish handlers

theorem unused_proceed {store : Store η} {activity : Activity η}
    (noWorkers : store.workerCount = 0) (waitsNot : ¬ activity.Waits) :
    (proceed store activity).1.queue = store.queue ∧ ¬ (proceed store activity).2.Waits := by
  cases activity with
  | resting => exact ⟨rfl, id⟩
  | active toPublish =>
    cases toPublish with
    | nil => exact ⟨rfl, id⟩
    | cons event toPublish =>
      unfold proceed dispatch
      rw [noWorkers]
      exact ⟨rfl, id⟩
  | waiting event handlers toPublish => exact absurd trivial waitsNot

/-- What one process does: its kind stays, the queue stays within its capacity, and without
workers it stays unused. -/
structure Keeps (store : Store η) (process : Process η) (after : Store η × Process η) :
    Prop where
  kind : after.2.isWorker = process.isWorker
  workerCount : after.1.workerCount = store.workerCount
  within : store.Room 0 → after.1.Room 0
  unused : store.workerCount = 0 → store.queue = [] → ¬ process.activity.Waits →
    after.1.queue = [] ∧ ¬ after.2.activity.Waits

theorem keeps_next (process : Process η) : Keeps store process (next store process) where
  kind := rfl
  workerCount := workerCount_proceed store process.activity
  within within := within_proceed within process.activity
  unused noWorkers empty waitsNot := by
    have unused := unused_proceed noWorkers waitsNot
    exact ⟨unused.1.trans empty, unused.2⟩

theorem keeps_handle (toPublish : List EventEnvelope) (store : Store η)
    (process : Process η) : Keeps store process (handle toPublish store process) := by
  unfold handle
  split
  case h_1 item queue present =>
    exact {
      kind := rfl
      workerCount := rfl
      within := fun within positive => by
        have bounded := within positive
        rw [present, length_cons] at bounded
        simp only
        omega
      unused := fun _ empty _ => by simp [present] at empty }
  case h_2 => exact ⟨rfl, rfl, id, fun _ empty waitsNot => ⟨empty, waitsNot⟩⟩

theorem Manned.resume {bus : Bus η} (manned : Manned bus)
    {next : Store η → Process η → Store η × Process η} (index : Nat)
    (keeps : ∀ process, Keeps bus.store process (next bus.store process)) :
    Manned (bus.resume next index) where
  within := by
    cases lookup : bus.processes[index]? with
    | none =>
      rw [resume_of_none lookup]
      exact manned.within
    | some process =>
      rw [resume_of_some lookup]
      exact (keeps process).within manned.within
  workers := by
    have balanced : ∀ process ∈ bus.processes,
        (next bus.store process).1.workerCount + (if process.isWorker then 1 else 0) =
          bus.store.workerCount + if (next bus.store process).2.isWorker then 1 else 0 := by
      intro process _
      rw [(keeps process).workerCount, (keeps process).kind]
    exact count_resume index balanced manned.workers
  unused := by
    cases lookup : bus.processes[index]? with
    | none =>
      rw [resume_of_none lookup]
      exact manned.unused
    | some process =>
      rw [resume_of_some lookup]
      intro noWorkers
      have noneBefore : bus.store.workerCount = 0 := by
        rw [← (keeps process).workerCount]
        exact noWorkers
      obtain ⟨empty, waitsNot⟩ := manned.unused noneBefore
      have unused := (keeps process).unused noneBefore empty
        (waitsNot process (mem_of_getElem? lookup))
      refine ⟨unused.1, fun other member => ?_⟩
      rcases mem_or_eq_of_mem_set member with old | rfl
      · exact waitsNot other old
      · exact unused.2

theorem Manned.of_queue {bus : Bus η} (manned : Manned bus) {store : Store η}
    (queue : store.queue = bus.store.queue)
    (capacity : store.queueCapacity = bus.store.queueCapacity)
    (workerCount : store.workerCount = bus.store.workerCount) : Manned { bus with store } where
  within := by
    unfold Store.Room
    rw [queue, capacity]
    exact manned.within
  workers := by
    rw [workerCount]
    exact manned.workers
  unused := by
    rw [queue, workerCount]
    exact manned.unused

theorem Manned.spawn {bus : Bus η} (manned : Manned bus) (events : List EventEnvelope) :
    Manned (bus.spawn bus.store ⟨false, .active events⟩) where
  within := manned.within
  workers := by
    rw [count_spawn]
    exact manned.workers
  unused noWorkers := by
    obtain ⟨empty, waitsNot⟩ := manned.unused noWorkers
    exact ⟨empty, spawn_invariant bus.store waitsNot id⟩

theorem Manned.step {bus : Bus η} (manned : Manned bus) (action : Action η) :
    Manned (step bus action) := by
  cases action with
  | subscribe topic handler hex => exact manned.of_queue rfl rfl rfl
  | unsubscribe subscriptionId =>
    unfold EventBus.step Store.unsubscribe
    dsimp only
    split
    · exact manned
    · exact manned.of_queue rfl rfl rfl
  | publish events => exact manned.spawn events
  | handle index toPublish => exact manned.resume index (keeps_handle toPublish bus.store)
  | begin position toPublish =>
    unfold EventBus.step
    dsimp only
    split
    case h_1 => exact manned
    case h_2 item _ =>
      have begun : Manned { bus with
          store := { bus.store with
            tasks := bus.store.tasks.eraseIdx position
            handed := bus.store.handed ++ [item] } } := manned.of_queue rfl rfl rfl
      exact begun.spawn toPublish
  | proceed index => exact manned.resume index (keeps_next bus.store)

/-! ## All workers wait -/

theorem forall_mem_set_iff {α : Type u} {property : α → Prop} {items : List α} {index : Nat}
    {old new : α} (present : items[index]? = some old) :
    (∀ item ∈ items.set index new, property item) ↔
      property new ∧ ∀ position item, items[position]? = some item → position ≠ index →
        property item := by
  have inside : index < items.length := (List.getElem?_eq_some_iff.mp present).1
  constructor
  · intro all
    constructor
    · exact all new (mem_set inside new)
    · intro position item atPosition distinct
      apply all item
      apply mem_of_getElem?
      rw [getElem?_set_ne distinct.symm]
      exact atPosition
  · rintro ⟨atIndex, others⟩ item member
    obtain ⟨position, atPosition⟩ := mem_iff_getElem?.mp member
    rw [getElem?_set] at atPosition
    split at atPosition
    case isTrue same =>
      cases atPosition
      exact atIndex
    case isFalse distinct => exact others position item atPosition (.symm distinct)

theorem mem_resume_of_other {bus : Bus η} {index : Nat} {process worker : Process η}
    {next : Store η → Process η → Store η × Process η}
    (present : bus.processes[index]? = some process) (other : ¬ process.isWorker)
    (kind : (next bus.store process).2.isWorker = process.isWorker) (isWorker : worker.isWorker) :
    worker ∈ (bus.resume next index).processes ↔ worker ∈ bus.processes := by
  rw [resume_of_some present]
  constructor
  · intro member
    rcases mem_or_eq_of_mem_set member with old | rfl
    · exact old
    · rw [kind] at isWorker
      exact absurd isWorker other
  · intro member
    obtain ⟨position, atPosition⟩ := mem_iff_getElem?.mp member
    have distinct : index ≠ position := by
      rintro rfl
      cases present.symm.trans atPosition
      exact other isWorker
    apply mem_of_getElem?
    rw [getElem?_set_ne distinct]
    exact atPosition

theorem allWait_congr {bus later : Bus η} (same : ∀ worker, worker.isWorker →
    (worker ∈ later.processes ↔ worker ∈ bus.processes)) : AllWait later ↔ AllWait bus := by
  constructor
  · rintro ⟨⟨worker, member, isWorker⟩, waits⟩
    exact ⟨⟨worker, (same worker isWorker).mp member, isWorker⟩,
      fun process member isWorker => waits process ((same process isWorker).mpr member) isWorker⟩
  · rintro ⟨⟨worker, member, isWorker⟩, waits⟩
    exact ⟨⟨worker, (same worker isWorker).mpr member, isWorker⟩,
      fun process member isWorker => waits process ((same process isWorker).mp member) isWorker⟩

theorem allWait_spawn_iff {bus : Bus η} (store : Store η) (events : List EventEnvelope) :
    AllWait (bus.spawn store ⟨false, .active events⟩) ↔ AllWait bus := by
  apply allWait_congr
  intro worker isWorker
  constructor
  · intro member
    rcases mem_append.mp member with old | new
    · exact old
    · rw [mem_singleton.mp new] at isWorker
      cases isWorker
  · exact fun member => mem_append_left _ member

theorem allWait_resume_of_worker {bus : Bus η} {index : Nat} {process : Process η}
    {next : Store η → Process η → Store η × Process η}
    (present : bus.processes[index]? = some process) (worker : process.isWorker)
    (kind : (next bus.store process).2.isWorker = process.isWorker) :
    AllWait (bus.resume next index) ↔
      (next bus.store process).2.activity.Waits ∧ OthersWait bus index := by
  have isWorker : (next bus.store process).2.isWorker := by rw [kind, worker]
  have inside : index < bus.processes.length := (List.getElem?_eq_some_iff.mp present).1
  rw [resume_of_some present]
  unfold AllWait OthersWait
  rw [forall_mem_set_iff present]
  constructor
  · rintro ⟨-, waits, others⟩
    exact ⟨waits isWorker, others⟩
  · rintro ⟨waits, others⟩
    exact ⟨⟨_, mem_set inside _, isWorker⟩, fun _ => waits, others⟩

theorem allWait_of_resume {bus : Bus η} {index : Nat}
    {next : Store η → Process η → Store η × Process η}
    (kind : ∀ process, (next bus.store process).2.isWorker = process.isWorker)
    (waited : ∀ process, bus.processes[index]? = some process → process.isWorker →
      OthersWait bus index → (next bus.store process).2.activity.Waits → process.activity.Waits)
    (all : AllWait (bus.resume next index)) : AllWait bus := by
  cases lookup : bus.processes[index]? with
  | none =>
    rw [resume_of_none lookup] at all
    exact all
  | some process =>
    by_cases worker : process.isWorker
    · obtain ⟨waits, others⟩ := (allWait_resume_of_worker lookup worker (kind process)).mp all
      refine ⟨⟨process, mem_of_getElem? lookup, worker⟩, fun other member isWorker => ?_⟩
      obtain ⟨position, atPosition⟩ := mem_iff_getElem?.mp member
      by_cases same : position = index
      · subst same
        cases lookup.symm.trans atPosition
        exact waited process lookup worker others waits
      · exact others position other atPosition same isWorker
    · have same : ∀ other, other.isWorker →
          (other ∈ (bus.resume next index).processes ↔ other ∈ bus.processes) :=
        fun _ => mem_resume_of_other lookup worker (kind process)
      exact (allWait_congr same).mp all

theorem waits_of_waits_handle {toPublish : List EventEnvelope} {store : Store η}
    {process : Process η} (waits : (handle toPublish store process).2.activity.Waits) :
    process.activity.Waits := by
  unfold handle at waits
  split at waits
  · exact waits.elim
  · exact waits

/-- The last worker that does not wait begins to wait if and only if it publishes an event
for more handlers than there is room for, and then it has found the queue full. -/
theorem dispatch_waits_iff {store : Store η} (within : store.Room 0)
    (workers : 0 < store.workerCount) (event : EventEnvelope) (toPublish : List EventEnvelope) :
    (dispatch store event toPublish).2.Waits ↔
      ¬ store.Room (store.handlers event.topic).length := by
  have recorded : Store.Room { store with
      dispatched := store.dispatched ++
        (store.handlers event.topic).map fun handler => (handler, event) } 0 := within
  unfold dispatch
  rw [if_pos workers]
  exact putAll_waits_iff recorded event toPublish (store.handlers event.topic)

theorem proceed_full {store : Store η} {activity : Activity η}
    (waits : (proceed store activity).2.Waits) : (proceed store activity).1.full := by
  cases activity with
  | resting => exact waits.elim
  | active toPublish =>
    cases toPublish with
    | nil => exact waits.elim
    | cons event toPublish =>
      unfold proceed dispatch at waits ⊢
      dsimp only at waits ⊢
      split
      case isTrue workers =>
        rw [if_pos workers] at waits
        exact putAll_full waits
      case isFalse none =>
        rw [if_neg none] at waits
        exact waits.elim
  | waiting event handlers toPublish => exact putAll_full waits

theorem Manned.workers_pos {bus : Bus η} (manned : Manned bus) {process : Process η}
    (member : process ∈ bus.processes) (isWorker : process.isWorker) :
    0 < bus.store.workerCount := by
  rw [← manned.workers]
  exact countP_pos_iff.mpr ⟨process, member, isWorker⟩

theorem allWait_proceed_iff {bus : Bus η} (manned : Manned bus) (notAll : ¬ AllWait bus)
    (index : Nat) : AllWait (bus.resume next index) ↔ ¬ Fits bus (.proceed index) := by
  constructor
  · intro all fits
    apply notAll
    apply allWait_of_resume (fun _ => rfl) _ all
    intro process present worker others waits
    obtain ⟨isWorker, activity⟩ := process
    obtain rfl : isWorker = true := worker
    cases activity with
    | resting => exact waits
    | active toPublish =>
      cases toPublish with
      | nil => exact waits
      | cons event toPublish =>
        have workers := manned.workers_pos (mem_of_getElem? present) rfl
        have tooMany := (dispatch_waits_iff manned.within workers event toPublish).mp waits
        exact absurd (fits event toPublish present others) tooMany
    | waiting event handlers toPublish => trivial
  · intro tooMany
    unfold Fits at tooMany
    push Not at tooMany
    obtain ⟨event, toPublish, present, others, noRoom⟩ := tooMany
    have workers := manned.workers_pos (mem_of_getElem? present) rfl
    apply (allWait_resume_of_worker present rfl rfl).mpr
    exact ⟨(dispatch_waits_iff manned.within workers event toPublish).mpr noRoom, others⟩

/-- Where not all workers wait, a step makes them wait if and only if the last one publishes
more than fits. -/
theorem allWait_step_iff {bus : Bus η} (manned : Manned bus) (notAll : ¬ AllWait bus)
    (action : Action η) : AllWait (step bus action) ↔ ¬ Fits bus action := by
  cases action with
  | subscribe | unsubscribe => exact iff_of_false notAll (not_not_intro trivial)
  | publish events =>
    exact iff_of_false (mt (allWait_spawn_iff bus.store events).mp notAll) (not_not_intro trivial)
  | handle index toPublish =>
    apply iff_of_false _ (not_not_intro trivial)
    apply mt _ notAll
    apply allWait_of_resume fun process => (keeps_handle toPublish bus.store process).kind
    exact fun process _ _ _ => waits_of_waits_handle
  | begin position toPublish =>
    apply iff_of_false _ (not_not_intro trivial)
    unfold EventBus.step
    dsimp only
    split
    · exact notAll
    · exact mt (allWait_spawn_iff _ toPublish).mp notAll
  | proceed index => exact allWait_proceed_iff manned notAll index

theorem full_step {bus : Bus η} (manned : Manned bus) (notAll : ¬ AllWait bus)
    {action : Action η} (all : AllWait (step bus action)) : (step bus action).store.full := by
  have tooMany := (allWait_step_iff manned notAll action).mp all
  cases action with
  | proceed index =>
    unfold Fits at tooMany
    push Not at tooMany
    obtain ⟨event, toPublish, present, others, noRoom⟩ := tooMany
    have workers := manned.workers_pos (mem_of_getElem? present) rfl
    have waits : (proceed bus.store (.active (event :: toPublish))).2.Waits :=
      (dispatch_waits_iff manned.within workers event toPublish).mpr noRoom
    show (bus.resume next index).store.full
    rw [resume_of_some present]
    exact proceed_full waits
  | _ => exact absurd trivial tooMany

/-! ## Something can happen -/

theorem putAll_snd (event : EventEnvelope) (toPublish : List EventEnvelope) (handlers : List η) :
    (putAll store event toPublish handlers).2 = .active toPublish ∨
      (putAll store event toPublish handlers).2.Waits := by
  induction handlers generalizing store with
  | nil => exact .inl rfl
  | cons handler handlers ih =>
    unfold putAll
    split
    · exact .inr trivial
    · exact ih _

theorem queue_putAll_ne_nil {store : Store η} (event : EventEnvelope)
    (toPublish : List EventEnvelope) {handlers : List η}
    (used : store.queue ≠ [] ∨ store.full = false ∧ handlers ≠ []) :
    (putAll store event toPublish handlers).1.queue ≠ [] := by
  induction handlers generalizing store with
  | nil => exact used.resolve_right fun room => room.2 rfl
  | cons handler handlers ih =>
    unfold putAll
    split
    case isTrue full =>
      exact used.resolve_right fun room => by
        rw [room.1] at full
        cases full
    case isFalse => exact ih (.inl (by simp))

theorem proceed_active_ne (toPublish : List EventEnvelope) :
    (proceed store (.active toPublish)).2 ≠ .active toPublish := by
  cases toPublish with
  | nil => nofun
  | cons event toPublish =>
    have shorter : (.active toPublish : Activity η) ≠ .active (event :: toPublish) := by
      intro same
      exact cons_ne_self event toPublish (Activity.active.inj same).symm
    unfold proceed dispatch
    dsimp only
    split
    case isTrue =>
      intro same
      rcases putAll_snd _ event toPublish _ with active | waits
      · exact shorter (active.symm.trans same)
      · rw [same] at waits
        exact waits
    case isFalse => exact shorter

theorem Stuck.of_proceed {bus : Bus η} (stuck : Stuck bus) {index : Nat}
    {process : Process η} (present : bus.processes[index]? = some process) :
    proceed bus.store process.activity = (bus.store, process.activity) := by
  have unchanged : bus.resume next index = bus := stuck (.proceed index) trivial
  have finished := over_of_resume_eq unchanged present
  have store : (proceed bus.store process.activity).1 = bus.store :=
    congrArg (fun result => result.1) finished
  have activity : (proceed bus.store process.activity).2 = process.activity :=
    congrArg (fun result => result.2.activity) finished
  exact Prod.ext store activity

theorem not_stuck {bus : Bus η} (manned : Manned bus) (notAll : ¬ AllWait bus)
    (undelivered : Undelivered bus) : ¬ Stuck bus := by
  intro stuck
  have noTasks : bus.store.tasks = [] := by
    by_contra some
    obtain ⟨item, tasks, present⟩ := exists_cons_of_ne_nil some
    have began := stuck (.begin 0 []) trivial
    unfold EventBus.step at began
    rw [present] at began
    have longer := congrArg (fun bus => bus.processes.length) began
    simp [spawn] at longer
  have nobodyWaits : bus.store.queue = [] →
      ∀ process ∈ bus.processes, process.activity.pending = [] := by
    intro empty process member
    obtain ⟨index, present⟩ := mem_iff_getElem?.mp member
    have unchanged := stuck.of_proceed present
    cases activity : process.activity with
    | waiting event handlers toPublish =>
      by_contra some
      have handlersNe : handlers ≠ [] := by
        rintro rfl
        exact some rfl
      have room : bus.store.full = false := by
        simp only [Store.full, empty, length_nil, decide_eq_false_iff_not]
        omega
      rw [activity] at unchanged
      have filled := queue_putAll_ne_nil event toPublish (.inr ⟨room, handlersNe⟩)
      exact filled ((congrArg (fun result => result.1.queue) unchanged).trans empty)
    | _ => rfl
  have queued : bus.store.queue ≠ [] := by
    intro empty
    rcases undelivered with queue | tasks | ⟨process, member, some⟩
    · exact queue empty
    · exact tasks noTasks
    · exact some (nobodyWaits empty process member)
  have workers : 0 < bus.store.workerCount :=
    Nat.pos_of_ne_zero fun none => queued (manned.unused none).1
  -- There is a worker that does not wait, so it rests, and can take an item.
  rw [← manned.workers] at workers
  obtain ⟨worker, member, isWorker⟩ := countP_pos_iff.mp workers
  apply notAll
  refine ⟨⟨worker, member, isWorker⟩, fun process member isWorker => ?_⟩
  obtain ⟨index, present⟩ := mem_iff_getElem?.mp member
  obtain ⟨kind, activity⟩ := process
  obtain rfl : kind = true := isWorker
  cases activity with
  | waiting event handlers toPublish => trivial
  | active toPublish =>
    have unchanged := congrArg Prod.snd (stuck.of_proceed present)
    exact absurd unchanged (proceed_active_ne bus.store toPublish)
  | resting =>
    have unchanged : bus.resume (handle []) index = bus := stuck (.handle index []) trivial
    have finished := over_of_resume_eq unchanged present
    obtain ⟨item, queue, split⟩ := exists_cons_of_ne_nil queued
    unfold handle at finished
    rw [split] at finished
    have rests := congrArg (fun result => result.2.activity) finished
    cases rests

/-- The invariant of all runs: all workers wait only if the queue is full. -/
structure Running (bus : Bus η) : Prop where
  manned : Manned bus
  full : AllWait bus → bus.store.full

theorem progress_step_iff {bus : Bus η} (running : Running bus) (progress : Progress bus)
    (action : Action η) : Progress (step bus action) ↔ Fits bus action := by
  have notAll : ¬ AllWait bus := fun all => progress.2 ⟨running.full all, all⟩
  have allIff := allWait_step_iff running.manned notAll action
  constructor
  · rintro ⟨-, notBlocked⟩
    by_contra tooMany
    have all := allIff.mpr tooMany
    exact notBlocked ⟨full_step running.manned notAll all, all⟩
  · intro fits
    have notAllNext : ¬ AllWait (step bus action) := fun all => allIff.mp all fits
    exact ⟨not_stuck (running.manned.step action) notAllNext, fun blocked =>
      notAllNext blocked.2⟩

theorem Running.step {bus : Bus η} (running : Running bus) (progress : Progress bus)
    (action : Action η) : Running (step bus action) where
  manned := running.manned.step action
  full all := by
    have notAll : ¬ AllWait bus := fun all => progress.2 ⟨running.full all, all⟩
    exact full_step running.manned notAll all

theorem not_allWait_start (queueCapacity : Int) (workerCount : Nat)
    (topics : Dict String (Dict String η)) (pending : List EventEnvelope) :
    ¬ AllWait (start queueCapacity workerCount topics pending) := by
  rintro ⟨⟨process, member, isWorker⟩, waits⟩
  have waitsNow := waits process member isWorker
  rcases mem_append.mp member with worker | publisher
  · rw [eq_of_mem_replicate worker] at waitsNow
    exact waitsNow
  · rw [mem_singleton.mp publisher] at isWorker
    cases isWorker

/-- The handler of a task publishes a note, for which there are two handlers. -/
def notingTask : List (Action Nat) :=
  [.subscribe "task" 0 "a", .subscribe "note" 1 "b", .subscribe "note" 2 "c",
    .publish [⟨"first", "task"⟩], .proceed 2, .handle 0 [⟨"second", "note"⟩], .proceed 0]

end AgenticOS.EventBus
