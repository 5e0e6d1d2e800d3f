import AgenticOS.Data.Dict
import AgenticOS.Transition.Pool
import AgenticOS.Transition.Run

/-!
# The local event bus

The running bus has workers that take items from a queue and call the handler of the item
with its event. A handler publishes finitely many events and ends; so does everybody else
who publishes, among them the bus itself when it flushes what was published before it was
started. To publish is to put an item for each subscribed handler into the queue; who finds
the queue full waits for room. A bus without workers starts a task for each item instead.

A process is a worker or somebody who publishes. It is suspended where it waits; what else a
handler does between two events is no concern of the bus, and may take any time.
-/

namespace AgenticOS.EventBus

open Transition List

universe u

structure EventEnvelope where
  id : String
  topic : String
deriving DecidableEq

/-- A handler and the event that it is to be called with. -/
abbrev Item (η : Type u) := η × EventEnvelope

structure Store (η : Type u) where
  queueCapacity : Int := 10000
  workerCount : Nat := 16
  /-- topic -> {sub_id -> handler} -/
  topics : Dict String (Dict String η) := .empty
  queue : List (Item η) := []
  /-- Tasks that have been created and have not begun. -/
  tasks : List (Item η) := []
  /-- The events that were dispatched, each with each handler subscribed then. -/
  dispatched : List (Item η) := []
  /-- The events that were handed to handlers. -/
  handed : List (Item η) := []

namespace Store

variable {η : Type u}

/-- `queue.full()`: a queue without a positive capacity never is. -/
def full (store : Store η) : Bool :=
  0 < store.queueCapacity ∧ store.queueCapacity ≤ store.queue.length

def handlers (store : Store η) (topic : String) : List η :=
  ((store.topics.get? topic).map Dict.values).getD []

/-- `subscribe`, with the hexadecimal digits of a new UUID. -/
def subscribe (store : Store η) (topic : String) (handler : η) (hex : String) : Store η :=
  let subscriptions := (store.topics.get? topic).getD .empty
  { store with
    topics := store.topics.set topic (subscriptions.set (topic ++ ":" ++ hex) handler) }

/-- `subscription_id.split(":", 1)[0]`. -/
def topicOf (subscriptionId : String) : String :=
  String.ofList (subscriptionId.toList.takeWhile fun char => char ≠ ':')

def unsubscribe (store : Store η) (subscriptionId : String) : Store η :=
  match store.topics.get? (topicOf subscriptionId) with
  | none => store
  | some subscriptions =>
    { store with
      topics :=
        store.topics.set (topicOf subscriptionId) (subscriptions.erase subscriptionId) }

end Store

/-- A process rests: a worker until there is an item, anybody else for ever. Or it has
events to publish, and waits, if it does, to put an event for the first of some handlers. -/
inductive Activity (η : Type u) where
  | resting
  | active (toPublish : List EventEnvelope)
  | waiting (event : EventEnvelope) (handlers : List η) (toPublish : List EventEnvelope)

structure Process (η : Type u) where
  isWorker : Bool
  activity : Activity η

variable {η : Type u}

/-- Put an event into the queue for one handler after the other, as long as there is room. -/
def putAll (store : Store η) (event : EventEnvelope) (toPublish : List EventEnvelope) :
    List η → Store η × Activity η
  | [] => (store, .active toPublish)
  | handler :: handlers =>
    if store.full then (store, .waiting event (handler :: handlers) toPublish)
    else
      putAll { store with queue := store.queue ++ [(handler, event)] } event toPublish handlers

def dispatch (store : Store η) (event : EventEnvelope) (toPublish : List EventEnvelope) :
    Store η × Activity η :=
  let handlers := store.handlers event.topic
  let items := handlers.map fun handler => (handler, event)
  let store := { store with dispatched := store.dispatched ++ items }
  if 0 < store.workerCount then putAll store event toPublish handlers
  else ({ store with tasks := store.tasks ++ items }, .active toPublish)

/-- Publish the next event, or go on putting one; at the end a worker is back in its loop. -/
def proceed (store : Store η) : Activity η → Store η × Activity η
  | .resting => (store, .resting)
  | .active [] => (store, .resting)
  | .active (event :: toPublish) => dispatch store event toPublish
  | .waiting event handlers toPublish => putAll store event toPublish handlers

def next (store : Store η) (process : Process η) : Store η × Process η :=
  let (store, activity) := proceed store process.activity
  (store, { process with activity })

/-- `_worker_loop` gets an item and calls its handler, which is going to publish some
events. -/
def handle (toPublish : List EventEnvelope) (store : Store η) (process : Process η) :
    Store η × Process η :=
  match process, store.queue with
  | ⟨true, .resting⟩, item :: queue =>
    ({ store with queue, handed := store.handed ++ [item] }, ⟨true, .active toPublish⟩)
  | _, _ => (store, process)

/-- The bus with its workers and with those who publish. -/
abbrev Bus (η : Type u) := Pool (Store η) (Process η)

/-- Somebody subscribes, unsubscribes or begins to publish; a worker takes an item, or a
task begins, whose handler is going to publish some events; or a process goes on. -/
inductive Action (η : Type u) where
  | subscribe (topic : String) (handler : η) (hex : String)
  | unsubscribe (subscriptionId : String)
  | publish (events : List EventEnvelope)
  | handle (index : Nat) (toPublish : List EventEnvelope)
  | begin (position : Nat) (toPublish : List EventEnvelope)
  | proceed (index : Nat)

/-- One step, without a suspension. -/
def step (bus : Bus η) : Action η → Bus η
  | .subscribe topic handler hex => { bus with store := bus.store.subscribe topic handler hex }
  | .unsubscribe subscriptionId => { bus with store := bus.store.unsubscribe subscriptionId }
  | .publish events => bus.spawn bus.store ⟨false, .active events⟩
  | .handle index toPublish => bus.resume (handle toPublish) index
  | .begin position toPublish =>
    match bus.store.tasks[position]? with
    | none => bus
    | some item =>
      let store :=
        { bus.store with
          tasks := bus.store.tasks.eraseIdx position
          handed := bus.store.handed ++ [item] }
      bus.spawn store ⟨false, .active toPublish⟩
  | .proceed index => bus.resume next index

/-- `start`: there are the workers, and what has been published before is flushed. -/
def start (queueCapacity : Int) (workerCount : Nat) (topics : Dict String (Dict String η))
    (pending : List EventEnvelope) : Bus η where
  store := { queueCapacity, workerCount, topics }
  processes := replicate workerCount ⟨true, .resting⟩ ++ [⟨false, .active pending⟩]

/-!
## Nothing is lost and nothing is delivered twice

An event that has been dispatched for a handler has been handed to it, or it is in the queue
or with a task that has not begun, or somebody waits to put it into the queue; in every
state of every run it is at exactly one of these places.
-/

variable {η : Type u}

namespace Activity

def pending : Activity η → List (Item η)
  | .waiting event handlers _ => handlers.map fun handler => (handler, event)
  | _ => []

end Activity

/-- Some published event has not been handed to a handler yet. -/
def Undelivered (bus : Bus η) : Prop :=
  bus.store.queue ≠ [] ∨ bus.store.tasks ≠ [] ∨
    ∃ process ∈ bus.processes, process.activity.pending ≠ []

/-- Each event has been handed to each handler as often as it was dispatched for it. -/
def Delivered (bus : Bus η) : Prop :=
  bus.store.handed.Perm bus.store.dispatched

section

variable [DecidableEq η]

/-- How often an item is still to be handed over, and has been. -/
def Store.placed (store : Store η) (item : Item η) : Nat :=
  store.handed.count item + store.queue.count item + store.tasks.count item

/-- What was dispatched is placed, or is still to be. -/
def Conserved (bus : Bus η) : Prop :=
  ∀ item, bus.store.dispatched.count item =
    bus.store.placed item + bus.total fun process => process.activity.pending.count item

theorem putAll_conserves (store : Store η) (event : EventEnvelope)
    (toPublish : List EventEnvelope) (handlers : List η) (item : Item η) :
    (putAll store event toPublish handlers).1.dispatched = store.dispatched ∧
      (putAll store event toPublish handlers).1.placed item +
          (putAll store event toPublish handlers).2.pending.count item =
        store.placed item + (handlers.map fun handler => (handler, event)).count item := by
  induction handlers generalizing store with
  | nil => exact ⟨rfl, rfl⟩
  | cons handler handlers ih =>
    unfold putAll
    split
    case isTrue => exact ⟨rfl, rfl⟩
    case isFalse =>
      have rest := ih
        { store with queue := store.queue ++ [(handler, event)] }
      refine ⟨rest.1, ?_⟩
      rw [rest.2]
      simp only [Store.placed, count_append, map_cons, count_cons, count_nil]
      omega

theorem proceed_conserves (store : Store η) (activity : Activity η) (item : Item η) :
    (proceed store activity).1.dispatched.count item + store.placed item +
        activity.pending.count item =
      store.dispatched.count item + (proceed store activity).1.placed item +
        (proceed store activity).2.pending.count item := by
  cases activity with
  | resting => rfl
  | active toPublish =>
    cases toPublish with
    | nil => rfl
    | cons event toPublish =>
      unfold proceed dispatch
      dsimp only
      split
      case isTrue =>
        have put := putAll_conserves
          { store with
            dispatched := store.dispatched ++
              (store.handlers event.topic).map fun handler => (handler, event) }
          event toPublish (store.handlers event.topic) item
        rw [put.1]
        simp only [Store.placed, count_append, Activity.pending, count_nil] at *
        omega
      case isFalse =>
        simp only [Store.placed, count_append, Activity.pending, count_nil]
        omega
  | waiting event handlers toPublish =>
    have put := putAll_conserves store event toPublish handlers item
    unfold proceed
    rw [put.1]
    simp only [Activity.pending] at *
    omega

theorem handle_conserves (toPublish : List EventEnvelope) (store : Store η)
    (process : Process η) (item : Item η) :
    (handle toPublish store process).1.dispatched = store.dispatched ∧
      (handle toPublish store process).1.placed item = store.placed item ∧
      (handle toPublish store process).2.activity.pending = process.activity.pending := by
  unfold handle
  split
  case h_1 taken queue present =>
    refine ⟨rfl, ?_, rfl⟩
    simp only [Store.placed, present, count_append, count_cons, count_nil]
    omega
  case h_2 => exact ⟨rfl, rfl, rfl⟩

variable {bus : Bus η}

section

variable (conserved : Conserved bus)
include conserved

theorem Conserved.of_places {later : Bus η}
    (dispatched : later.store.dispatched = bus.store.dispatched)
    (placed : ∀ item, later.store.placed item = bus.store.placed item)
    (processes : later.processes = bus.processes) : Conserved later := by
  intro item
  rw [dispatched, placed, Pool.total, processes]
  exact conserved item

theorem Conserved.resume (index : Nat) {next : Store η → Process η → Store η × Process η}
    (conserves : ∀ process item,
      (next bus.store process).1.dispatched.count item + bus.store.placed item +
          process.activity.pending.count item =
        bus.store.dispatched.count item + (next bus.store process).1.placed item +
          (next bus.store process).2.activity.pending.count item) :
    Conserved (bus.resume next index) := by
  cases lookup : bus.processes[index]? with
  | none =>
    rw [Pool.resume_of_none lookup]
    exact conserved
  | some process =>
    intro item
    have before := conserved item
    have change := conserves process item
    have total : (bus.resume next index).total
        (fun process => process.activity.pending.count item) + _ = _ :=
      Pool.total_resume _ lookup
    rw [Pool.resume_of_some lookup] at total ⊢
    dsimp only at total ⊢
    omega

theorem Conserved.spawn {store : Store η} (dispatched : store.dispatched = bus.store.dispatched)
    (placed : ∀ item, store.placed item = bus.store.placed item) (toPublish : List EventEnvelope) :
    Conserved (bus.spawn store ⟨false, .active toPublish⟩) := by
  intro item
  have before := conserved item
  rw [Pool.total_spawn]
  show store.dispatched.count item = store.placed item + _
  rw [dispatched, placed]
  exact before

theorem Conserved.step (action : Action η) : Conserved (step bus action) := by
  cases action with
  | subscribe topic handler hex => exact conserved.of_places rfl (fun _ => rfl) rfl
  | unsubscribe subscriptionId =>
    unfold EventBus.step Store.unsubscribe
    dsimp only
    split
    · exact conserved
    · exact conserved.of_places rfl (fun _ => rfl) rfl
  | publish events => exact conserved.spawn rfl (fun _ => rfl) events
  | handle index toPublish =>
    apply conserved.resume index
    intro process item
    have handled := handle_conserves toPublish bus.store process item
    rw [handled.1, handled.2.1, handled.2.2]
  | begin position toPublish =>
    unfold EventBus.step
    dsimp only
    split
    case h_1 => exact conserved
    case h_2 taken present =>
      refine conserved.spawn (by rfl) (fun item => ?_) toPublish
      obtain ⟨inside, rfl⟩ := List.getElem?_eq_some_iff.mp present
      have tasks := (getElem_cons_eraseIdx_perm inside).count_eq item
      simp only [Store.placed, count_append, count_cons, count_nil] at *
      omega
  | proceed index =>
    apply conserved.resume index
    intro process item
    exact proceed_conserves bus.store process.activity item

end

theorem conserved_start (queueCapacity : Int) (workerCount : Nat)
    (topics : Dict String (Dict String η)) (pending : List EventEnvelope) :
    Conserved (start queueCapacity workerCount topics pending) := by
  intro item
  simp [start, Store.placed, Pool.total, Activity.pending]

/-- Where every event is delivered, each was delivered exactly once. -/
theorem Conserved.delivered (conserved : Conserved bus) (settled : ¬ Undelivered bus) :
    Delivered bus := by
  unfold Undelivered at settled
  push Not at settled
  obtain ⟨noQueue, noTasks, noPending⟩ := settled
  apply perm_iff_count.mpr
  intro item
  have nothing : bus.total (fun process => process.activity.pending.count item) = 0 := by
    apply sum_eq_zero
    intro count member
    obtain ⟨process, present, rfl⟩ := mem_map.mp member
    simp [noPending process present]
  rw [conserved item, nothing, Store.placed, noQueue, noTasks]
  rfl

end

end AgenticOS.EventBus
