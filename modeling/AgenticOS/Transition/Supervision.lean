import AgenticOS.Transition.Run

/-!
# Supervised workers

A record is worked on by workers, each for a definition it was started with. A table names at
most one of them. A worker that has begun takes itself off the table when it is over, whoever
stands there; one that is cancelled before it begins does not.

A cancellation asks the worker in the table to stop, waits until it is over, takes the entry
off the table, writes the record that it had read as cancelled, and publishes this. It fails
if the worker ended with an exception, or if the entry is gone. Without a worker in the
table the record is written at once.

Control operations replace the record, and may start a worker for the definition that is
current then. Definitions change independently of all this.
-/

namespace AgenticOS.Transition

open List

inductive Standing where
  /-- It has not run yet. -/
  | created
  | working
  /-- It has written its result, and writes again only in a handler. -/
  | closing
  /-- It is in a handler and writes nothing more. -/
  | handling
  | ended
  deriving DecidableEq

/-- What the workers on a record do, and which operations there are. An await ends normally or
with an error; `interrupt` is how a worker takes its cancellation. -/
structure Engine (σ ρ δ κ υ : Type) where
  standing : ρ → Standing
  create : σ → ρ
  proceed : δ → Option String → σ → ρ → σ × ρ
  interrupt : σ → ρ → σ × ρ
  cancellable : σ → Bool
  cancel : σ → σ
  /-- The record behind an operation, unless it is refused. -/
  control : κ → σ → Option σ
  /-- Whether the operation starts a worker. -/
  starts : κ → Bool
  /-- The definition behind a change, if it is not deleted. -/
  redefine : υ → σ → δ → Option δ

/-- A worker, its definition, whether it is to be cancelled, and what it has raised. -/
structure Supervisee (ρ δ : Type) where
  worker : ρ
  definition : δ
  requested : Bool := false
  escaped : Option String := none

/-- A cancellation, with the record as it was read and as it was overwritten. -/
inductive Canceller (σ : Type) where
  | awaiting (snapshot : σ) (index : Nat)
  | publishing (snapshot overwritten : σ)
  | returned (snapshot overwritten : σ)
  | raised (error : String)

def Canceller.error? {σ : Type} : Canceller σ → Option String
  | .raised error => some error
  | .awaiting _ _ | .publishing _ _ | .returned _ _ => none

theorem Canceller.error?_eq_some_iff {σ : Type} {canceller : Canceller σ} {error : String} :
    canceller.error? = some error ↔ canceller = .raised error := by
  cases canceller <;> simp [error?]

structure Supervised (σ ρ δ : Type) where
  store : σ
  definition : Option δ
  workers : List (Supervisee ρ δ)
  registered : Option Nat
  cancellers : List (Canceller σ) := []

namespace Supervised

variable {σ ρ δ κ υ : Type}

inductive Action (κ υ : Type) where
  | next (index : Nat) (error : Option String)
  | cancel
  | wake (position : Nat)
  | publish (position : Nat) (error : Option String)
  | control (operation : κ)
  | redefine (change : υ)

variable (engine : Engine σ ρ δ κ υ)

/-- A record with its first worker. -/
def start (store : σ) (definition : δ) : Supervised σ ρ δ where
  store := store
  definition := some definition
  workers := [{ worker := engine.create store, definition }]
  registered := some 0

/-- Continue a supervised worker; a request to cancel it is delivered first. -/
def advance (store : σ) (supervisee : Supervisee ρ δ) (error : Option String) :
    σ × Supervisee ρ δ :=
  if supervisee.requested then
    ((engine.interrupt store supervisee.worker).1,
      { supervisee with
        worker := (engine.interrupt store supervisee.worker).2
        requested := false
        escaped := none })
  else
    let result := engine.proceed supervisee.definition error store supervisee.worker
    (result.1,
      { supervisee with
        worker := result.2
        escaped := if engine.standing result.2 = .ended then error else none })

variable (state : Supervised σ ρ δ)

/-- Continue the worker at a position, unless it is over. -/
def next (index : Nat) (error : Option String) : Supervised σ ρ δ :=
  match state.workers[index]? with
  | none => state
  | some supervisee =>
    if engine.standing supervisee.worker = .ended then state
    else
      let result := advance engine state.store supervisee error
      { state with
        store := result.1
        workers := state.workers.set index result.2
        registered :=
          if engine.standing result.2.worker = .ended ∧
              engine.standing supervisee.worker ≠ .created then none
          else state.registered }

/-- Continue a cancellation whose worker is over. -/
def wake (position : Nat) : Supervised σ ρ δ :=
  match state.cancellers[position]? with
  | some (.awaiting snapshot index) =>
    match state.workers[index]? with
    | none => state
    | some supervisee =>
      if engine.standing supervisee.worker ≠ .ended then state
      else
        match supervisee.escaped, state.registered with
        | some error, _ =>
          { state with cancellers := state.cancellers.set position (.raised error) }
        | none, none =>
          { state with cancellers := state.cancellers.set position (.raised "KeyError") }
        | none, some _ =>
          { state with
            store := engine.cancel snapshot
            registered := none
            cancellers :=
              state.cancellers.set position (.publishing snapshot state.store) }
  | _ => state

/-- Ask the worker in the table to stop. -/
def request (index : Nat) : Supervised σ ρ δ :=
  { state with
    workers := state.workers.modify index fun supervisee => { supervisee with requested := true }
    cancellers := state.cancellers ++ [.awaiting state.store index] }

/-- Begin a cancellation. If its worker is over already, it goes on at once. -/
def cancel : Supervised σ ρ δ :=
  if engine.cancellable state.store then
    match state.registered with
    | none =>
      { state with
        store := engine.cancel state.store
        cancellers := state.cancellers ++ [.publishing state.store state.store] }
    | some index => (state.request index).wake engine state.cancellers.length
  else state

/-- A cancellation ends with its publication. -/
def publish (position : Nat) (error : Option String) : Supervised σ ρ δ :=
  match state.cancellers[position]? with
  | some (.publishing snapshot overwritten) =>
    { state with
      cancellers := state.cancellers.set position
        (match error with
        | none => .returned snapshot overwritten
        | some error => .raised error) }
  | _ => state

/-- Start a worker for the current definition, if there is one, and put it in the table. -/
def spawn : Supervised σ ρ δ :=
  match state.definition with
  | none => state
  | some definition =>
    { state with
      workers := state.workers ++ [{ worker := engine.create state.store, definition }]
      registered := some state.workers.length }

/-- Perform a control operation; one that is refused changes nothing. -/
def control (operation : κ) : Supervised σ ρ δ :=
  match engine.control operation state.store with
  | none => state
  | some store =>
    if engine.starts operation then { state with store }.spawn engine else { state with store }

def step : Action κ υ → Supervised σ ρ δ
  | .next index error => state.next engine index error
  | .cancel => state.cancel engine
  | .wake position => state.wake engine position
  | .publish position error => state.publish position error
  | .control operation => state.control engine operation
  | .redefine change =>
    { state with definition := state.definition.bind (engine.redefine change state.store) }

variable {engine} {state : Supervised σ ρ δ}

theorem next_eq {index : Nat} {supervisee : Supervisee ρ δ}
    (lookup : state.workers[index]? = some supervisee)
    (notOver : engine.standing supervisee.worker ≠ .ended) (error : Option String) :
    state.next engine index error =
      { state with
        store := (advance engine state.store supervisee error).1
        workers := state.workers.set index (advance engine state.store supervisee error).2
        registered :=
          if engine.standing (advance engine state.store supervisee error).2.worker = .ended ∧
              engine.standing supervisee.worker ≠ .created then none
          else state.registered } := by
  rw [next, lookup]
  dsimp only
  rw [if_neg notOver]

theorem next_cases (engine : Engine σ ρ δ κ υ) (state : Supervised σ ρ δ) (index : Nat)
    (error : Option String) :
    state.next engine index error = state ∨
      ∃ supervisee, state.workers[index]? = some supervisee ∧
        engine.standing supervisee.worker ≠ .ended ∧
        (state.next engine index error).store = (advance engine state.store supervisee error).1 ∧
        (state.next engine index error).workers =
          state.workers.set index (advance engine state.store supervisee error).2 ∧
        (state.next engine index error).registered =
          (if engine.standing (advance engine state.store supervisee error).2.worker = .ended ∧
              engine.standing supervisee.worker ≠ .created then none
          else state.registered) ∧
        (state.next engine index error).cancellers = state.cancellers ∧
        (state.next engine index error).definition = state.definition := by
  cases lookup : state.workers[index]? with
  | none => exact .inl (by rw [next, lookup])
  | some supervisee =>
    by_cases isOver : engine.standing supervisee.worker = .ended
    · exact .inl (by simp [next, lookup, isOver])
    · rw [next_eq lookup isOver]
      exact .inr ⟨supervisee, rfl, isOver, rfl, rfl, rfl, rfl, rfl⟩

theorem next_of_all_over
    (stopped : ∀ supervisee ∈ state.workers, engine.standing supervisee.worker = .ended)
    (index : Nat) (error : Option String) : state.next engine index error = state := by
  rcases next_cases engine state index error with same | ⟨supervisee, lookup, notOver, -⟩
  · exact same
  · exact absurd (stopped supervisee (mem_of_getElem? lookup)) notOver

theorem request_worker (index position : Nat) :
    (state.request index).workers[position]? =
      state.workers[position]?.map fun supervisee =>
        if index = position then { supervisee with requested := true } else supervisee := by
  simp [request, getElem?_modify]

section

variable (engine : Engine σ ρ δ κ υ) (state : Supervised σ ρ δ)

theorem wake_workers (position : Nat) : (state.wake engine position).workers = state.workers ∧
      (state.wake engine position).definition = state.definition ∧
      ((state.wake engine position).store = state.store ∨
        ∃ snapshot, (state.wake engine position).store = engine.cancel snapshot) := by
  rw [wake]
  split
  · split
    · exact ⟨rfl, rfl, .inl rfl⟩
    · split
      · exact ⟨rfl, rfl, .inl rfl⟩
      · split
        · exact ⟨rfl, rfl, .inl rfl⟩
        · exact ⟨rfl, rfl, .inl rfl⟩
        · exact ⟨rfl, rfl, .inr ⟨_, rfl⟩⟩
  · exact ⟨rfl, rfl, .inl rfl⟩

/-- The cancellation that asked a worker to stop writes at once only if that one is over. -/
theorem request_wake_store (index : Nat) :
    ((state.request index).wake engine state.cancellers.length).store = state.store ∨
      ∃ supervisee, state.workers[index]? = some supervisee ∧
        engine.standing supervisee.worker = .ended := by
  have asked : (state.request index).cancellers[state.cancellers.length]? =
      some (.awaiting state.store index) := by
    simp [request]
  rw [wake]
  simp only [asked, request_worker, if_true]
  cases lookup : state.workers[index]? with
  | none => exact .inl rfl
  | some supervisee =>
    by_cases isOver : engine.standing supervisee.worker = .ended
    · exact .inr ⟨supervisee, rfl, isOver⟩
    · left
      simp [isOver, request]

theorem cancel_definition : (state.cancel engine).definition = state.definition := by
  rw [cancel]
  split
  · split
    · rfl
    · exact (wake_workers engine _ _).2.1
  · rfl

/-- What a control operation can do: nothing where it is refused, and otherwise a change of the
record, perhaps with a new worker in the table. -/
theorem control_cases (operation : κ) :
    state.control engine operation = state ∨
      ∃ store, engine.control operation state.store = some store ∧
        ((engine.starts operation = false ∨ state.definition = none) ∧
            state.control engine operation = { state with store } ∨
          ∃ definition, engine.starts operation = true ∧ state.definition = some definition ∧
            state.control engine operation =
              { state with
                store
                workers := state.workers ++ [{ worker := engine.create store, definition }]
                registered := some state.workers.length }) := by
  rw [control]
  cases engine.control operation state.store with
  | none => exact .inl rfl
  | some store =>
    refine .inr ⟨store, rfl, ?_⟩
    cases starts : engine.starts operation with
    | false => exact .inl ⟨.inl rfl, rfl⟩
    | true =>
      cases current : state.definition with
      | none => exact .inl ⟨.inr rfl, by simp [spawn]⟩
      | some definition => exact .inr ⟨definition, rfl, rfl, by simp [spawn]⟩

theorem control_definition (operation : κ) :
    (state.control engine operation).definition = state.definition := by
  rcases control_cases engine state operation with
    same | ⟨store, -, ⟨-, changed⟩ | ⟨definition, -, -, spawned⟩⟩
  · rw [same]
  · rw [changed]
  · rw [spawned]

end

theorem publish_workers (state : Supervised σ ρ δ) (position : Nat) (error : Option String) :
    (state.publish position error).workers = state.workers ∧
      (state.publish position error).definition = state.definition ∧
        (state.publish position error).store = state.store := by
  rw [publish]
  split
  · exact ⟨rfl, rfl, rfl⟩
  · exact ⟨rfl, rfl, rfl⟩

theorem step_definition (engine : Engine σ ρ δ κ υ) (state : Supervised σ ρ δ)
    (action : Action κ υ) : (state.step engine action).definition = state.definition ∨
      ∃ change, action = .redefine change ∧ (state.step engine action).definition =
        state.definition.bind (engine.redefine change state.store) := by
  cases action with
  | next index error =>
    left
    rcases next_cases engine state index error with same | ⟨-, -, -, -, -, -, -, unchanged⟩
    · exact congrArg Supervised.definition same
    · exact unchanged
  | cancel => exact .inl (cancel_definition engine state)
  | wake position => exact .inl (wake_workers engine state position).2.1
  | publish position error => exact .inl (publish_workers state position error).2.1
  | control operation => exact .inl (control_definition engine state operation)
  | redefine change => exact .inr ⟨change, rfl, rfl⟩

/-- The rule for what each worker knows about itself and its definition. -/
theorem workers_step (own : δ → ρ → Prop)
    (proceed : ∀ definition error store worker, own definition worker →
      own definition (engine.proceed definition error store worker).2)
    (interrupt : ∀ definition store worker, own definition worker →
      own definition (engine.interrupt store worker).2)
    (initially : ∀ supervisee ∈ state.workers, own supervisee.definition supervisee.worker)
    (action : Action κ υ) (started : ∀ operation store definition, action = .control operation →
      engine.control operation state.store = some store → engine.starts operation = true →
        state.definition = some definition → own definition (engine.create store)) :
    ∀ supervisee ∈ (state.step engine action).workers,
      own supervisee.definition supervisee.worker := by
  have requested : ∀ index, ∀ supervisee ∈ (state.request index).workers,
      own supervisee.definition supervisee.worker := by
    intro index supervisee member
    rcases getElem?_of_mem member with ⟨position, found⟩
    rw [request_worker, Option.map_eq_some_iff] at found
    rcases found with ⟨before, lookup, rfl⟩
    have holds := initially before (mem_of_getElem? lookup)
    split
    · exact holds
    · exact holds
  cases action with
  | next index error =>
    intro supervisee member
    change supervisee ∈ (state.next engine index error).workers at member
    rcases next_cases engine state index error with same | ⟨before, lookup, -, -, workers, -⟩
    · rw [same] at member
      exact initially supervisee member
    · rw [workers] at member
      have holds := initially before (mem_of_getElem? lookup)
      rcases mem_or_eq_of_mem_set member with old | rfl
      · exact initially supervisee old
      · rw [advance]
        split
        · exact interrupt _ _ _ holds
        · exact proceed _ _ _ _ holds
  | cancel =>
    intro supervisee member
    simp only [step, cancel] at member
    split at member
    · split at member
      · exact initially supervisee member
      · rw [(wake_workers engine _ _).1] at member
        exact requested _ supervisee member
    · exact initially supervisee member
  | wake position =>
    intro supervisee member
    simp only [step, (wake_workers engine state position).1] at member
    exact initially supervisee member
  | publish position error =>
    intro supervisee member
    rw [step, (publish_workers state position error).1] at member
    exact initially supervisee member
  | control operation =>
    intro supervisee member
    rw [step] at member
    rcases control_cases engine state operation with
      same | ⟨store, accepted, ⟨-, changed⟩ | ⟨definition, starts, current, spawned⟩⟩
    · rw [same] at member
      exact initially supervisee member
    · rw [changed] at member
      exact initially supervisee member
    · rw [spawned] at member
      rcases mem_append.mp member with old | new
      · exact initially supervisee old
      · rw [mem_singleton.mp new]
        exact started operation store definition rfl accepted starts current
  | redefine change => exact initially

end Supervised

end AgenticOS.Transition
