import AgenticOS.Transition.Supervision

/-!
# Records that say that somebody works

A record may say that it is being worked on. That is true as long as nobody writes so without
starting a worker or finding one, and no cancellation meets a worker that has not begun while
nobody else works.
-/

namespace AgenticOS.Transition

open List

namespace Supervised

variable {σ ρ δ κ υ : Type}

/-- What the rule asks of an engine: a worker goes on working, or leaves a record that does
not say so, or was not at work and leaves the record alone. `sane` is what a worker knows about
itself. -/
structure Manning (engine : Engine σ ρ δ κ υ) (running : σ → Prop) (sane : ρ → Prop) :
    Prop where
  sane_create : ∀ store, sane (engine.create store)
  sane_proceed : ∀ definition error store worker, sane worker →
    sane (engine.proceed definition error store worker).2
  sane_interrupt : ∀ store worker, sane worker → sane (engine.interrupt store worker).2
  created : ∀ store, engine.standing (engine.create store) = .created
  proceed : ∀ definition error store worker, sane worker →
    engine.standing (engine.proceed definition error store worker).2 = .working ∨
      ¬ running (engine.proceed definition error store worker).1 ∨
      (engine.proceed definition error store worker).1 = store ∧
        engine.standing worker ≠ .created ∧ engine.standing worker ≠ .working
  interrupt : ∀ store worker, sane worker →
    ¬ running (engine.interrupt store worker).1 ∨
      (engine.interrupt store worker).1 = store ∧ engine.standing worker ≠ .working
  cancel : ∀ store, ¬ running (engine.cancel store)

def Active (engine : Engine σ ρ δ κ υ) (supervisee : Supervisee ρ δ) : Prop :=
  engine.standing supervisee.worker = .working ∨
    engine.standing supervisee.worker = .created ∧ supervisee.requested = false

/-- If the record says that somebody works, a worker is as described. -/
def Staffed (running : σ → Prop) (described : Supervisee ρ δ → Prop)
    (state : Supervised σ ρ δ) : Prop :=
  running state.store → ∃ supervisee ∈ state.workers, described supervisee

/-- If the record says that somebody works, somebody does. -/
def Manned (engine : Engine σ ρ δ κ υ) (running : σ → Prop) (state : Supervised σ ρ δ) : Prop :=
  Staffed running (Active engine) state

/-- A cancellation finds an active worker that it does not stop before it begins; an operation
behind which the record says that somebody works starts a worker or finds an active one. -/
def KeepsManned (engine : Engine σ ρ δ κ υ) (running : σ → Prop) (state : Supervised σ ρ δ) :
    Action κ υ → Prop
  | .cancel => engine.cancellable state.store = true → running state.store →
      ∃ index supervisee, state.workers[index]? = some supervisee ∧ Active engine supervisee ∧
        (state.registered = some index → engine.standing supervisee.worker = .working)
  | .control operation => ∀ store, engine.control operation state.store = some store →
      running store → (engine.starts operation = true ∧ state.definition.isSome) ∨
        ∃ supervisee ∈ state.workers, Active engine supervisee
  | .next _ _ | .wake _ | .publish _ _ | .redefine _ => True

variable {engine : Engine σ ρ δ κ υ} {running : σ → Prop} {sane : ρ → Prop}
  {state : Supervised σ ρ δ}

variable {described : Supervisee ρ δ → Prop}

section

variable (staffed : Staffed running described state)
include staffed

/-- Continuing a worker keeps the record staffed, if the worker is as described behind it, or
leaves a record that does not say so, or was not as described and leaves the record alone. -/
theorem Staffed.next {index : Nat} {error : Option String}
    (advanced : ∀ supervisee, state.workers[index]? = some supervisee →
      described (advance engine state.store supervisee error).2 ∨
        ¬ running (advance engine state.store supervisee error).1 ∨
        (advance engine state.store supervisee error).1 = state.store ∧ ¬ described supervisee) :
    Staffed running described (state.next engine index error) := by
  rcases next_cases engine state index error with same | ⟨supervisee, lookup, -, store, workers, -⟩
  · rw [same]
    exact staffed
  · intro isRunning
    rw [store] at isRunning
    rw [workers]
    have inside : index < state.workers.length := (List.getElem?_eq_some_iff.mp lookup).1
    rcases advanced supervisee lookup with still | stopped | ⟨same, idle⟩
    · exact ⟨_, mem_set inside _, still⟩
    · exact absurd isRunning stopped
    · rw [same] at isRunning
      rcases staffed isRunning with ⟨other, member, still⟩
      rcases getElem?_of_mem member with ⟨position, found⟩
      have elsewhere : index ≠ position := by
        rintro rfl
        rw [lookup] at found
        cases found
        exact idle still
      refine ⟨other, mem_of_getElem? (i := position) ?_, still⟩
      rw [getElem?_set_ne elsewhere]
      exact found

theorem Staffed.wake (cancelled : ∀ store, ¬ running (engine.cancel store)) (position : Nat) :
    Staffed running described (state.wake engine position) := by
  rcases wake_workers engine state position with ⟨workers, -, same | ⟨snapshot, written⟩⟩
  · rw [Staffed, same, workers]
    exact staffed
  · rw [Staffed, written]
    exact fun impossible => absurd impossible (cancelled snapshot)

theorem Staffed.publish (position : Nat) (error : Option String) :
    Staffed running described (state.publish position error) := by
  rcases publish_workers state position error with ⟨workers, -, store⟩
  rw [Staffed, store, workers]
  exact staffed

end

def AllSane (sane : ρ → Prop) (state : Supervised σ ρ δ) : Prop :=
  ∀ supervisee ∈ state.workers, sane supervisee.worker

theorem AllSane.step (manning : Manning engine running sane) (allSane : AllSane sane state)
    (action : Action κ υ) : AllSane sane (state.step engine action) := by
  apply workers_step fun _ worker => sane worker
  · exact fun definition error store worker isSane =>
      manning.sane_proceed definition error store worker isSane
  · exact fun _ store worker isSane => manning.sane_interrupt store worker isSane
  · exact allSane
  · exact fun _ store _ _ _ _ _ => manning.sane_create store

/-- A continued worker is active, or leaves a record that does not say so, or was not active
and leaves the record alone. -/
theorem advance_active (manning : Manning engine running sane) {supervisee : Supervisee ρ δ}
    (isSane : sane supervisee.worker) (store : σ) (error : Option String) :
    Active engine (advance engine store supervisee error).2 ∨
      ¬ running (advance engine store supervisee error).1 ∨
      (advance engine store supervisee error).1 = store ∧ ¬ Active engine supervisee := by
  rw [advance]
  by_cases requested : supervisee.requested = true
  · rw [if_pos requested]
    rcases manning.interrupt store supervisee.worker isSane with stopped | ⟨same, idle⟩
    · exact .inr (.inl stopped)
    · refine .inr (.inr ⟨same, ?_⟩)
      rintro (working | ⟨-, unrequested⟩)
      · exact idle working
      · rw [requested] at unrequested
        cases unrequested
  · rw [if_neg requested]
    rcases manning.proceed supervisee.definition error store supervisee.worker isSane with
      working | stopped | ⟨same, notCreated, idle⟩
    · exact .inl (.inl working)
    · exact .inr (.inl stopped)
    · refine .inr (.inr ⟨same, ?_⟩)
      rintro (working | ⟨created, -⟩)
      · exact idle working
      · exact notCreated created

/-- A request leaves the active workers active, but for one that has not begun. -/
theorem Manned.request {index : Nat} (registered : state.registered = some index)
    (cancellable : engine.cancellable state.store = true)
    (kept : KeepsManned engine running state .cancel) :
    Manned engine running (state.request index) := by
  intro isRunning
  rcases kept cancellable isRunning with ⟨position, supervisee, lookup, active, spared⟩
  by_cases same : index = position
  · subst same
    refine ⟨{ supervisee with requested := true }, ?_, .inl (spared registered)⟩
    apply mem_of_getElem? (i := index)
    rw [request_worker, lookup, Option.map_some, if_pos rfl]
  · refine ⟨supervisee, ?_, active⟩
    apply mem_of_getElem? (i := position)
    rw [request_worker, lookup, Option.map_some, if_neg same]

section

variable (manning : Manning engine running sane)
include manning

theorem Manned.cancel (manned : Manned engine running state)
    (kept : KeepsManned engine running state .cancel) :
    Manned engine running (state.cancel engine) := by
  rw [Supervised.cancel]
  split
  next cancellable =>
    cases registered : state.registered with
    | none => exact fun impossible => absurd impossible (manning.cancel state.store)
    | some index =>
      have requested : Manned engine running (state.request index) :=
        .request registered cancellable kept
      exact requested.wake manning.cancel _
  next => exact manned

theorem Manned.control (manned : Manned engine running state) {operation : κ}
    (kept : KeepsManned engine running state (.control operation)) :
    Manned engine running (state.control engine operation) := by
  rcases control_cases engine state operation with
    same | ⟨store, accepted, ⟨stays, changed⟩ | ⟨definition, -, -, spawned⟩⟩
  · rw [same]
    exact manned
  · rw [changed]
    intro isRunning
    rcases kept store accepted isRunning with ⟨starts, current⟩ | active
    · rcases stays with idle | absent
      · rw [starts] at idle
        cases idle
      · rw [absent] at current
        cases current
    · exact active
  · rw [spawned]
    intro _
    exact ⟨_, mem_append_right _ (mem_singleton.mpr rfl), .inr ⟨manning.created store, rfl⟩⟩

theorem Manned.step (allSane : AllSane sane state) (manned : Manned engine running state)
    (action : Action κ υ) (kept : KeepsManned engine running state action) :
    Manned engine running (state.step engine action) := by
  cases action with
  | next index error =>
    apply Staffed.next manned
    intro supervisee lookup
    exact advance_active manning (allSane supervisee (mem_of_getElem? lookup)) _ _
  | cancel => exact manned.cancel manning kept
  | wake position => exact .wake manned manning.cancel position
  | publish position error => exact .publish manned position error
  | control operation => exact manned.control manning kept
  | redefine change => exact manned

end

theorem keepsManned_cancel (manned : Manned engine running state)
    (after : Manned engine running (state.cancel engine)) :
    KeepsManned engine running state .cancel := by
  intro cancellable isRunning
  rw [Supervised.cancel, if_pos cancellable] at after
  rcases manned isRunning with ⟨supervisee, member, active⟩
  rcases getElem?_of_mem member with ⟨position, lookup⟩
  cases registered : state.registered with
  | none =>
    refine ⟨position, supervisee, lookup, active, fun impossible => ?_⟩
    cases impossible
  | some index =>
    simp only [registered] at after
    rcases request_wake_store engine state index with
      same | ⟨stopped, found, isOver⟩
    · rw [Manned, Staffed, same, (wake_workers engine _ _).1] at after
      rcases after isRunning with ⟨other, otherMember, otherActive⟩
      rcases getElem?_of_mem otherMember with ⟨otherPosition, otherLookup⟩
      rw [request_worker, Option.map_eq_some_iff] at otherLookup
      rcases otherLookup with ⟨before, beforeLookup, rfl⟩
      by_cases here : index = otherPosition
      · rw [if_pos here] at otherActive
        have working : engine.standing before.worker = .working := by
          rcases otherActive with working | ⟨-, unrequested⟩
          · exact working
          · cases unrequested
        exact ⟨otherPosition, before, beforeLookup, .inl working, fun _ => working⟩
      · rw [if_neg here] at otherActive
        refine ⟨otherPosition, before, beforeLookup, otherActive, fun impossible => ?_⟩
        exact absurd (Option.some.inj impossible) here
    · refine ⟨position, supervisee, lookup, active, ?_⟩
      rintro ⟨⟩
      rw [lookup] at found
      cases found
      rcases active with working | ⟨created, -⟩
      · exact working
      · rw [isOver] at created
        cases created

theorem keepsManned_control {operation : κ}
    (after : Manned engine running (state.control engine operation)) :
    KeepsManned engine running state (.control operation) := by
  intro store accepted isRunning
  simp only [Supervised.control, accepted] at after
  by_cases starts : engine.starts operation = true
  · simp only [starts, if_true, spawn] at after
    cases current : state.definition with
    | none =>
      rw [current] at after
      exact .inr (after isRunning)
    | some definition => exact .inl ⟨starts, rfl⟩
  · rw [if_neg starts] at after
    exact .inr (after isRunning)

section

variable (manning : Manning engine running sane) (store : σ) (definition : δ)
include manning

theorem allSane_start : AllSane sane (start engine store definition) := by
  intro supervisee member
  rw [mem_singleton.mp member]
  exact manning.sane_create store

/-- The rule: a record is manned throughout exactly the runs whose actions keep it so. -/
theorem always_manned_iff (actions : List (Action κ υ)) :
    Always (step engine) (Manned engine running) (start engine store definition) actions ↔
      Along (step engine) (KeepsManned engine running) (start engine store definition) actions := by
  apply always_iff_along (AllSane sane)
  · intro state action allSane _ _
    exact allSane.step manning action
  · intro state action allSane manned
    constructor
    · intro after
      cases action with
      | cancel => exact keepsManned_cancel manned after
      | control operation => exact keepsManned_control after
      | next | wake | publish | redefine => trivial
    · intro kept
      exact .step manning allSane manned action kept
  · exact allSane_start manning store definition
  · intro _
    exact ⟨_, mem_singleton.mpr rfl, .inr ⟨manning.created store, rfl⟩⟩

end

/-! ## Workers at work -/

/-- If the record says that somebody works, a worker has begun and is at work. -/
def Worked (engine : Engine σ ρ δ κ υ) (running : σ → Prop) (state : Supervised σ ρ δ) : Prop :=
  Staffed running (fun supervisee => engine.standing supervisee.worker = .working) state

/-- A continued worker is at work, or leaves a record that does not say so, or was not at work
and leaves the record alone. -/
theorem advance_working (manning : Manning engine running sane) {supervisee : Supervisee ρ δ}
    (isSane : sane supervisee.worker) (store : σ) (error : Option String) :
    engine.standing (advance engine store supervisee error).2.worker = .working ∨
      ¬ running (advance engine store supervisee error).1 ∨
      (advance engine store supervisee error).1 = store ∧
        ¬ engine.standing supervisee.worker = .working := by
  rw [advance]
  split
  · rcases manning.interrupt store supervisee.worker isSane with stopped | same
    · exact .inr (.inl stopped)
    · exact .inr (.inr same)
  · rcases manning.proceed supervisee.definition error store supervisee.worker isSane with
      working | stopped | ⟨same, -, idle⟩
    · exact .inl working
    · exact .inr (.inl stopped)
    · exact .inr (.inr ⟨same, idle⟩)

theorem Worked.request (worked : Worked engine running state) (index : Nat) :
    Worked engine running (state.request index) := by
  intro isRunning
  rcases worked isRunning with ⟨supervisee, member, working⟩
  rcases getElem?_of_mem member with ⟨position, lookup⟩
  refine ⟨if index = position then { supervisee with requested := true } else supervisee, ?_, ?_⟩
  · apply mem_of_getElem? (i := position)
    rw [request_worker, lookup, Option.map_some]
  · split
    · exact working
    · exact working

theorem Worked.control (worked : Worked engine running state) {operation : κ}
    (guarded : ∀ store, engine.control operation state.store = some store → running store →
      running state.store) : Worked engine running (state.control engine operation) := by
  rcases control_cases engine state operation with
    same | ⟨store, accepted, ⟨-, changed⟩ | ⟨definition, -, -, spawned⟩⟩
  · rw [same]
    exact worked
  · rw [changed]
    exact fun isRunning => worked (guarded store accepted isRunning)
  · rw [spawned]
    intro isRunning
    rcases worked (guarded store accepted isRunning) with ⟨supervisee, member, working⟩
    exact ⟨supervisee, mem_append_left _ member, working⟩

/-- The rule: if no operation begins the work anew, there is a worker at work in every state that
says so. -/
theorem run_worked (manning : Manning engine running sane)
    (guarded : ∀ operation before after, engine.control operation before = some after →
      running after → running before)
    {store : σ} (notYet : ¬ running store) (definition : δ) (actions : List (Action κ υ)) :
    Worked engine running (run (step engine) (start engine store definition) actions) := by
  have preserved : ∀ state action, AllSane sane state ∧ Worked engine running state →
      AllSane sane (step engine state action) ∧
        Worked engine running (step engine state action) := by
    rintro state action ⟨allSane, worked⟩
    refine ⟨allSane.step manning action, ?_⟩
    cases action with
    | next index error =>
      apply Staffed.next worked
      intro supervisee lookup
      exact advance_working manning (allSane supervisee (mem_of_getElem? lookup)) _ _
    | cancel =>
      rw [Supervised.step, Supervised.cancel]
      split
      · split
        · exact fun impossible => absurd impossible (manning.cancel state.store)
        · exact .wake (worked.request _) manning.cancel _
      · exact worked
    | wake position => exact .wake worked manning.cancel position
    | publish position error => exact .publish worked position error
    | control operation => exact worked.control (guarded operation state.store)
    | redefine change => exact worked
  exact (run_invariant _ preserved
    ⟨allSane_start manning store definition, fun impossible => absurd impossible notYet⟩
    actions).2

end Supervised

end AgenticOS.Transition
