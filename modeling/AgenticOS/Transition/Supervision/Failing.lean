import AgenticOS.Transition.Supervision.Manning

/-!
# Cancellations that fail

As long as a worker is at work a cancellation can fail. If the worker stands in the table, it
takes itself off before the cancellation does. If it does not, nobody asks it to stop, and it
writes the record again.
-/

namespace AgenticOS.Transition

open List

namespace Supervised

variable {σ ρ δ κ υ : Type}

/-- What the rule asks of an engine: a worker at work that is told of an error writes a record
that is not cancelled, and one that is interrupted handles this before it is over. `sane` is
what a worker knows about itself. -/
structure Obstinate (engine : Engine σ ρ δ κ υ) (cancelled : σ → Prop) (sane : ρ → Prop) :
    Prop where
  overwrites : ∀ definition error store worker, sane worker → engine.standing worker = .working →
    ¬ cancelled (engine.proceed definition (some error) store worker).1
  begun : ∀ store worker, engine.standing worker = .working ∨ engine.standing worker = .closing →
    engine.standing (engine.interrupt store worker).2 = .handling
  handled : ∀ definition error store worker, engine.standing worker = .handling →
    engine.standing (engine.proceed definition error store worker).2 = .ended
  interrupted : ∀ store worker,
    engine.standing worker = .handling ∨ engine.standing worker = .created →
      engine.standing (engine.interrupt store worker).2 = .ended

/-- A cancellation has raised, or has written a record that is not cancelled any more. -/
def Failed (cancelled : σ → Prop) (state : Supervised σ ρ δ) : Prop :=
  (∃ error, .raised error ∈ state.cancellers) ∨
    ¬ cancelled state.store ∧
      ∃ snapshot overwritten, .publishing snapshot overwritten ∈ state.cancellers

variable {engine : Engine σ ρ δ κ υ} {cancelled : σ → Prop} {sane : ρ → Prop}
  {state : Supervised σ ρ δ} {supervisee : Supervisee ρ δ} {index position : Nat} {snapshot : σ}

theorem failed_of_working (obstinate : Obstinate engine cancelled sane) {overwritten : σ}
    (published : .publishing snapshot overwritten ∈ state.cancellers)
    (lookup : state.workers[index]? = some supervisee)
    (isSane : sane supervisee.worker) (working : engine.standing supervisee.worker = .working)
    (unasked : supervisee.requested = false) :
    Failed cancelled (state.next engine index (some "error")) := by
  have notOver : engine.standing supervisee.worker ≠ .ended := by simp [working]
  right
  rw [next_eq lookup notOver]
  refine ⟨?_, snapshot, overwritten, published⟩
  simp only [advance, unasked]
  exact obstinate.overwrites _ _ _ _ isSane working

section

variable (obstinate : Obstinate engine cancelled sane)
  (awaiting : state.cancellers[position]? = some (.awaiting snapshot index))
  (lookup : state.workers[index]? = some supervisee)
include obstinate awaiting lookup

/-- A worker in a handler takes itself off the table, and the cancellation finds nothing. -/
theorem failed_of_handling (handling : engine.standing supervisee.worker = .handling) :
    Failed cancelled ((state.next engine index none).wake engine position) := by
  have notOver : engine.standing supervisee.worker ≠ .ended := by simp [handling]
  have inside : index < state.workers.length := (List.getElem?_eq_some_iff.mp lookup).1
  have ended : engine.standing (advance engine state.store supervisee none).2.worker = .ended ∧
      (advance engine state.store supervisee none).2.escaped = none := by
    rw [advance]
    split
    · exact ⟨obstinate.interrupted _ _ (.inl handling), rfl⟩
    · exact ⟨obstinate.handled _ _ _ _ handling, by simp⟩
  left
  refine ⟨"KeyError", ?_⟩
  have present : position < state.cancellers.length := (List.getElem?_eq_some_iff.mp awaiting).1
  rw [next_eq lookup notOver, wake]
  simp only [awaiting, getElem?_set_self inside, ended, handling]
  exact mem_set present _

theorem failed_of_begun (begun : engine.standing supervisee.worker = .working ∨
      engine.standing supervisee.worker = .closing) (asked : supervisee.requested = true) :
    Failed cancelled
      (((state.next engine index none).next engine index none).wake engine position) := by
  have notOver : engine.standing supervisee.worker ≠ .ended := by
    rcases begun with working | closing
    · simp [working]
    · simp [closing]
  have inside : index < state.workers.length := (List.getElem?_eq_some_iff.mp lookup).1
  have interrupted :
      engine.standing (advance engine state.store supervisee none).2.worker = .handling := by
    rw [advance, if_pos asked]
    exact obstinate.begun _ _ begun
  have stillAwaiting : (state.next engine index none).cancellers[position]? =
      some (.awaiting snapshot index) := by
    rw [next_eq lookup notOver]
    exact awaiting
  have handling : (state.next engine index none).workers[index]? =
      some (advance engine state.store supervisee none).2 := by
    rw [next_eq lookup notOver]
    exact getElem?_set_self inside
  exact failed_of_handling obstinate stillAwaiting handling interrupted

end

section

variable {current : Nat} (obstinate : Obstinate engine cancelled sane)
  (awaiting : state.cancellers[position]? = some (.awaiting snapshot current))
include obstinate awaiting

/-- A cancellation whose worker is over but still in the table goes on; another worker that was
not asked to stop overwrites what it writes. -/
theorem failed_of_over {stopped : Supervisee ρ δ} (found : state.workers[current]? = some stopped)
    (isOver : engine.standing stopped.worker = .ended)
    (registered : state.registered = some current)
    (lookup : state.workers[index]? = some supervisee) (isSane : sane supervisee.worker)
    (working : engine.standing supervisee.worker = .working)
    (unasked : supervisee.requested = false) :
    ∃ actions, Failed cancelled (run (step engine) (state.wake engine position) actions) := by
  have present : position < state.cancellers.length := (List.getElem?_eq_some_iff.mp awaiting).1
  rw [wake]
  simp only [awaiting, found, isOver, registered]
  cases escaped : stopped.escaped with
  | some error => exact ⟨[], .inl ⟨error, mem_set present _⟩⟩
  | none =>
    refine ⟨[.next index (some "error")], ?_⟩
    exact failed_of_working obstinate (mem_set present _) lookup isSane working unasked

theorem failed_of_created {other : Supervisee ρ δ} (found : state.workers[current]? = some other)
    (created : engine.standing other.worker = .created) (asked : other.requested = true)
    (registered : state.registered = some current) (elsewhere : current ≠ index)
    (lookup : state.workers[index]? = some supervisee) (isSane : sane supervisee.worker)
    (working : engine.standing supervisee.worker = .working)
    (unasked : supervisee.requested = false) :
    ∃ actions, Failed cancelled (run (step engine) state actions) := by
  have notOver : engine.standing other.worker ≠ .ended := by simp [created]
  have inside : current < state.workers.length := (List.getElem?_eq_some_iff.mp found).1
  have ended : engine.standing (advance engine state.store other none).2.worker = .ended := by
    rw [advance, if_pos asked]
    exact obstinate.interrupted _ _ (.inr created)
  have stopped := next_eq found notOver none
  have stillAwaiting : (state.next engine current none).cancellers[position]? =
      some (.awaiting snapshot current) := by
    rw [stopped]
    exact awaiting
  have isOver : (state.next engine current none).workers[current]? =
      some (advance engine state.store other none).2 := by
    rw [stopped]
    exact getElem?_set_self inside
  have stillRegistered : (state.next engine current none).registered = some current := by
    rw [stopped]
    simp [created, registered]
  have stillWorking : (state.next engine current none).workers[index]? = some supervisee := by
    rw [stopped]
    exact (getElem?_set_ne elsewhere).trans lookup
  rcases failed_of_over obstinate stillAwaiting isOver ended stillRegistered stillWorking isSane
    working unasked with ⟨actions, failed⟩
  exact ⟨.next current none :: .wake position :: actions, failed⟩

end

theorem request_worker_of_ne (elsewhere : index ≠ position)
    (lookup : state.workers[position]? = some supervisee) :
    (state.request index).workers[position]? = some supervisee := by
  rw [request_worker, lookup, Option.map_some, if_neg elsewhere]

theorem request_worker_self (lookup : state.workers[index]? = some supervisee) :
    (state.request index).workers[index]? = some { supervisee with requested := true } := by
  rw [request_worker, lookup, Option.map_some, if_pos rfl]

theorem request_canceller : (state.request index).cancellers[state.cancellers.length]? =
      some (.awaiting state.store index) := by
  simp [request]

theorem wake_of_not_over (awaiting : state.cancellers[position]? = some (.awaiting snapshot index))
    (lookup : state.workers[index]? = some supervisee)
    (notOver : engine.standing supervisee.worker ≠ .ended) :
    state.wake engine position = state := by
  rw [wake]
  simp only [awaiting, lookup]
  exact if_pos notOver

/-- The table names a worker that there is. -/
def Placed (state : Supervised σ ρ δ) : Prop :=
  ∀ index, state.registered = some index → index < state.workers.length

/-- The rule: while a worker is at work that nobody has asked to stop, every cancellation can
fail. -/
theorem cancel_fails (obstinate : Obstinate engine cancelled sane) (placed : state.Placed)
    (cancellable : engine.cancellable state.store = true)
    (lookup : state.workers[index]? = some supervisee)
    (isSane : sane supervisee.worker) (working : engine.standing supervisee.worker = .working)
    (unasked : supervisee.requested = false) :
    ∃ actions, Failed cancelled (run (step engine) (state.step engine .cancel) actions) := by
  change ∃ actions, Failed cancelled (run (step engine) (state.cancel engine) actions)
  rw [cancel, if_pos cancellable]
  cases registered : state.registered with
  | none =>
    refine ⟨[.next index (some "error")], ?_⟩
    exact failed_of_working obstinate (mem_append_right _ (mem_singleton.mpr rfl))
      lookup isSane working unasked
  | some current =>
    dsimp only
    obtain ⟨other, found⟩ : ∃ other, state.workers[current]? = some other :=
      ⟨_, getElem?_eq_getElem (placed current registered)⟩
    have asked := request_worker_self found
    cases standing : engine.standing other.worker with
    | ended =>
      have elsewhere : current ≠ index := by
        rintro rfl
        rw [lookup] at found
        cases found
        cases working.symm.trans standing
      exact failed_of_over obstinate request_canceller asked standing registered
        (request_worker_of_ne elsewhere lookup) isSane working unasked
    | working =>
      rw [wake_of_not_over request_canceller asked (by simp [standing])]
      refine ⟨[.next current none, .next current none, .wake state.cancellers.length], ?_⟩
      exact failed_of_begun obstinate request_canceller asked (.inl standing) rfl
    | closing =>
      rw [wake_of_not_over request_canceller asked (by simp [standing])]
      refine ⟨[.next current none, .next current none, .wake state.cancellers.length], ?_⟩
      exact failed_of_begun obstinate request_canceller asked (.inr standing) rfl
    | handling =>
      rw [wake_of_not_over request_canceller asked (by simp [standing])]
      refine ⟨[.next current none, .wake state.cancellers.length], ?_⟩
      exact failed_of_handling obstinate request_canceller asked standing
    | created =>
      have elsewhere : current ≠ index := by
        rintro rfl
        rw [lookup] at found
        cases found
        cases working.symm.trans standing
      rw [wake_of_not_over request_canceller asked (by simp [standing])]
      exact failed_of_created obstinate request_canceller asked standing rfl registered
        elsewhere (request_worker_of_ne elsewhere lookup) isSane working unasked

/-- The table names a worker that there is, and nobody has been asked to stop. -/
structure Undisturbed (state : Supervised σ ρ δ) : Prop where
  placed : state.Placed
  unasked : ∀ supervisee ∈ state.workers, supervisee.requested = false
  cancellers : state.cancellers = []

theorem undisturbed_start (store : σ) (definition : δ) :
    Undisturbed (start engine store definition) where
  placed index registered := by
    cases registered
    exact Nat.zero_lt_one
  unasked supervisee member := by
    rw [mem_singleton.mp member]
  cancellers := rfl

theorem Undisturbed.next (undisturbed : Undisturbed state) (index : Nat)
    (error : Option String) : Undisturbed (state.next engine index error) := by
  rcases next_cases engine state index error with
    same | ⟨supervisee, lookup, -, -, workers, registered, cancellers, -⟩
  · rw [same]
    exact undisturbed
  · constructor
    · intro current isCurrent
      rw [registered] at isCurrent
      rw [workers, length_set]
      split at isCurrent
      · cases isCurrent
      · exact undisturbed.placed current isCurrent
    · intro other member
      rw [workers] at member
      rcases mem_or_eq_of_mem_set member with old | rfl
      · exact undisturbed.unasked other old
      · have unasked := undisturbed.unasked supervisee (mem_of_getElem? lookup)
        simp [advance, unasked]
    · rw [cancellers]
      exact undisturbed.cancellers

theorem Undisturbed.control (undisturbed : Undisturbed state) (operation : κ) :
    Undisturbed (state.control engine operation) := by
  rcases control_cases engine state operation with
    same | ⟨store, -, ⟨-, changed⟩ | ⟨definition, -, -, spawned⟩⟩
  · rw [same]
    exact undisturbed
  · rw [changed]
    exact ⟨undisturbed.placed, undisturbed.unasked, undisturbed.cancellers⟩
  · rw [spawned]
    constructor
    · rintro current ⟨⟩
      rw [length_append]
      exact Nat.lt_succ_self state.workers.length
    · intro supervisee member
      rcases mem_append.mp member with old | new
      · exact undisturbed.unasked supervisee old
      · rw [mem_singleton.mp new]
    · exact undisturbed.cancellers

theorem Undisturbed.step (undisturbed : Undisturbed state) {action : Action κ υ}
    (notCancel : action ≠ .cancel) : Undisturbed (state.step engine action) := by
  cases action with
  | next index error => exact undisturbed.next index error
  | cancel => exact absurd rfl notCancel
  | wake position =>
    have asleep : state.wake engine position = state := by simp [wake, undisturbed.cancellers]
    rw [Supervised.step, asleep]
    exact undisturbed
  | publish position error =>
    have unpublished : state.publish position error = state := by
      simp [publish, undisturbed.cancellers]
    rw [Supervised.step, unpublished]
    exact undisturbed
  | control operation => exact undisturbed.control operation
  | redefine change => exact ⟨undisturbed.placed, undisturbed.unasked, undisturbed.cancellers⟩

theorem first_cancel_fails {running : σ → Prop} (manning : Manning engine running sane)
    (obstinate : Obstinate engine cancelled sane) (store : σ) (definition : δ)
    {actions : List (Action κ υ)} (first : ∀ action ∈ actions, action ≠ .cancel)
    (cancellable : engine.cancellable
      (run (step engine) (start engine store definition) actions).store = true)
    (working : ∃ supervisee ∈ (run (step engine) (start engine store definition) actions).workers,
      engine.standing supervisee.worker = .working) : ∃ more, Failed cancelled
      (run (step engine) (start engine store definition) (actions ++ .cancel :: more)) := by
  have along : Along (step engine) (fun _ action => action ≠ .cancel)
      (start engine store definition) actions :=
    Along.of_forall_mem (fun action member _ => first action member) _
  have preserved : ∀ state action, AllSane sane state ∧ Undisturbed state → action ≠ .cancel →
      AllSane sane (step engine state action) ∧ Undisturbed (step engine state action) :=
    fun _ action holds notCancel => ⟨holds.1.step manning action, holds.2.step notCancel⟩
  have reached := along.invariant preserved
    ⟨allSane_start manning store definition, undisturbed_start store definition⟩
  rcases working with ⟨supervisee, member, working⟩
  rcases getElem?_of_mem member with ⟨index, lookup⟩
  rcases cancel_fails obstinate reached.2.placed cancellable lookup (reached.1 supervisee member)
    working (reached.2.unasked supervisee member) with ⟨more, failed⟩
  refine ⟨more, ?_⟩
  rw [run_append, run_cons]
  exact failed

end Supervised

end AgenticOS.Transition
