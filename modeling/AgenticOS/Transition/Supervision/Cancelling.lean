import Mathlib.Data.Finset.Basic
import AgenticOS.Transition.Supervision

/-!
# Cancellations that succeed

A cancellation fails if its worker has begun: it is then off the table by the time it is over.
It succeeds, and the record stays cancelled, if it finds the table empty and every worker
retired, or in the table a worker that has not begun, with all others over, and nothing comes
between.
-/

namespace AgenticOS.Transition

open List

namespace Supervised

variable {σ ρ δ κ υ ι : Type}

/-- What the rule asks of an engine. `done` is what a record says is done. -/
structure Cancelling (engine : Engine σ ρ δ κ υ) (cancelled : σ → Prop) (done : σ → Finset ι) :
    Prop where
  cancelled_cancel : ∀ store, cancelled (engine.cancel store)
  done_cancel : ∀ store, done (engine.cancel store) = done store
  cancellable : ∀ store, cancelled store → engine.cancellable store = false
  control : ∀ operation store, cancelled store → engine.control operation store = none
  proceed : ∀ definition error store worker, engine.standing worker = .handling →
    (engine.proceed definition error store worker).1 = store ∧
      engine.standing (engine.proceed definition error store worker).2 = .ended
  interrupt : ∀ store worker,
    engine.standing worker = .handling ∨ engine.standing worker = .created →
      (engine.interrupt store worker).1 = store ∧
        engine.standing (engine.interrupt store worker).2 = .ended

/-- The worker writes nothing more. -/
def Retired (engine : Engine σ ρ δ κ υ) (supervisee : Supervisee ρ δ) : Prop :=
  engine.standing supervisee.worker = .handling ∨ engine.standing supervisee.worker = .ended

/-- A worker that has not begun stands alone in the table. -/
structure Unbegun (engine : Engine σ ρ δ κ υ) (state : Supervised σ ρ δ) (index : Nat)
    (supervisee : Supervisee ρ δ) : Prop where
  registered : state.registered = some index
  lookup : state.workers[index]? = some supervisee
  created : engine.standing supervisee.worker = .created
  others : ∀ position other, position ≠ index → state.workers[position]? = some other →
    engine.standing other.worker = .ended

theorem unbegun_start {engine : Engine σ ρ δ κ υ} {store : σ}
    (created : engine.standing (engine.create store) = .created) (definition : δ) :
    Unbegun engine (start engine store definition) 0
      { worker := engine.create store, definition } where
  registered := rfl
  lookup := rfl
  created := created
  others position other elsewhere lookup := by
    cases position with
    | zero => exact absurd rfl elsewhere
    | succ position => cases lookup

/-- Nothing in the table, and every worker retired. -/
structure Deserted (engine : Engine σ ρ δ κ υ) (state : Supervised σ ρ δ) : Prop where
  registered : state.registered = none
  retired : ∀ supervisee ∈ state.workers, Retired engine supervisee

/-- A cancellation finds no other one waiting, and the record deserted or its worker not begun.
While one waits no operation starts a worker or adds to what is done, and what a cancellation
publishes is accepted. -/
def Orderly (engine : Engine σ ρ δ κ υ) (done : σ → Finset ι) (state : Supervised σ ρ δ) :
    Action κ υ → Prop
  | .cancel => engine.cancellable state.store = true →
      (∀ snapshot index, .awaiting snapshot index ∉ state.cancellers) ∧
        (Deserted engine state ∨ ∃ index supervisee, Unbegun engine state index supervisee)
  | .control operation => ∀ snapshot index, .awaiting snapshot index ∈ state.cancellers →
      ∀ store, engine.control operation state.store = some store →
        engine.starts operation = false ∧ done store ⊆ done state.store
  | .publish _ error => error = none
  | .next _ _ | .wake _ | .redefine _ => True

/-- No cancellation has raised. One that waits does so for a worker that stops when it is
continued next; behind every other one the record is cancelled, and what was done when the
cancellation read and overwrote it is done. -/
def CancelledForGood (engine : Engine σ ρ δ κ υ) (cancelled : σ → Prop) (done : σ → Finset ι)
    (state : Supervised σ ρ δ) : Prop :=
  ∀ canceller ∈ state.cancellers,
    match canceller with
    | .awaiting _ index => ∃ supervisee, state.workers[index]? = some supervisee ∧
      (engine.standing supervisee.worker = .created ∧ supervisee.requested = true ∨
        engine.standing supervisee.worker = .ended)
    | .publishing snapshot overwritten | .returned snapshot overwritten =>
      cancelled state.store ∧ done snapshot ⊆ done state.store ∧ done overwritten ⊆ done state.store
    | .raised _ => False

theorem not_cancelledForGood_of_error {engine : Engine σ ρ δ κ υ} {cancelled : σ → Prop}
    {done : σ → Finset ι} {state : Supervised σ ρ δ} {error : String}
    (raised : some error ∈ state.cancellers.map Canceller.error?) :
    ¬ CancelledForGood engine cancelled done state := by
  intro good
  rcases mem_map.mp raised with ⟨canceller, member, isError⟩
  rw [Canceller.error?_eq_some_iff.mp isError] at member
  exact good _ member

/-- One cancellation waits for a worker that never begins. -/
structure Waiting (engine : Engine σ ρ δ κ υ) (done : σ → Finset ι) (state : Supervised σ ρ δ)
    (snapshot : σ) (index : Nat) (supervisee : Supervisee ρ δ) : Prop where
  cancellers : state.cancellers = [.awaiting snapshot index]
  registered : state.registered = some index
  lookup : state.workers[index]? = some supervisee
  stops : engine.standing supervisee.worker = .created ∧ supervisee.requested = true ∨
    engine.standing supervisee.worker = .ended ∧ supervisee.escaped = none
  others : ∀ position other, position ≠ index → state.workers[position]? = some other →
    engine.standing other.worker = .ended
  kept : done state.store ⊆ done snapshot

/-- One cancellation has written the record. -/
structure Settled (engine : Engine σ ρ δ κ υ) (cancelled : σ → Prop) (done : σ → Finset ι)
    (state : Supervised σ ρ δ) (snapshot overwritten : σ) : Prop where
  cancellers : state.cancellers = [.publishing snapshot overwritten] ∨
    state.cancellers = [.returned snapshot overwritten]
  cancelled : cancelled state.store
  deserted : Deserted engine state
  keptSnapshot : done snapshot ⊆ done state.store
  keptOverwritten : done overwritten ⊆ done state.store

/-- There is no cancellation, or one, and that goes well. -/
inductive Calm (engine : Engine σ ρ δ κ υ) (cancelled : σ → Prop) (done : σ → Finset ι)
    (state : Supervised σ ρ δ) : Prop
  | idle (none : state.cancellers = [])
  | waiting {snapshot index supervisee}
      (waiting : Waiting engine done state snapshot index supervisee)
  | settled {snapshot overwritten}
      (settled : Settled engine cancelled done state snapshot overwritten)

variable {engine : Engine σ ρ δ κ υ} {cancelled : σ → Prop} {done : σ → Finset ι}
  {state : Supervised σ ρ δ} {snapshot overwritten : σ}

theorem Calm.cancelledForGood (calm : Calm engine cancelled done state) :
    CancelledForGood engine cancelled done state := by
  intro canceller member
  cases calm with
  | idle none =>
    rw [none] at member
    cases member
  | waiting waiting =>
    rw [waiting.cancellers] at member
    rw [mem_singleton.mp member]
    exact ⟨_, waiting.lookup, waiting.stops.imp_right And.left⟩
  | settled settled =>
    have holds := And.intro settled.cancelled
      (And.intro settled.keptSnapshot settled.keptOverwritten)
    rcases settled.cancellers with only | only
    · rw [only] at member
      rw [mem_singleton.mp member]
      exact holds
    · rw [only] at member
      rw [mem_singleton.mp member]
      exact holds

section

variable (cancelling : Cancelling engine cancelled done)
include cancelling

theorem advance_retired {supervisee : Supervisee ρ δ}
    (handling : engine.standing supervisee.worker = .handling) (store : σ) (error : Option String) :
    (advance engine store supervisee error).1 = store ∧
      engine.standing (advance engine store supervisee error).2.worker = .ended := by
  rw [advance]
  split
  · exact cancelling.interrupt store supervisee.worker (.inl handling)
  · exact cancelling.proceed _ error store supervisee.worker handling

theorem Deserted.next (deserted : Deserted engine state) (index : Nat) (error : Option String) :
    Deserted engine (state.next engine index error) ∧
      (state.next engine index error).store = state.store := by
  rcases next_cases engine state index error with
    same | ⟨supervisee, lookup, going, store, workers, table, -⟩
  · rw [same]
    exact ⟨deserted, rfl⟩
  · have handling :=
      (deserted.retired supervisee (mem_of_getElem? lookup)).resolve_right going
    have quiet := advance_retired cancelling handling state.store error
    refine ⟨⟨?_, ?_⟩, store.trans quiet.1⟩
    · rw [table, deserted.registered, ite_self]
    · intro other member
      rw [workers] at member
      rcases mem_or_eq_of_mem_set member with old | rfl
      · exact deserted.retired other old
      · exact .inr quiet.2

theorem Waiting.next {index : Nat} {supervisee : Supervisee ρ δ}
    (waiting : Waiting engine done state snapshot index supervisee) (position : Nat)
    (error : Option String) : Calm engine cancelled done (state.next engine position error) := by
  rcases next_cases engine state position error with
    same | ⟨other, lookup, going, store, workers, table, cancellers, -⟩
  · rw [same]
    exact .waiting waiting
  · have here : position = index := by
      by_contra elsewhere
      exact going (waiting.others position other elsewhere lookup)
    subst here
    have isOther : supervisee = other := by
      have found := waiting.lookup
      rw [lookup] at found
      cases found
      rfl
    subst isOther
    rcases waiting.stops with ⟨created, requested⟩ | ⟨isOver, -⟩
    · have stops := cancelling.interrupt state.store supervisee.worker (.inr created)
      have advanced : advance engine state.store supervisee error =
          (state.store, { supervisee with
            worker := (engine.interrupt state.store supervisee.worker).2
            requested := false
            escaped := none }) := by
        rw [advance, if_pos requested, stops.1]
      rw [advanced] at store workers table
      have inside : position < state.workers.length := (List.getElem?_eq_some_iff.mp lookup).1
      apply Calm.waiting
      constructor
      · rw [cancellers]
        exact waiting.cancellers
      · rw [table, if_neg (fun both => both.2 created)]
        exact waiting.registered
      · rw [workers, getElem?_set_self inside]
      · exact .inr ⟨stops.2, rfl⟩
      · intro elsewhere sibling different found
        rw [workers, getElem?_set_ne (.symm different)] at found
        exact waiting.others elsewhere sibling different found
      · rw [store]
        exact waiting.kept
    · exact absurd isOver going

theorem Calm.next (calm : Calm engine cancelled done state) (index : Nat) (error : Option String) :
    Calm engine cancelled done (state.next engine index error) := by
  have cancellers : (state.next engine index error).cancellers = state.cancellers := by
    rcases next_cases engine state index error with
      same | ⟨-, -, -, -, -, -, unchanged, -⟩
    · rw [same]
    · exact unchanged
  cases calm with
  | idle none => exact .idle (cancellers.trans none)
  | waiting waiting => exact waiting.next cancelling index error
  | settled settled =>
    have after := settled.deserted.next cancelling index error
    apply Calm.settled
    constructor
    · rw [cancellers]
      exact settled.cancellers
    · rw [after.2]
      exact settled.cancelled
    · exact after.1
    · rw [after.2]
      exact settled.keptSnapshot
    · rw [after.2]
      exact settled.keptOverwritten

theorem Calm.wake (calm : Calm engine cancelled done state) (position : Nat) :
    Calm engine cancelled done (state.wake engine position) := by
  cases calm with
  | idle none =>
    rw [Supervised.wake, none]
    exact .idle none
  | @waiting snapshot index supervisee waiting =>
    cases position with
    | succ position =>
      rw [Supervised.wake, waiting.cancellers]
      exact .waiting waiting
    | zero =>
      rw [Supervised.wake, waiting.cancellers]
      simp only [getElem?_cons_zero, waiting.lookup]
      rcases waiting.stops with ⟨created, -⟩ | ⟨isOver, silent⟩
      · rw [if_pos (by rw [created]; decide)]
        exact .waiting waiting
      · rw [if_neg (not_not.mpr isOver), silent, waiting.registered]
        apply Calm.settled
        constructor
        · exact .inl rfl
        · exact cancelling.cancelled_cancel snapshot
        · refine ⟨rfl, ?_⟩
          intro other member
          rcases getElem?_of_mem member with ⟨place, found⟩
          by_cases here : place = index
          · subst here
            have same := waiting.lookup
            rw [found] at same
            cases same
            exact .inr isOver
          · exact .inr (waiting.others place other here found)
        · exact (cancelling.done_cancel snapshot).ge
        · rw [cancelling.done_cancel]
          exact waiting.kept
  | settled settled =>
    have same : state.wake engine position = state := by
      rw [Supervised.wake]
      split
      next snapshot index found =>
        have member := mem_of_getElem? found
        rcases settled.cancellers with only | only
        · rw [only] at member
          cases mem_singleton.mp member
        · rw [only] at member
          cases mem_singleton.mp member
      next => rfl
    rw [same]
    exact .settled settled

theorem Calm.cancel (calm : Calm engine cancelled done state)
    (orderly : Orderly engine done state .cancel) :
    Calm engine cancelled done (state.cancel engine) := by
  rw [Supervised.cancel]
  by_cases cancellable : engine.cancellable state.store = true
  · rw [if_pos cancellable]
    have guarded := orderly cancellable
    have none : state.cancellers = [] := by
      cases calm with
      | idle none => exact none
      | waiting waiting => exact absurd (waiting.cancellers ▸ mem_singleton.mpr rfl) (guarded.1 _ _)
      | settled settled =>
        rw [cancelling.cancellable state.store settled.cancelled] at cancellable
        cases cancellable
    rcases guarded.2 with deserted | ⟨index, supervisee, unbegun⟩
    · rw [deserted.registered]
      apply Calm.settled
      constructor
      · exact .inl (by rw [none]; rfl)
      · exact cancelling.cancelled_cancel state.store
      · exact ⟨rfl, deserted.retired⟩
      · exact (cancelling.done_cancel state.store).ge
      · exact (cancelling.done_cancel state.store).ge
    · rw [unbegun.registered]
      have waiting : Waiting engine done (state.request index) state.store index
          { supervisee with requested := true } := by
        constructor
        · simp [Supervised.request, none]
        · exact unbegun.registered
        · rw [request_worker, unbegun.lookup, Option.map_some, if_pos rfl]
        · exact .inl ⟨unbegun.created, rfl⟩
        · intro position other different found
          rw [request_worker, Option.map_eq_some_iff] at found
          rcases found with ⟨before, lookup, rfl⟩
          rw [if_neg (Ne.symm different)]
          exact unbegun.others position before different lookup
        · exact Finset.Subset.refl _
      exact (Calm.waiting waiting).wake cancelling _
  · rw [if_neg cancellable]
    exact calm

end

theorem Calm.publish (calm : Calm engine cancelled done state) (position : Nat) :
    Calm engine cancelled done (state.publish position none) := by
  rw [Supervised.publish]
  split
  next snapshot overwritten found =>
    have member := mem_of_getElem? found
    cases calm with
    | idle none =>
      rw [none] at member
      cases member
    | waiting waiting =>
      rw [waiting.cancellers] at member
      cases mem_singleton.mp member
    | settled settled =>
      rcases settled.cancellers with only | only
      · rw [only] at member found
        cases mem_singleton.mp member
        have first : position = 0 := by
          cases position with
          | zero => rfl
          | succ position => cases found
        subst first
        apply Calm.settled
        constructor
        · exact .inr (by rw [only]; rfl)
        · exact settled.cancelled
        · exact ⟨settled.deserted.registered, settled.deserted.retired⟩
        · exact settled.keptSnapshot
        · exact settled.keptOverwritten
      · rw [only] at member
        cases mem_singleton.mp member
  next => exact calm

section

variable (cancelling : Cancelling engine cancelled done)
include cancelling

theorem Calm.control (calm : Calm engine cancelled done state) {operation : κ}
    (orderly : Orderly engine done state (.control operation)) :
    Calm engine cancelled done (state.control engine operation) := by
  rcases control_cases engine state operation with
    same | ⟨store, accepted, ⟨-, changed⟩ | ⟨definition, starts, -, spawned⟩⟩
  · rw [same]
    exact calm
  · rw [changed]
    cases calm with
    | idle none => exact .idle none
    | waiting waiting =>
      have guarded := orderly _ _ (waiting.cancellers ▸ mem_singleton.mpr rfl) store accepted
      apply Calm.waiting
      exact
        { waiting with
          kept := .trans guarded.2 waiting.kept }
    | settled settled =>
      rw [cancelling.control operation state.store settled.cancelled] at accepted
      cases accepted
  · cases calm with
    | idle none =>
      rw [spawned]
      exact .idle none
    | waiting waiting =>
      have guarded := orderly _ _ (waiting.cancellers ▸ mem_singleton.mpr rfl) store accepted
      rw [starts] at guarded
      cases guarded.1
    | settled settled =>
      rw [cancelling.control operation state.store settled.cancelled] at accepted
      cases accepted

theorem Calm.step (calm : Calm engine cancelled done state) (action : Action κ υ)
    (orderly : Orderly engine done state action) :
    Calm engine cancelled done (state.step engine action) := by
  cases action with
  | next index error => exact calm.next cancelling index error
  | cancel => exact calm.cancel cancelling orderly
  | wake position => exact calm.wake cancelling position
  | publish position error =>
    cases orderly
    exact calm.publish position
  | control operation => exact calm.control cancelling orderly
  | redefine change =>
    cases calm with
    | idle none => exact .idle none
    | waiting waiting =>
      exact .waiting
        ⟨waiting.cancellers, waiting.registered, waiting.lookup, waiting.stops,
          waiting.others, waiting.kept⟩
    | settled settled =>
      exact .settled
        ⟨settled.cancellers, settled.cancelled,
          ⟨settled.deserted.registered, settled.deserted.retired⟩, settled.keptSnapshot,
          settled.keptOverwritten⟩

/-- The rule: in an orderly run every cancellation goes well, and for good. -/
theorem always_cancelledForGood (store : σ) (definition : δ) {actions : List (Action κ υ)}
    (orderly : Along (step engine) (Orderly engine done) (start engine store definition) actions) :
    Always (step engine) (CancelledForGood engine cancelled done)
      (start engine store definition) actions := by
  have preserved : ∀ state action, Calm engine cancelled done state →
      Orderly engine done state action → Calm engine cancelled done (step engine state action) :=
    fun _ action calm allowed => calm.step cancelling action allowed
  have always := orderly.always preserved (.idle rfl)
  intro earlier isPrefix
  exact (always earlier isPrefix).cancelledForGood

end

end Supervised

end AgenticOS.Transition
