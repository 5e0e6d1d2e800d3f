import AgenticOS.OmniRoute.Executor
import AgenticOS.Transition.Run
import Mathlib.Data.List.GetD

/-!
# Cancelling an execution

`cancel` takes the token of the running attempt away. The attempt ends as cancelled, but the
execution treats this as a failure, tries again with a fresh token and never finds a token
that is set. No execution returns a cancelled result.
-/

namespace AgenticOS.OmniRoute

open AgenticOS.Transition List

namespace CancellationStore

variable {store : CancellationStore}

section

variable (store : CancellationStore) (requestId other : String)

theorem get?_register : (store.register requestId).2.tokens.get? other =
      if other = requestId then some store.events.length else store.tokens.get? other :=
  Dict.get?_set ..

theorem get?_unregister : (store.unregister requestId).tokens.get? other =
      if other = requestId then none else store.tokens.get? other :=
  Dict.get?_erase ..

theorem get?_cancel : (store.cancel requestId).2.tokens.get? other =
      if other = requestId then none else store.tokens.get? other := by
  rw [cancel]
  split
  next absent =>
    split
    next same =>
      rw [same]
      exact absent
    · rfl
  · exact Dict.get?_erase ..

end

/-- A call of `cancel` succeeds exactly if there is a token. -/
theorem cancel_eq_true_iff (requestId : String) :
    (store.cancel requestId).1 = true ↔ (store.tokens.get? requestId).isSome := by
  rw [cancel]
  cases store.tokens.get? requestId <;> exact .rfl

structure Sound (store : CancellationStore) : Prop where
  made : ∀ requestId token, store.tokens.get? requestId = some token → token < store.events.length
  unset : ∀ requestId token, store.tokens.get? requestId = some token → store.isSet token = false
  distinct : ∀ left right token, store.tokens.get? left = some token →
    store.tokens.get? right = some token → left = right

section

variable (sound : store.Sound)
include sound

theorem Sound.isCancelled (requestId : String) : store.isCancelled requestId = false := by
  rw [CancellationStore.isCancelled]
  cases found : store.tokens.get? requestId with
  | none => rfl
  | some token => exact sound.unset requestId token found

theorem Sound.of_fewer {fewer : CancellationStore}
    (kept : ∀ requestId token, fewer.tokens.get? requestId = some token →
      store.tokens.get? requestId = some token) (events : fewer.events = store.events) :
    fewer.Sound := by
  refine ⟨?_, ?_, ?_⟩
  · intro requestId token found
    rw [events]
    exact sound.made requestId token (kept requestId token found)
  · intro requestId token found
    rw [isSet, events]
    exact sound.unset requestId token (kept requestId token found)
  · intro left right token foundLeft foundRight
    exact sound.distinct left right token (kept left token foundLeft) (kept right token foundRight)

theorem Sound.unregister (requestId : String) : (store.unregister requestId).Sound :=
  sound.of_fewer (fun _ _ found => Dict.get?_of_get?_erase found) rfl

theorem Sound.register (requestId : String) : (store.register requestId).2.Sound := by
  have cases' : ∀ other token, (store.register requestId).2.tokens.get? other = some token →
      other = requestId ∧ token = store.events.length ∨
        other ≠ requestId ∧ store.tokens.get? other = some token := by
    intro other token found
    rw [get?_register] at found
    split at found
    next same =>
      cases found
      exact .inl ⟨same, rfl⟩
    next different => exact .inr ⟨different, found⟩
  have length : (store.register requestId).2.events.length = store.events.length + 1 :=
    length_append
  refine ⟨?_, ?_, ?_⟩
  · intro other token found
    rw [length]
    rcases cases' other token found with ⟨-, rfl⟩ | ⟨-, before⟩
    · exact Nat.lt_succ_self _
    · exact Nat.lt_succ_of_lt (sound.made other token before)
  · intro other token found
    change (store.events ++ [false]).getD token false = false
    rcases cases' other token found with ⟨-, rfl⟩ | ⟨-, before⟩
    · rw [getD_append_right _ _ _ _ (le_refl _), Nat.sub_self]
      rfl
    · rw [getD_append _ _ _ _ (sound.made other token before)]
      exact sound.unset other token before
  · intro left right token foundLeft foundRight
    rcases cases' left token foundLeft with ⟨rfl, rfl⟩ | ⟨-, beforeLeft⟩
    · rcases cases' right _ foundRight with ⟨rfl, -⟩ | ⟨-, beforeRight⟩
      · rfl
      · exact absurd (sound.made right _ beforeRight) (lt_irrefl _)
    · rcases cases' right token foundRight with ⟨-, rfl⟩ | ⟨-, beforeRight⟩
      · exact absurd (sound.made left _ beforeLeft) (lt_irrefl _)
      · exact sound.distinct left right token beforeLeft beforeRight

theorem Sound.cancel (requestId : String) : (store.cancel requestId).2.Sound := by
  rw [CancellationStore.cancel]
  cases found : store.tokens.get? requestId with
  | none => exact sound
  | some set =>
    have removed : (store.unregister requestId).Sound := sound.unregister requestId
    refine ⟨?_, ?_, ?_⟩
    · intro other token isToken
      rw [length_set]
      exact removed.made other token isToken
    · intro other token isToken
      -- Another request has another event.
      have different : set ≠ token := by
        rintro rfl
        rw [Dict.get?_erase] at isToken
        split at isToken
        · cases isToken
        next others => exact others (sound.distinct other requestId set isToken found)
      have unset := removed.unset other token isToken
      change (store.events.set set true).getD token false = false
      rw [getD_eq_getElem?_getD, getElem?_set_ne different, ← getD_eq_getElem?_getD]
      exact unset
    · exact removed.distinct

end

end CancellationStore

namespace Phase

/-- An attempt runs: its token has been registered and not yet been given back. -/
def Attempting : Phase → Prop
  | .entering _ _ | .invoking _ _ | .reporting _ | .leaving _ _ => True
  | .called | .starting | .backingOff _ _ | .checking _ | .registering _ | .finishing _ _
  | .closing _ | .returned _ | .raised _ => False

/-- The adapter has been invoked. -/
def Invoking : Phase → Prop
  | .invoking _ _ => True
  | .called | .starting | .backingOff _ _ | .checking _ | .registering _ | .entering _ _
  | .reporting _ | .leaving _ _ | .finishing _ _ | .closing _ | .returned _ | .raised _ => False

instance : (phase : Phase) → Decidable phase.Invoking
  | .invoking _ _ => .isTrue trivial
  | .called | .starting | .backingOff _ _ | .checking _ | .registering _ | .entering _ _
  | .reporting _ | .leaving _ _ | .finishing _ _ | .closing _ | .returned _ | .raised _ =>
    .isFalse id

def result? : Phase → Option ExecutionResult
  | .finishing result _ | .closing result | .returned result => some result
  | .called | .starting | .backingOff _ _ | .checking _ | .registering _ | .entering _ _
  | .invoking _ _ | .reporting _ | .leaving _ _ | .raised _ => none

end Phase

namespace Execution

variable {execution next : Execution}

/-- After an attempt, or before the first one: no token is registered, and no result is a
cancelled one. -/
structure Between (execution next : Execution) : Prop where
  request : next.request = execution.request
  cancellations : next.cancellations = execution.cancellations
  idle : ¬ next.phase.Attempting
  result : ∀ result, next.phase.result? = some result → result.state ≠ .cancelled

section

variable (execution : Execution) (attempt : Nat) (draw : ℚ)

theorem between_beginAttempt : Between execution (execution.beginAttempt attempt draw) := by
  unfold beginAttempt
  dsimp only
  split
  · split
    · split
      · exact ⟨rfl, rfl, id, fun _ none => (by cases none)⟩
      · exact ⟨rfl, rfl, id, fun _ none => (by cases none)⟩
    · exact ⟨rfl, rfl, id, fun _ none => (by cases none)⟩
  · refine ⟨rfl, rfl, id, ?_⟩
    rintro result ⟨⟩
    exact fun impossible => by cases impossible

theorem between_failAttempt (error : String) {exhausted : ExecutionResult}
    (failed : exhausted.state = .failed) :
    Between execution (execution.failAttempt attempt draw error exhausted) := by
  rw [failAttempt]
  split
  · have between := between_beginAttempt { execution with lastError := error } (attempt + 1) draw
    exact ⟨between.request, between.cancellations, between.idle, between.result⟩
  · refine ⟨rfl, rfl, id, ?_⟩
    rintro result ⟨⟩
    rw [failed]
    decide

theorem between_endAttempt (outcome : Except String ExecutionResult) :
    Between execution (execution.endAttempt attempt draw outcome) := by
  unfold endAttempt
  split
  next result =>
    dsimp only
    split
    next timedOut =>
      refine ⟨rfl, rfl, id, ?_⟩
      rintro result ⟨⟩
      rw [timedOut]
      decide
    next completed =>
      refine ⟨rfl, rfl, id, ?_⟩
      rintro result ⟨⟩
      rw [completed]
      decide
    all_goals exact between_failAttempt execution attempt draw _ rfl
  next error => exact between_failAttempt execution attempt draw error rfl

end

/-- The execution goes on. It registers a token at the beginning of an attempt and gives it
back at the end. -/
structure Advances (execution next : Execution) : Prop where
  request : next.request = execution.request
  tokens : (next.cancellations = execution.cancellations ∧
      (next.phase.Attempting ↔ execution.phase.Attempting)) ∨
    (next.cancellations = (execution.cancellations.register execution.request.requestId).2 ∧
      next.phase.Attempting) ∨
    (next.cancellations = execution.cancellations.unregister execution.request.requestId ∧
      ¬ next.phase.Attempting)
  result : execution.cancellations.isCancelled execution.request.requestId = false →
    (∀ result, execution.phase.result? = some result → result.state ≠ .cancelled) →
      ∀ result, next.phase.result? = some result → result.state ≠ .cancelled

theorem advances_of_phase {here phase : Phase} (stands : execution.phase = here)
    (same : phase.Attempting ↔ here.Attempting) (none : phase.result? = none) :
    Advances execution { execution with phase } := by
  refine ⟨rfl, .inl ⟨rfl, stands ▸ same⟩, ?_⟩
  intro _ _ result isResult
  rw [none] at isResult
  cases isResult

theorem Advances.refl (execution : Execution) : Advances execution execution :=
  ⟨rfl, .inl ⟨rfl, .rfl⟩, fun _ known => known⟩

theorem advances_resume (execution : Execution) (draw : ℚ) :
    Advances execution (execution.resume draw) := by
  rw [resume]
  cases phase : execution.phase with
  | called =>
    dsimp only
    split
    · exact advances_of_phase phase .rfl rfl
    · refine ⟨rfl, .inl ⟨rfl, by rw [phase]; exact .rfl⟩, ?_⟩
      rintro _ _ result ⟨⟩
      exact fun impossible => by cases impossible
  | starting =>
    have between := between_beginAttempt execution 1 draw
    refine ⟨between.request, .inl ⟨between.cancellations, ?_⟩, fun _ _ => between.result⟩
    rw [phase]
    exact iff_of_false between.idle id
  | backingOff | reporting => exact advances_of_phase phase .rfl rfl
  | checking attempt =>
    dsimp only
    split
    next found =>
      refine ⟨rfl, .inl ⟨rfl, by rw [phase]; exact .rfl⟩, ?_⟩
      intro absent
      rw [found] at absent
      cases absent
    · exact advances_of_phase phase .rfl rfl
  | registering attempt =>
    exact ⟨rfl, .inr (.inl ⟨rfl, trivial⟩), fun _ _ _ none => (by cases none)⟩
  | entering attempt token =>
    dsimp only
    split
    · exact advances_of_phase phase .rfl rfl
    · split
      · exact advances_of_phase phase .rfl rfl
      · exact advances_of_phase phase .rfl rfl
  | leaving attempt outcome =>
    have between := between_endAttempt
      { execution with
        cancellations := execution.cancellations.unregister execution.request.requestId }
      attempt draw outcome
    exact ⟨between.request, .inr (.inr ⟨between.cancellations, between.idle⟩),
      fun _ _ => between.result⟩
  | finishing result announced =>
    refine ⟨rfl, .inr (.inr ⟨rfl, ?_⟩), ?_⟩
    · dsimp only
      split
      · exact id
      · exact id
    · intro _ known next isNext
      apply known next
      rw [phase]
      dsimp only at isNext
      split at isNext
      · exact isNext
      · exact isNext
  | closing result =>
    refine ⟨rfl, .inl ⟨rfl, by rw [phase]; exact .rfl⟩, ?_⟩
    intro _ known
    rw [phase] at known
    exact known
  | _ => exact .refl execution

/-- What an action does: the execution goes on, or only the tokens change. -/
theorem step_cases (execution : Execution) (action : Action) :
    Advances execution (step execution action) ∨
    ∃ cancellations, step execution action = { execution with cancellations } ∧
      ((∃ requestId, action = .cancel requestId ∧
          cancellations = (execution.cancellations.cancel requestId).2) ∨
        ∃ requestId, requestId ≠ execution.request.requestId ∧
          (cancellations = (execution.cancellations.register requestId).2 ∨
            cancellations = execution.cancellations.unregister requestId)) := by
  unfold step
  cases action with
  | resume draw => exact .inl (advances_resume execution draw)
  | answer outcome =>
    left
    dsimp only
    split
    next phase => exact advances_of_phase phase .rfl rfl
    · exact .refl execution
  | timeOut =>
    left
    dsimp only
    split
    next phase => exact advances_of_phase phase .rfl rfl
    next phase => exact advances_of_phase phase .rfl rfl
    · exact .refl execution
  | cancel requestId => exact .inr ⟨_, rfl, .inl ⟨requestId, rfl, rfl⟩⟩
  | register requestId =>
    dsimp only
    split
    · exact .inl (.refl execution)
    next other => exact .inr ⟨_, rfl, .inr ⟨requestId, other, .inl rfl⟩⟩
  | unregister requestId =>
    dsimp only
    split
    · exact .inl (.refl execution)
    next other => exact .inr ⟨_, rfl, .inr ⟨requestId, other, .inr rfl⟩⟩

/-- No registered token is set, and no result is a cancelled one. -/
structure Sound (execution : Execution) : Prop where
  store : execution.cancellations.Sound
  result : ∀ result, execution.phase.result? = some result → result.state ≠ .cancelled

theorem sound_create (running : Bool) (request : ExecutionRequest) :
    (create running request).Sound := by
  refine ⟨⟨?_, ?_, ?_⟩, ?_⟩
  · intro requestId token none
    cases none
  · intro requestId token none
    cases none
  · intro left right token none
    cases none
  · intro result none
    cases none

theorem Sound.step (sound : execution.Sound) (action : Action) : (step execution action).Sound := by
  rcases step_cases execution action with advances | ⟨cancellations, same, others⟩
  · refine ⟨?_, advances.result (sound.store.isCancelled _) sound.result⟩
    rcases advances.tokens with ⟨tokens, -⟩ | ⟨tokens, -⟩ | ⟨tokens, -⟩
    · rw [tokens]
      exact sound.store
    · rw [tokens]
      exact sound.store.register _
    · rw [tokens]
      exact sound.store.unregister _
  · rw [same]
    refine ⟨?_, sound.result⟩
    rcases others with ⟨requestId, -, rfl⟩ | ⟨requestId, -, rfl | rfl⟩
    · exact sound.store.cancel requestId
    · exact sound.store.register requestId
    · exact sound.store.unregister requestId

def Registered (execution : Execution) : Prop :=
  (execution.cancellations.tokens.get? execution.request.requestId).isSome

/-- An action leaves the token of the request and the attempt alone, begins both or ends both,
unless it is a call of `cancel` that takes the token. -/
theorem registered_cases (execution : Execution) (action : Action) :
    (((step execution action).Registered ↔ execution.Registered) ∧
      ((step execution action).phase.Attempting ↔ execution.phase.Attempting)) ∨
    ((step execution action).Registered ∧ (step execution action).phase.Attempting) ∨
    (¬ (step execution action).Registered ∧ ¬ (step execution action).phase.Attempting) ∨
    (action = .cancel execution.request.requestId ∧ ¬ (step execution action).Registered ∧
      (step execution action).phase = execution.phase) := by
  rw [Registered]
  rcases step_cases execution action with advances | ⟨cancellations, same, others⟩
  · rw [advances.request]
    rcases advances.tokens with ⟨tokens, attempting⟩ | ⟨tokens, attempting⟩ | ⟨tokens, idle⟩
    · rw [tokens]
      exact .inl ⟨.rfl, attempting⟩
    · rw [tokens, CancellationStore.get?_register, if_pos rfl]
      exact .inr (.inl ⟨rfl, attempting⟩)
    · rw [tokens, CancellationStore.get?_unregister, if_pos rfl]
      exact .inr (.inr (.inl ⟨Bool.false_ne_true, idle⟩))
  · rw [same]
    rcases others with ⟨requestId, rfl, rfl⟩ | ⟨requestId, other, rfl | rfl⟩
    · rw [CancellationStore.get?_cancel]
      split
      next own =>
        rw [own]
        exact .inr (.inr (.inr ⟨rfl, Bool.false_ne_true, rfl⟩))
      · exact .inl ⟨.rfl, .rfl⟩
    · rw [CancellationStore.get?_register, if_neg other.symm]
      exact .inl ⟨.rfl, .rfl⟩
    · rw [CancellationStore.get?_unregister, if_neg other.symm]
      exact .inl ⟨.rfl, .rfl⟩

/-- The call of `cancel` falls into an attempt of the request. -/
def Interrupts (execution : Execution) : Action → Prop
  | .cancel requestId => requestId = execution.request.requestId ∧ execution.phase.Attempting
  | .resume _ | .answer _ | .timeOut | .register _ | .unregister _ => False

/-- The call of `cancel` is for the request and returns `True`. -/
def Succeeds (execution : Execution) : Action → Prop
  | .cancel requestId =>
    requestId = execution.request.requestId ∧ (execution.cancellations.cancel requestId).1 = true
  | .resume _ | .answer _ | .timeOut | .register _ | .unregister _ => False

instance (execution : Execution) : (action : Action) → Decidable (Succeeds execution action)
  | .cancel _ => inferInstanceAs (Decidable (_ ∧ _))
  | .resume _ | .answer _ | .timeOut | .register _ | .unregister _ => .isFalse id

/-- The action starts an invocation of the adapter. -/
def Invokes (execution : Execution) (action : Action) : Prop :=
  ¬ execution.phase.Invoking ∧ (step execution action).phase.Invoking
deriving Decidable

theorem registered_step (tracked : execution.Registered ↔ execution.phase.Attempting)
    (action : Action) (undisturbed : ¬ Interrupts execution action) :
    (step execution action).Registered ↔ (step execution action).phase.Attempting := by
  rcases registered_cases execution action with ⟨registered, attempting⟩ |
    ⟨registered, attempting⟩ | ⟨absent, idle⟩ | ⟨rfl, absent, same⟩
  · exact registered.trans (tracked.trans attempting.symm)
  · exact iff_of_true registered attempting
  · exact iff_of_false absent idle
  · refine iff_of_false absent ?_
    exact fun attempting => undisturbed ⟨rfl, attempting⟩

theorem attempting_step (only : execution.Registered → execution.phase.Attempting)
    (action : Action) (registered : (step execution action).Registered) :
    (step execution action).phase.Attempting := by
  rcases registered_cases execution action with ⟨before, attempting⟩ |
    ⟨-, attempting⟩ | ⟨absent, -⟩ | ⟨-, absent, -⟩
  · exact attempting.mpr (only (before.mp registered))
  · exact attempting
  · exact absurd registered absent
  · exact absurd registered absent

theorem not_registered_create (running : Bool) (request : ExecutionRequest) :
    ¬ (create running request).Registered :=
  Bool.false_ne_true

variable {actions : List Action} {request : ExecutionRequest}

theorem interrupts_of_succeeds {running : Bool}
    (succeeds : Occurs step Succeeds (create running request) actions) :
    Occurs step Interrupts (create running request) actions := by
  refine succeeds.of_first (fun execution => execution.Registered → execution.phase.Attempting)
    (fun _ action only _ => attempting_step only action) ?_ ?_
  · intro execution action only succeeds
    cases action with
    | cancel requestId =>
      rcases succeeds with ⟨rfl, success⟩
      exact ⟨rfl, only ((CancellationStore.cancel_eq_true_iff _).mp success)⟩
    | _ => exact succeeds.elim
  · exact fun registered => absurd registered (not_registered_create running request)

theorem succeeds_of_interrupts {running : Bool}
    (interrupts : Occurs step Interrupts (create running request) actions) :
    Occurs step Succeeds (create running request) actions := by
  refine interrupts.of_first (fun execution => execution.Registered ↔ execution.phase.Attempting)
    (fun _ action tracked undisturbed => registered_step tracked action undisturbed) ?_ ?_
  · intro execution action tracked interrupts
    cases action with
    | cancel requestId =>
      rcases interrupts with ⟨rfl, attempting⟩
      exact ⟨rfl, (CancellationStore.cancel_eq_true_iff _).mpr (tracked.mpr attempting)⟩
    | _ => exact interrupts.elim
  · exact iff_of_false (not_registered_create running request) id

theorem returned_ne_cancelled {running : Bool} {result : ExecutionResult}
    (returned : (run step (create running request) actions).phase = .returned result) :
    result.state ≠ .cancelled := by
  have sound : (run step (create running request) actions).Sound :=
    run_invariant Sound (fun _ action sound => sound.step action) (sound_create running request)
      actions
  apply sound.result
  rw [returned]
  rfl

/-- Once a call of `cancel` has succeeded, no invocation is started any more, and the execution
returns a cancelled result. -/
def Final (execution : Execution) (actions : List Action) : Prop :=
  ∀ before action after, actions = before ++ action :: after →
    Succeeds (run step execution before) action →
      ¬ Occurs step Invokes (run step execution (before ++ [action])) after ∧
      ∀ result, (run step execution actions).phase = .returned result → result.state = .cancelled

/-- Cancellation is final in the runs in which no call of `cancel` falls into an attempt, and
in no other one that returns. -/
theorem final_iff (running : Bool) (request : ExecutionRequest) (actions : List Action) :
    (¬ Occurs step Interrupts (create running request) actions →
      Final (create running request) actions) ∧
    ((∃ result, (run step (create running request) actions).phase = .returned result) →
      Final (create running request) actions →
        ¬ Occurs step Interrupts (create running request) actions) := by
  constructor
  · intro undisturbed before action after same succeeds
    have occurs : Occurs step Succeeds (create running request) actions :=
      (occurs_iff_exists _ _).mpr ⟨before, action, after, same, succeeds⟩
    exact absurd (interrupts_of_succeeds occurs) undisturbed
  · rintro ⟨result, returned⟩ final interrupts
    rcases (occurs_iff_exists _ _).mp (succeeds_of_interrupts interrupts) with
      ⟨before, action, after, same, succeeds⟩
    have cancelled := (final before action after same succeeds).2 result returned
    exact returned_ne_cancelled returned cancelled

/-- The first attempt is cancelled while the adapter works. -/
def firstAttempt : List Action :=
  [.resume 0, .resume 0, .resume 0, .resume 0, .resume 0]

def secondAttempt : List Action :=
  [.answer (.ok { requestId := "r", state := .completed }), .resume 0, .resume 0, .resume 0,
    .resume 0, .resume 0, .answer (.ok { requestId := "r", state := .completed }), .resume 0,
    .resume 0, .resume 0]

/-- A cancelled execution invokes its adapter again and returns a completed result. -/
theorem cancelled_completes :
    Succeeds (run step (create true { requestId := "r" }) firstAttempt) (.cancel "r") ∧
      Occurs step Invokes
        (run step (create true { requestId := "r" }) (firstAttempt ++ [.cancel "r"]))
        secondAttempt ∧
      (run step (create true { requestId := "r" })
        (firstAttempt ++ .cancel "r" :: secondAttempt)).phase =
          .returned { requestId := "r", state := .completed, attempts := 2, retries := 1 } ∧
      ¬ Final (create true { requestId := "r" })
        (firstAttempt ++ .cancel "r" :: secondAttempt) := by
  have succeeds : Succeeds (run step (create true { requestId := "r" }) firstAttempt)
      (.cancel "r") := by decide +kernel
  have invokes : Occurs step Invokes
      (run step (create true { requestId := "r" }) (firstAttempt ++ [.cancel "r"]))
      secondAttempt := by decide +kernel
  refine ⟨succeeds, invokes, by decide +kernel, ?_⟩
  intro final
  exact (final firstAttempt (.cancel "r") secondAttempt rfl succeeds).1 invokes

end Execution

end AgenticOS.OmniRoute
