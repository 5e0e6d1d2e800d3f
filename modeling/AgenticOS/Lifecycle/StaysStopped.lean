import AgenticOS.Lifecycle.LifecycleManager

/-!
# What is stopped stays stopped

Failure handlings do not ask whether their service was stopped in the meantime. They leave the
stopped services alone exactly as long as no failure is reported of a stopped service, and no
service is stopped while a failure of it is handled.
-/

namespace AgenticOS.Lifecycle.LifecycleManager

open Transition List Dict

variable {manager before after : LifecycleManager} {serviceId other : String}

section

variable (manager : LifecycleManager) (serviceId : String) (newState : ServiceState)
  (error : Option String)

theorem stateOf_transition (other : String) :
    (manager.transition serviceId newState error).stateOf other =
      if other = serviceId then (manager.stateOf other).map fun _ => newState
      else manager.stateOf other := by
  unfold transition stateOf
  cases found : manager.records.get? serviceId with
  | none =>
    by_cases same : other = serviceId
    · rw [if_pos same, same, found]
      rfl
    · rw [if_neg same]
  | some record =>
    rw [get?_set]
    by_cases same : other = serviceId
    · rw [if_pos same, if_pos same, same, found]
      rfl
    · rw [if_neg same, if_neg same]

theorem transition_rest : ∃ records, manager.transition serviceId newState error =
      { manager with records := records } := by
  unfold transition
  cases manager.records.get? serviceId with
  | none => exact ⟨manager.records, rfl⟩
  | some record => exact ⟨_, rfl⟩

end

theorem isSome_stateOf_transition (newState : ServiceState) (error : Option String) :
    ((manager.transition serviceId newState error).stateOf other).isSome =
      (manager.stateOf other).isSome := by
  rw [stateOf_transition]
  split <;> simp

/-- What a piece of a shutdown does: it handles no failure, it leaves no service degraded that
it writes to, and it closes no other ones. -/
structure Stops (before after : LifecycleManager) : Prop where
  handlings : after.handlings = before.handlings
  restarts : after.restarts = before.restarts
  written : ∀ serviceId,
    (after.stateOf serviceId = before.stateOf serviceId ∧
      (serviceId ∈ after.closed → serviceId ∈ before.closed)) ∨
    ∃ state, after.stateOf serviceId = some state ∧ state ≠ .degraded

theorem Stops.refl (manager : LifecycleManager) : Stops manager manager :=
  ⟨rfl, rfl, fun _ => .inl ⟨rfl, id⟩⟩

theorem Stops.trans {first second third : LifecycleManager} (before : Stops first second)
    (after : Stops second third) : Stops first third := by
  refine ⟨after.handlings.trans before.handlings, after.restarts.trans before.restarts, ?_⟩
  intro serviceId
  rcases after.written serviceId with ⟨same, closed⟩ | written
  · rcases before.written serviceId with ⟨sameBefore, closedBefore⟩ | ⟨state, reached, good⟩
    · exact .inl ⟨same.trans sameBefore, fun member => closedBefore (closed member)⟩
    · exact .inr ⟨state, same.trans reached, good⟩
  · exact .inr written

section

variable (manager : LifecycleManager) (serviceId : String)

theorem stops_transition (newState : ServiceState) (good : newState ≠ .degraded)
    (error : Option String) : Stops manager (manager.transition serviceId newState error) := by
  obtain ⟨records, same⟩ := transition_rest manager serviceId newState error
  refine ⟨by rw [same], by rw [same], fun other => ?_⟩
  have states := stateOf_transition manager serviceId newState error other
  split at states
  next =>
    cases found : manager.stateOf other with
    | none =>
      rw [found] at states
      exact .inl ⟨states, by rw [same]; exact id⟩
    | some state =>
      rw [found] at states
      exact .inr ⟨newState, states, good⟩
  next => exact .inl ⟨states, by rw [same]; exact id⟩

theorem stops_dispose : Stops manager (manager.dispose serviceId) := by
  unfold dispose
  cases found : manager.records.get? serviceId with
  | none => exact .refl manager
  | some record =>
    have moved := stops_transition manager serviceId .disposed nofun none
    have states := stateOf_transition manager serviceId .disposed none
    refine ⟨moved.handlings, moved.restarts, fun other => ?_⟩
    by_cases same : other = serviceId
    · subst same
      refine .inr ⟨.disposed, (states other).trans ?_, nofun⟩
      simp [stateOf, found]
    · rw [show ∀ closed, stateOf { manager.transition serviceId .disposed none with
          closed := closed } other = manager.stateOf other from
        fun closed => (states other).trans (if_neg same)]
      refine .inl ⟨rfl, fun member => ?_⟩
      exact (Finset.mem_insert.mp member).resolve_left same

theorem stops_stopFailed (what : Raised) : Stops manager (manager.stopFailed serviceId what) := by
  cases what with
  | timeout =>
    exact (stops_transition manager serviceId .stopped nofun _).trans (stops_dispose _ serviceId)
  | error text => exact stops_transition manager serviceId .failed nofun _

end

section

variable (hooks : Hooks)

section

variable (manager : LifecycleManager)

theorem stops_stopServices (services : List String) :
    Stops manager (stopServices hooks manager services).1 := by
  induction services generalizing manager with
  | nil => exact .refl manager
  | cons serviceId rest hypothesis =>
    have stopping := stops_transition manager serviceId .stopping nofun none
    unfold stopServices
    split
    next what raised =>
      exact (stopping.trans (stops_stopFailed _ serviceId what)).trans (hypothesis _)
    next => exact stopping

theorem stops_stopPhases (phases : List Phase) :
    Stops manager (stopPhases hooks manager phases).1 := by
  induction phases generalizing manager with
  | nil => exact .refl manager
  | cons phase phases hypothesis =>
    have walked := stops_stopServices hooks manager (manager.servicesOf phase).reverse
    unfold stopPhases
    split
    next next same =>
      rw [same] at walked
      exact walked.trans (hypothesis next)
    next next pending _ same =>
      rw [same] at walked
      exact walked

theorem stops_stopRest (phases : List Phase) (rest : List String) :
    Stops manager (manager.stopRest hooks phases rest).1 := by
  have walked := stops_stopServices hooks manager rest
  unfold stopRest
  split
  next next same =>
    rw [same] at walked
    exact walked.trans (stops_stopPhases hooks next phases)
  next next pending _ same =>
    rw [same] at walked
    exact walked

theorem stops_stopPhase (shutdown : Shutdown) (answer : Answer) :
    Stops manager (manager.stopPhase hooks shutdown answer).1 := by
  unfold stopPhase
  split
  next => exact stops_stopPhases hooks manager shutdown.phases
  next serviceId rest _ =>
    split
    next what => exact (stops_stopFailed manager serviceId what).trans (stops_stopRest ..)
    next => exact stops_transition manager serviceId .stopped nofun none
    next =>
      have disposed := stops_dispose manager serviceId
      split
      next what _ =>
        exact (disposed.trans (stops_stopFailed _ serviceId what)).trans (stops_stopRest ..)
      next => exact disposed.trans (stops_stopRest ..)

theorem stops_shutDown (phases : List Phase) : Stops manager (manager.shutDown hooks phases) := by
  have walked := stops_stopPhases hooks manager phases
  unfold shutDown
  split
  next next same =>
    rw [same] at walked
    exact walked
  next next shutdown same =>
    rw [same] at walked
    exact ⟨walked.handlings, walked.restarts, walked.written⟩

end

end

/-! ## Steps that handle no failure -/

/-- What every step does that is none of a failure handling. -/
structure Elsewhere (before after : LifecycleManager) : Prop where
  handlings : after.handlings = before.handlings
  kept : ∀ serviceId, (before.stateOf serviceId).isSome → (after.stateOf serviceId).isSome
  closed : ∀ serviceId ∈ after.closed, serviceId ∈ before.closed ∨
    ∃ state, after.stateOf serviceId = some state ∧ state ≠ .degraded

theorem Stops.elsewhere (stops : Stops before after) : Elsewhere before after := by
  refine ⟨stops.handlings, ?_, ?_⟩
  · intro serviceId present
    rcases stops.written serviceId with ⟨same, -⟩ | ⟨state, reached, -⟩
    · rw [same]
      exact present
    · rw [reached]
      rfl
  · intro serviceId member
    exact (stops.written serviceId).imp (fun same => same.2 member) id

/-- A startup leaves alone what is closed. -/
structure Boots (before after : LifecycleManager) : Prop where
  handlings : after.handlings = before.handlings
  closed : after.closed = before.closed
  kept : ∀ serviceId, (before.stateOf serviceId).isSome → (after.stateOf serviceId).isSome

theorem Boots.trans {first second third : LifecycleManager} (before : Boots first second)
    (after : Boots second third) : Boots first third :=
  ⟨after.handlings.trans before.handlings, after.closed.trans before.closed,
    fun serviceId present => after.kept serviceId (before.kept serviceId present)⟩

section

variable (manager : LifecycleManager)

theorem boots_transition (serviceId : String) (newState : ServiceState) (error : Option String) :
    Boots manager (manager.transition serviceId newState error) := by
  obtain ⟨records, same⟩ := transition_rest manager serviceId newState error
  refine ⟨by rw [same], by rw [same], fun other present => ?_⟩
  rw [isSome_stateOf_transition]
  exact present

theorem boots_bootFailed (serviceId : String) (what : Raised) :
    Boots manager (manager.bootFailed serviceId what) := by
  cases what <;> exact boots_transition manager serviceId .failed _

theorem boots_bootService (hooks : Hooks) (serviceId : String) (stage : BootStage)
    (answer : Answer) : Boots manager (manager.bootService hooks serviceId stage answer).1 := by
  unfold bootService
  split
  next =>
    have moved := boots_transition manager serviceId .initializing none
    split
    next what _ => exact moved.trans (boots_bootFailed _ serviceId what)
    next => exact moved
  next what => exact boots_bootFailed manager serviceId what
  next => exact boots_transition manager serviceId .loading none
  next what => exact boots_bootFailed manager serviceId what
  next => exact boots_transition manager serviceId .ready none
  next =>
    dsimp only
    split
    next what _ =>
      exact (boots_transition manager serviceId _ none).trans (boots_bootFailed _ serviceId what)
    next => exact boots_transition manager serviceId _ none

end

/-- A step of a failure handling: the report of a failure, or the answer to a repair or a
restart. -/
def Action.Handles : Action → Prop
  | .onServiceFailure .. | .failureAnswer .. => True
  | _ => False

variable {action : Action}

theorem handles_cases (handles : action.Handles) :
    (∃ serviceId error, action = .onServiceFailure serviceId error) ∨
      ∃ number answer, action = .failureAnswer number answer := by
  cases action with
  | onServiceFailure serviceId error => exact .inl ⟨serviceId, error, rfl⟩
  | failureAnswer number answer => exact .inr ⟨number, answer, rfl⟩
  | _ => cases handles

theorem elsewhere_step {action : Action} (other : ¬ action.Handles) :
    Elsewhere manager (manager.step action) := by
  cases action with
  | onServiceFailure | failureAnswer => exact absurd trivial other
  | registerService serviceId phase =>
    refine ⟨rfl, fun other present => ?_, fun other member => ?_⟩
    · simp only [step, registerService, stateOf, get?_set]
      split
      next => rfl
      next => exact present
    · exact .inl (Finset.mem_of_mem_erase member)
  | startPhase phase =>
    exact ⟨rfl, fun _ => id, fun other member => .inl (Finset.mem_of_mem_filter other member)⟩
  | bootAnswer number answer hooks =>
    unfold step
    dsimp only
    split
    next => exact ⟨rfl, fun _ => id, fun _ => .inl⟩
    next serviceId stage _ =>
      have boots := boots_bootService manager hooks serviceId stage answer
      split
      next next same =>
        rw [same] at boots
        exact ⟨boots.handlings, boots.kept, fun other member => .inl (boots.closed ▸ member)⟩
      next next stage same =>
        rw [same] at boots
        exact ⟨boots.handlings, boots.kept, fun other member => .inl (boots.closed ▸ member)⟩
  | stop hooks => exact (stops_shutDown hooks manager Phase.reverse).elsewhere
  | stopPhase phase hooks => exact (stops_shutDown hooks manager [phase]).elsewhere
  | stopAnswer number answer hooks =>
    unfold step
    dsimp only
    split
    next => exact ⟨rfl, fun _ => id, fun _ => .inl⟩
    next shutdown _ =>
      have stops := (stops_stopPhase hooks manager shutdown answer).elsewhere
      split
      next next same =>
        rw [same] at stops
        exact ⟨stops.handlings, stops.kept, stops.closed⟩
      next next shutdown same =>
        rw [same] at stops
        exact ⟨stops.handlings, stops.kept, stops.closed⟩

def Handled (manager : LifecycleManager) (serviceId : String) : Prop :=
  ∃ number handling, manager.handlings.get? number = some handling ∧ handling.serviceId = serviceId

/-- A handling leaves every closed service as it is. -/
def StaysStopped (manager : LifecycleManager) (action : Action) : Prop :=
  action.Handles → ∀ serviceId ∈ manager.closed,
    (manager.step action).stateOf serviceId = manager.stateOf serviceId ∧
      (manager.step action).restarts.count serviceId = manager.restarts.count serviceId

/-- No failure is reported of a closed service, and none is closed while a failure of it is
handled. -/
def Apart (manager : LifecycleManager) (action : Action) : Prop :=
  (∀ serviceId error, action = .onServiceFailure serviceId error → serviceId ∉ manager.closed) ∧
  ∀ serviceId ∈ (manager.step action).closed, serviceId ∉ manager.closed →
    ¬ manager.Handled serviceId

/-- What holds in a run that keeps them apart. -/
structure Clear (manager : LifecycleManager) : Prop where
  unhandled : ∀ serviceId ∈ manager.closed, ¬ manager.Handled serviceId
  present : ∀ serviceId ∈ manager.closed, (manager.stateOf serviceId).isSome

theorem clear_initially : Clear {} :=
  ⟨(fun _ member => nomatch member), (fun _ member => nomatch member)⟩

theorem handle_spec (manager : LifecycleManager) (number : Nat) (handling : Handling)
    (answer : Answer) : (manager.handle number handling answer).closed = manager.closed ∧
    (∀ other, other ≠ handling.serviceId →
      (manager.handle number handling answer).stateOf other = manager.stateOf other ∧
      (manager.handle number handling answer).restarts.count other = manager.restarts.count other) ∧
    (∀ other, ((manager.handle number handling answer).stateOf other).isSome =
      (manager.stateOf other).isSome) ∧
    ((manager.handle number handling answer).handlings = manager.handlings.erase number ∨
      (manager.handle number handling answer).handlings =
        manager.handlings.set number { handling with restarting := true }) := by
  have unmoved : ∀ newState error other, other ≠ handling.serviceId →
      (manager.transition handling.serviceId newState error).stateOf other =
        manager.stateOf other := by
    intro newState error other distinct
    rw [stateOf_transition, if_neg distinct]
  have rest : ∀ newState error,
      (manager.transition handling.serviceId newState error).closed = manager.closed ∧
      (manager.transition handling.serviceId newState error).restarts = manager.restarts := by
    intro newState error
    obtain ⟨records, same⟩ := transition_rest manager handling.serviceId newState error
    rw [same]
    exact ⟨rfl, rfl⟩
  unfold handle
  split
  next =>
    refine ⟨(rest _ _).1, fun other distinct => ⟨unmoved _ _ other distinct, ?_⟩,
      fun other => isSome_stateOf_transition _ _, .inr rfl⟩
    exact count_cons_of_ne (.symm distinct)
  next =>
    refine ⟨(rest _ _).1, fun other distinct => ⟨unmoved _ _ other distinct, ?_⟩,
      fun other => isSome_stateOf_transition _ _, .inl rfl⟩
    exact congrArg (count other) (rest _ _).2
  next =>
    refine ⟨(rest _ _).1, fun other distinct => ⟨unmoved _ _ other distinct, ?_⟩,
      fun other => isSome_stateOf_transition _ _, .inl rfl⟩
    exact congrArg (count other) (rest _ _).2

theorem onServiceFailure_spec {state : ServiceState}
    (present : manager.stateOf serviceId = some state) (error : String) :
    (manager.onServiceFailure serviceId error).closed = manager.closed ∧
    (manager.onServiceFailure serviceId error).restarts = manager.restarts ∧
    (∀ other, (manager.onServiceFailure serviceId error).stateOf other =
      if other = serviceId then some .failed else manager.stateOf other) ∧
    (manager.onServiceFailure serviceId error).handlings =
      manager.handlings.set manager.tasks ⟨serviceId, false⟩ := by
  obtain ⟨record, found, -⟩ := Option.map_eq_some_iff.mp present
  unfold onServiceFailure
  simp only [found]
  generalize counting : { manager with
    records := manager.records.set serviceId
      { record with failureCount := record.failureCount + 1 } } = counted
  obtain ⟨records, same⟩ := transition_rest counted serviceId .failed (some error)
  refine ⟨?_, ?_, fun other => ?_, trivial⟩
  · rw [same, ← counting]
  · rw [same, ← counting]
  · refine (stateOf_transition counted serviceId .failed (some error) other).trans ?_
    rw [← counting]
    simp only [stateOf, get?_set]
    split
    next => rfl
    next => rfl

theorem onServiceFailure_absent (absent : manager.stateOf serviceId = none) (error : String) :
    manager.onServiceFailure serviceId error = manager := by
  unfold onServiceFailure
  rw [Option.map_eq_none_iff.mp absent]

variable {handling : Handling}

theorem handled_handle {number : Nat} (found : manager.handlings.get? number = some handling)
    (answer : Answer) (handled : (manager.handle number handling answer).Handled serviceId) :
    manager.Handled serviceId := by
  obtain ⟨other, current, foundCurrent, rfl⟩ := handled
  rcases (handle_spec manager number handling answer).2.2.2 with same | same
  · rw [same] at foundCurrent
    exact ⟨other, current, get?_of_get?_erase foundCurrent, rfl⟩
  · rw [same, get?_set] at foundCurrent
    split at foundCurrent
    next =>
      cases foundCurrent
      exact ⟨number, handling, found, rfl⟩
    next => exact ⟨other, current, foundCurrent, rfl⟩

section

variable (clear : Clear manager)
include clear

theorem Clear.elsewhere (apart : manager.Apart action)
    (elsewhere : Elsewhere manager (manager.step action)) : Clear (manager.step action) := by
  constructor
  · rintro serviceId member ⟨number, handling, found, same⟩
    rw [elsewhere.handlings] at found
    by_cases before : serviceId ∈ manager.closed
    · exact clear.unhandled serviceId before ⟨number, handling, found, same⟩
    · exact apart.2 serviceId member before ⟨number, handling, found, same⟩
  · intro serviceId member
    rcases elsewhere.closed serviceId member with before | ⟨state, reached, -⟩
    · exact elsewhere.kept serviceId (clear.present serviceId before)
    · rw [reached]
      rfl

theorem Clear.onServiceFailure (error : String) (unclosed : serviceId ∉ manager.closed) :
    Clear (manager.onServiceFailure serviceId error) := by
  cases found : manager.stateOf serviceId with
  | none =>
    rw [onServiceFailure_absent found]
    exact clear
  | some state =>
    obtain ⟨closed, -, states, handlings⟩ := onServiceFailure_spec found error
    constructor
    · rintro other member ⟨number, handling, foundHandling, rfl⟩
      rw [closed] at member
      rw [handlings, get?_set] at foundHandling
      split at foundHandling
      next =>
        cases foundHandling
        exact unclosed member
      next => exact clear.unhandled _ member ⟨number, handling, foundHandling, rfl⟩
    · intro other member
      rw [closed] at member
      rw [states]
      split
      next => rfl
      next => exact clear.present other member

theorem Clear.handle {number : Nat} (found : manager.handlings.get? number = some handling)
    (answer : Answer) : Clear (manager.handle number handling answer) := by
  obtain ⟨closed, -, kept, -⟩ := handle_spec manager number handling answer
  constructor
  · intro other member handled
    rw [closed] at member
    exact clear.unhandled other member (handled_handle found answer handled)
  · intro other member
    rw [closed] at member
    rw [kept]
    exact clear.present other member

theorem Clear.step (apart : manager.Apart action) : Clear (manager.step action) := by
  by_cases handles : action.Handles
  · rcases handles_cases handles with ⟨serviceId, error, rfl⟩ | ⟨number, answer, rfl⟩
    · exact clear.onServiceFailure error (apart.1 serviceId error rfl)
    · unfold LifecycleManager.step
      dsimp only
      split
      next => exact clear
      next handling found => exact clear.handle found answer
  · exact clear.elsewhere apart (elsewhere_step handles)

theorem Clear.staysStopped (apart : manager.Apart action) : manager.StaysStopped action := by
  intro handles other member
  rcases handles_cases handles with ⟨serviceId, error, rfl⟩ | ⟨number, answer, rfl⟩
  · have distinct : other ≠ serviceId := by
      rintro rfl
      exact apart.1 other error rfl member
    cases found : manager.stateOf serviceId with
    | none =>
      rw [show manager.step (.onServiceFailure serviceId error) = manager from
        onServiceFailure_absent found error]
      exact ⟨rfl, rfl⟩
    | some state =>
      obtain ⟨-, restarts, states, -⟩ := onServiceFailure_spec found error
      exact ⟨(states other).trans (if_neg distinct), congrArg (count other) restarts⟩
  · unfold LifecycleManager.step
    dsimp only
    split
    next => exact ⟨rfl, rfl⟩
    next handling found =>
      refine (handle_spec manager number handling answer).2.1 other ?_
      rintro rfl
      exact clear.unhandled _ member ⟨number, handling, found, rfl⟩

end

/-! ## Runs -/

/-- The answer to a repair or a restart, on which a failure handling goes on. -/
def Action.Resumes : Action → Prop
  | .failureAnswer .. => True
  | _ => False

theorem closed_of_handles (handles : action.Handles) :
    (manager.step action).closed = manager.closed := by
  rcases handles_cases handles with ⟨serviceId, error, rfl⟩ | ⟨number, answer, rfl⟩
  · change (manager.onServiceFailure serviceId error).closed = manager.closed
    cases found : manager.stateOf serviceId with
    | none => rw [onServiceFailure_absent found]
    | some state => exact (onServiceFailure_spec found error).1
  · unfold step
    dsimp only
    split
    next => rfl
    next handling _ => exact (handle_spec manager number handling answer).1

theorem apart_of_resumes (resumes : action.Resumes) : manager.Apart action := by
  constructor
  · rintro serviceId error rfl
    cases resumes
  · intro serviceId member unclosed
    have handles : action.Handles := by cases action <;> trivial
    rw [closed_of_handles handles] at member
    exact absurd member unclosed

theorem not_staysStopped_raised {number : Nat} {state : ServiceState}
    (found : manager.handlings.get? number = some handling)
    (closed : handling.serviceId ∈ manager.closed)
    (reached : manager.stateOf handling.serviceId = some state) (good : state ≠ .degraded) :
    ¬ manager.StaysStopped (.failureAnswer number (.raised .timeout)) := by
  intro stays
  have unchanged := (stays trivial handling.serviceId closed).1
  have degraded : (manager.step (.failureAnswer number (.raised .timeout))).stateOf
      handling.serviceId = some .degraded := by
    have moved := stateOf_transition manager handling.serviceId .degraded (some "repair failed")
      handling.serviceId
    rw [if_pos rfl, reached] at moved
    unfold step
    simp only [found]
    unfold handle
    split
    next => contradiction
    next => contradiction
    next => exact moved
  rw [degraded, reached] at unchanged
  exact good (Option.some.inj unchanged).symm

theorem Clear.apart_of_stays (clear : Clear manager) (stays : manager.StaysStopped action)
    (resumed : ∀ answer : Action, answer.Resumes → (manager.step action).StaysStopped answer) :
    manager.Apart action := by
  constructor
  · rintro serviceId error rfl closed
    obtain ⟨state, present⟩ := Option.isSome_iff_exists.mp (clear.present serviceId closed)
    obtain ⟨sameClosed, -, states, handlings⟩ := onServiceFailure_spec present error
    have found : (manager.step (.onServiceFailure serviceId error)).handlings.get?
        manager.tasks = some ⟨serviceId, false⟩ :=
      (congrArg (Dict.get? · manager.tasks) handlings).trans (get?_set_self _ _ _)
    exact not_staysStopped_raised found (sameClosed ▸ closed)
      ((states serviceId).trans (if_pos rfl)) nofun (resumed _ trivial)
  · rintro serviceId member unclosed ⟨number, handling, found, rfl⟩
    by_cases handles : action.Handles
    · rw [closed_of_handles handles] at member
      exact unclosed member
    · have elsewhere := @elsewhere_step manager action handles
      obtain ⟨state, reached, good⟩ := (elsewhere.closed _ member).resolve_left unclosed
      exact not_staysStopped_raised (elsewhere.handlings ▸ found) member reached good
        (resumed _ trivial)

theorem Clear.along_apart (clear : Clear manager) {actions : List Action}
    (stays : ∀ done, done <+: actions → ∀ answers : List Action,
      (∀ answer ∈ answers, answer.Resumes) →
        Along LifecycleManager.step StaysStopped manager (done ++ answers)) :
    Along LifecycleManager.step Apart manager actions := by
  induction actions generalizing manager with
  | nil => trivial
  | cons action actions hypothesis =>
    have first : [action] <+: action :: actions := prefix_append [action] actions
    have apart : manager.Apart action := by
      refine clear.apart_of_stays (stays [action] first [] (fun _ member => nomatch member)).1 ?_
      intro answer resumes
      refine (stays [action] first [answer] ?_).2.1
      exact fun other member => mem_singleton.mp member ▸ resumes
    refine ⟨apart, hypothesis (clear.step apart) ?_⟩
    intro done earlier answers resumes
    exact (stays (action :: done) (cons_prefix_cons.mpr ⟨rfl, earlier⟩) answers resumes).2

/-- However the failure handlings that are under way go on, they leave alone what is stopped,
exactly if failures and shutdowns of one service are kept apart. -/
theorem staysStopped_iff (actions : List Action) :
    (∀ done, done <+: actions → ∀ answers : List Action,
      (∀ answer ∈ answers, answer.Resumes) → Along step StaysStopped {} (done ++ answers)) ↔
      Along step Apart {} actions := by
  have stays : ∀ {actions}, Along step Apart {} actions → Along step StaysStopped {} actions :=
    fun along => along.imp_of_invariant (fun _ _ clear apart => clear.step apart)
      (fun _ _ clear apart => clear.staysStopped apart) clear_initially
  constructor
  · exact clear_initially.along_apart
  · intro along done earlier answers resumes
    refine stays ((along_append _ done answers).mpr ⟨along.of_prefix earlier, ?_⟩)
    exact .of_forall_mem (fun answer member _ => apart_of_resumes (resumes answer member)) _

/-- A service that is stopped, and then reported to have failed. -/
def lateFailure : List Action :=
  [.registerService "a" .core, .startPhase .core, .stop fun _ _ => none,
    .stopAnswer 1 (.returned true) fun _ _ => none,
    .stopAnswer 1 (.returned true) fun _ _ => none,
    .onServiceFailure "a" "late", .failureAnswer 2 (.returned true),
    .failureAnswer 2 (.returned true)]

theorem lateFailure_not_staysStopped : ¬ Along step StaysStopped {} lateFailure := by
  intro along
  have late := (along_iff_forall_at _ lateFailure).mp along (lateFailure.take 5)
    (.onServiceFailure "a" "late") ⟨lateFailure.drop 6, rfl⟩
  have disposed : (run step {} (lateFailure.take 5)).stateOf "a" = some .disposed := by decide
  have failed : (step (run step {} (lateFailure.take 5))
    (.onServiceFailure "a" "late")).stateOf "a" = some .failed := by decide
  have unchanged := (late trivial "a" (by decide)).1
  cases unchanged

end AgenticOS.Lifecycle.LifecycleManager
