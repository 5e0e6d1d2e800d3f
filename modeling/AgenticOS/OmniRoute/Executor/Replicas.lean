import AgenticOS.OmniRoute.Executor
import Mathlib.Data.Fin.VecNotation

/-!
# Executions on several providers

Hedged, speculative and racing executions launch several executions and wait until one of them is
done, whatever has become of it. A replica that fails before the others answer decides the result
then, although another one would have succeeded.

What a replica does is arbitrary: it returns any result or raises. Arbitrary is also which of
them are done when the wait ends, and in which order the set of them is gone through.
-/

namespace AgenticOS.OmniRoute

open List

structure ParallelRequest extends ExecutionRequest where
  parallelProviders : List String := []

/-- What an execution raises. A timeout is told apart from the rest. -/
inductive ReplicaError
  | timeoutError
  | other (error : String)

/-- What becomes of a replica that is left to run. -/
abbrev ReplicaOutcome :=
  Except ReplicaError ExecutionResult

def Completes : ReplicaOutcome → Prop
  | .ok result => result.state = .completed
  | .error _ => False

instance : DecidablePred Completes
  | .ok result => inferInstanceAs (Decidable (result.state = .completed))
  | .error _ => inferInstanceAs (Decidable False)

/-- `sequence[:stop]`. -/
def sliceTo {α : Type*} (stop : ℤ) (sequence : List α) : List α :=
  if 0 ≤ stop then sequence.take stop.toNat else sequence.take (sequence.length - (-stop).toNat)

/-- What is known when `asyncio.wait` returns with the first that is done: the tasks that are
done, in the order in which the set of them is gone through. -/
structure FirstCompleted (tasks : ℕ) where
  done : List (Fin tasks)
  nonempty : done ≠ []
  nodup : done.Nodup

namespace ExecutionEngineImpl

variable {tasks : ℕ}

/-- The answer of an engine that does not run. -/
def notStarted (requestId : String) : ExecutionResult where
  requestId := requestId
  state := .failed
  error := "Execution engine not started"

/-- The loop over the tasks that are done. It ends with the first that is completed or raises. -/
def firstSuccess : List ReplicaOutcome → Option ReplicaOutcome
  | [] => none
  | .error error :: _ => some (.error error)
  | .ok result :: later =>
    if result.state = .completed then some (.ok result) else firstSuccess later

/-- `next(iter(done)).result()`. -/
def firstOf (outcome : Fin tasks → ReplicaOutcome) (wait : FirstCompleted tasks) : ReplicaOutcome :=
  outcome (wait.done.head wait.nonempty)

def successOrFirst (outcome : Fin tasks → ReplicaOutcome) (wait : FirstCompleted tasks) :
    ReplicaOutcome :=
  (firstSuccess (wait.done.map outcome)).getD (firstOf outcome wait)

/-- A request for the provider and for as many further ones as are wanted. -/
def replicaRequests (request : ParallelRequest) (count : ℤ) : List ExecutionRequest :=
  (request.provider :: sliceTo (count - 1) request.parallelProviders).map fun provider =>
    { requestId := request.requestId ++ "_" ++ provider
      provider := provider
      model := request.model }

/-- The requests that `execute_hedged` launches. -/
def hedgedRequests (request : ParallelRequest) (replicas : ℤ) : List ExecutionRequest :=
  replicaRequests request replicas

variable (running : Bool)

def executeHedged (request : ParallelRequest) (replicas : ℤ)
    (outcome : Fin (hedgedRequests request replicas).length → ReplicaOutcome)
    (wait : FirstCompleted (hedgedRequests request replicas).length) : ReplicaOutcome :=
  if running then successOrFirst outcome wait else .ok (notStarted request.requestId)

/-- How a speculative execution goes: whether the primary is done within the soft timeout, and
how the wait for one of the two ends if there is one. -/
structure Speculation where
  inTime : Bool
  wait : FirstCompleted 2
  finished : inTime = true → 0 ∈ wait.done

def launchesSecondary (inTime : Bool) (primary : ReplicaOutcome) : Bool :=
  match inTime, primary with
  | false, _ => true
  | true, .ok result => result.state ≠ .completed
  | true, .error .timeoutError => true
  | true, .error (.other _) => false

def executeSpeculative (primary : ExecutionRequest)
    (outcome : Fin 2 → ReplicaOutcome) (speculation : Speculation) : ReplicaOutcome :=
  if running then
    if launchesSecondary speculation.inTime (outcome 0) then
      successOrFirst outcome speculation.wait
    else outcome 0
  else .ok (notStarted primary.requestId)

def executeRace (requests : List ExecutionRequest)
    (outcome : Fin requests.length → ReplicaOutcome) (wait : FirstCompleted requests.length) :
    ReplicaOutcome :=
  if running then firstOf outcome wait else .ok (notStarted "")

/-- Whoever completes is reached: those in front of it have returned something else. -/
def ReachesSuccess (outcomes : List ReplicaOutcome) : Prop :=
  ∃ before result after, outcomes = before ++ .ok result :: after ∧ result.state = .completed ∧
    ∀ outcome ∈ before, ∃ other, outcome = .ok other

theorem reachesSuccess_cons (outcome : ReplicaOutcome) (outcomes : List ReplicaOutcome) :
    ReachesSuccess (outcome :: outcomes) ↔
      Completes outcome ∨ (∃ result, outcome = .ok result) ∧ ReachesSuccess outcomes := by
  constructor
  · rintro ⟨before, result, after, split, completed, returned⟩
    cases before with
    | nil =>
      rw [nil_append, cons.injEq] at split
      exact .inl (split.1 ▸ completed)
    | cons first before =>
      rw [forall_mem_cons] at returned
      rcases split with ⟨rfl, rfl⟩
      exact .inr ⟨returned.1, before, result, after, rfl, completed, returned.2⟩
  · rintro (completes | ⟨⟨first, rfl⟩, before, result, after, rfl, completed, returned⟩)
    · cases outcome with
      | ok result => exact ⟨[], result, outcomes, rfl, completes, by simp⟩
      | error error => cases completes
    · refine ⟨.ok first :: before, result, after, rfl, completed, ?_⟩
      simpa using returned

/-- The loop finds a success exactly if one is reached. -/
theorem completes_firstSuccess_iff (outcomes : List ReplicaOutcome) :
    (∃ outcome, firstSuccess outcomes = some outcome ∧ Completes outcome) ↔
      ReachesSuccess outcomes := by
  induction outcomes with
  | nil => simp [firstSuccess, ReachesSuccess]
  | cons outcome outcomes ih =>
    rw [reachesSuccess_cons, ← ih]
    cases outcome with
    | error error => simp [firstSuccess, Completes]
    | ok result =>
      by_cases completed : result.state = .completed
      · simp [firstSuccess, Completes, completed]
      · simp [firstSuccess, Completes, completed]

/-- Where the loop finds nothing, nobody that is done has completed. -/
theorem not_completes_of_firstSuccess_eq_none {outcomes : List ReplicaOutcome}
    (none : firstSuccess outcomes = none) : ∀ outcome ∈ outcomes, ¬ Completes outcome := by
  induction outcomes with
  | nil => simp
  | cons outcome outcomes ih =>
    cases outcome with
    | error error => simp [firstSuccess] at none
    | ok result =>
      by_cases completed : result.state = .completed
      · simp [firstSuccess, completed] at none
      · simp only [firstSuccess, completed, if_false] at none
        exact forall_mem_cons.mpr ⟨completed, ih none⟩

theorem completes_successOrFirst_iff (outcome : Fin tasks → ReplicaOutcome)
    (wait : FirstCompleted tasks) :
    Completes (successOrFirst outcome wait) ↔ ReachesSuccess (wait.done.map outcome) := by
  rw [← completes_firstSuccess_iff, successOrFirst]
  cases found : firstSuccess (wait.done.map outcome) with
  | some first => simp
  | none =>
    have nobody := not_completes_of_firstSuccess_eq_none found (firstOf outcome wait)
      (mem_map_of_mem (head_mem wait.nonempty))
    simp [nobody]

/-- The secondary is launched, unless the primary completes in time or raises. -/
theorem launchesSecondary_eq_false_iff (inTime : Bool) (primary : ReplicaOutcome) :
    launchesSecondary inTime primary = false ↔
      inTime = true ∧ (Completes primary ∨ ∃ error, primary = .error (.other error)) := by
  cases inTime with
  | false => simp [launchesSecondary]
  | true =>
    cases primary with
    | ok result => simp [launchesSecondary, Completes]
    | error error => cases error <;> simp [launchesSecondary, Completes]

/-- A success whenever somebody who is launched would complete. -/
def SucceedsIfAnyone (outcome : Fin tasks → ReplicaOutcome) (result : ReplicaOutcome) : Prop :=
  running = true → (∃ task, Completes (outcome task)) → Completes result

/-- The same for a speculative execution, where the secondary may not be launched. -/
def SpeculationSucceeds (outcome : Fin 2 → ReplicaOutcome)
    (speculation : Speculation) (result : ReplicaOutcome) : Prop :=
  running = true →
    (Completes (outcome 0) ∨
      (launchesSecondary speculation.inTime (outcome 0) = true ∧ Completes (outcome 1))) →
    Completes result

theorem executeHedged_succeeds_iff (request : ParallelRequest) (replicas : ℤ)
    (outcome : Fin (hedgedRequests request replicas).length → ReplicaOutcome)
    (wait : FirstCompleted (hedgedRequests request replicas).length) :
    SucceedsIfAnyone running outcome (executeHedged running request replicas outcome wait) ↔
      running = false ∨ (∀ task, ¬ Completes (outcome task)) ∨
        ReachesSuccess (wait.done.map outcome) := by
  cases running with
  | false => simp [SucceedsIfAnyone]
  | true =>
    rw [← completes_successOrFirst_iff, ← not_exists]
    simp [SucceedsIfAnyone, executeHedged, imp_iff_not_or]

theorem executeRace_succeeds_iff (requests : List ExecutionRequest)
    (outcome : Fin requests.length → ReplicaOutcome) (wait : FirstCompleted requests.length) :
    SucceedsIfAnyone running outcome (executeRace running requests outcome wait) ↔
      running = false ∨ (∀ task, ¬ Completes (outcome task)) ∨
        ∃ first later, wait.done = first :: later ∧ Completes (outcome first) := by
  have isFirst : (∃ first later, wait.done = first :: later ∧ Completes (outcome first)) ↔
      Completes (firstOf outcome wait) := by
    obtain ⟨first, later, split⟩ := exists_cons_of_ne_nil wait.nonempty
    simp [firstOf, split]
  cases running with
  | false => simp [SucceedsIfAnyone]
  | true =>
    rw [isFirst, ← not_exists]
    simp [SucceedsIfAnyone, executeRace, imp_iff_not_or]

theorem executeSpeculative_succeeds_iff (primary : ExecutionRequest)
    (outcome : Fin 2 → ReplicaOutcome) (speculation : Speculation) :
    SpeculationSucceeds running outcome speculation
        (executeSpeculative running primary outcome speculation) ↔
      running = false ∨ (speculation.inTime = true ∧ Completes (outcome 0)) ∨
        (¬ Completes (outcome 0) ∧
          (launchesSecondary speculation.inTime (outcome 0) = true → ¬ Completes (outcome 1))) ∨
        (launchesSecondary speculation.inTime (outcome 0) = true ∧
          ReachesSuccess (speculation.wait.done.map outcome)) := by
  cases running with
  | false => simp [SpeculationSucceeds]
  | true =>
    cases launched : launchesSecondary speculation.inTime (outcome 0) with
    | true =>
      have notInTime : ¬ (speculation.inTime = true ∧ Completes (outcome 0)) := by
        rintro ⟨inTime, completes⟩
        rw [(launchesSecondary_eq_false_iff _ _).mpr ⟨inTime, .inl completes⟩] at launched
        cases launched
      rw [← completes_successOrFirst_iff]
      simp only [SpeculationSucceeds, executeSpeculative, launched, if_true, notInTime]
      tauto
    | false =>
      rcases (launchesSecondary_eq_false_iff _ _).mp launched with ⟨inTime, -⟩
      simp only [SpeculationSucceeds, executeSpeculative, launched]
      simp [inTime, em]

/-- The three modes succeed whenever somebody they launch would, exactly if nobody would or the one
who would is reached. -/
theorem succeeds_iff : (∀ request replicas outcome wait,
      SucceedsIfAnyone running outcome (executeHedged running request replicas outcome wait) ↔
        running = false ∨ (∀ task, ¬ Completes (outcome task)) ∨
          ReachesSuccess (wait.done.map outcome)) ∧
    (∀ primary outcome speculation, SpeculationSucceeds running outcome speculation
          (executeSpeculative running primary outcome speculation) ↔
        running = false ∨ (speculation.inTime = true ∧ Completes (outcome 0)) ∨
          (¬ Completes (outcome 0) ∧
            (launchesSecondary speculation.inTime (outcome 0) = true → ¬ Completes (outcome 1))) ∨
          (launchesSecondary speculation.inTime (outcome 0) = true ∧
            ReachesSuccess (speculation.wait.done.map outcome))) ∧
    (∀ requests outcome wait,
      SucceedsIfAnyone running outcome (executeRace running requests outcome wait) ↔
        running = false ∨ (∀ task, ¬ Completes (outcome task)) ∨
          ∃ first later, wait.done = first :: later ∧ Completes (outcome first)) :=
  ⟨executeHedged_succeeds_iff running, executeSpeculative_succeeds_iff running,
    executeRace_succeeds_iff running⟩

def failsFirst (task : Fin 2) : ReplicaOutcome :=
  if task = 0 then .ok { state := .failed } else .ok { state := .completed }

def onlyFirst : FirstCompleted 2 where
  done := [0]
  nonempty := by decide
  nodup := by decide

/-- The failure of the first replica is the result of all three modes. -/
theorem failsFirst_fails :
    (∃ task, Completes (failsFirst task)) ∧
      executeHedged true { provider := "a", parallelProviders := ["b"] } 2 failsFirst onlyFirst =
        .ok { state := .failed } ∧
      executeSpeculative true {} failsFirst ⟨true, onlyFirst, fun _ => by decide⟩ =
        .ok { state := .failed } ∧
      executeRace true [{}, {}] failsFirst onlyFirst = .ok { state := .failed } := by
  exact ⟨⟨1, rfl⟩, rfl, rfl, rfl⟩

end ExecutionEngineImpl

end AgenticOS.OmniRoute
