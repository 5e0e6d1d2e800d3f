import AgenticOS.OmniRoute.Aggregation.Pipeline
import AgenticOS.OmniRoute.Executor.Replicas

/-!
# The execution of a quorum

The replicas all run to their end. Those that have completed vote with their content, and the
result is that of the first with the most frequent content, however few there are. So the size of
the quorum says how many are launched, not how many have to agree; but where more than half of it
agree, their content is the result.
-/

namespace AgenticOS.OmniRoute

open Aggregation Tally List

namespace ResponseAggregator

variable (results : List ExecutionResult)

def successful : List ExecutionResult :=
  results.filter fun result => result.state = .completed

def supporters (content : String) : ℕ :=
  results.countP fun result => result.content = content

def votingAggregate : ExecutionResult :=
  match results, successful results with
  | [], _ => { state := .failed, error := "No results" }
  | first :: _, [] => first
  | _ :: _, vote :: votes =>
    let counts : Dict String ℕ := tally ExecutionResult.content (fun _ => 1) (vote :: votes)
    ((vote :: votes).find? fun result => some result.content = frontRunner counts).getD vote

def aggregate (strategy : AggregationStrategy) : ExecutionResult :=
  match results with
  | [] => { state := .failed, error := "No results to aggregate" }
  | first :: _ =>
    match strategy with
    | .firstSuccess => first
    | .fastest | .bestQuality => ((successful results).argmin ExecutionResult.latencyMs).getD first
    | .consensus | .majorityVote | .weightedVote => votingAggregate results
    | .qualityWeighted =>
      ((successful results).argmax fun result => (result.tokensOut : ℚ)).getD first
    | _ => (successful results).head?.getD first

variable {results : List ExecutionResult} {content : String}

theorem frontRunner_contents (results : List ExecutionResult) :
    frontRunner (tally ExecutionResult.content (fun _ => 1) results : Dict String ℕ) =
      (results.map ExecutionResult.content).argmax (supporters results) := by
  rw [frontRunner_eq_argmax]
  congr 1
  funext content
  exact total_one results content

theorem votingAggregate_spec (all : ∀ result ∈ results, result.state = .completed)
    (nonempty : results ≠ []) : (results.map ExecutionResult.content).argmax (supporters results) =
        some (votingAggregate results).content ∧
      results.find? (fun result => result.content = (votingAggregate results).content) =
        some (votingAggregate results) := by
  have same : successful results = results :=
    filter_eq_self.mpr fun result member => decide_eq_true (all result member)
  obtain ⟨vote, votes, split⟩ := exists_cons_of_ne_nil nonempty
  obtain ⟨winner, isFirst⟩ : ∃ winner,
      (results.map ExecutionResult.content).argmax (supporters results) = some winner := by
    rw [← Option.ne_none_iff_exists', Ne, argmax_eq_none]
    simp [split]
  obtain ⟨result, found⟩ : ∃ result,
      results.find? (fun result => result.content = winner) = some result := by
    rw [← Option.isSome_iff_exists, find?_isSome]
    rcases mem_map.mp (argmax_mem isFirst) with ⟨result, member, isWinner⟩
    exact ⟨result, member, decide_eq_true isWinner⟩
  have elected : votingAggregate results = result := by
    rw [votingAggregate.eq_def, same, split]
    dsimp only
    rw [← split, frontRunner_contents, isFirst]
    simp [found]
  have content : result.content = winner := by simpa using find?_some found
  rw [elected, content]
  exact ⟨isFirst, found⟩

theorem eq_of_majority {size : ℤ} {winner : String} (few : results.length ≤ size)
    (majority : size < 2 * supporters results content)
    (isFirst : (results.map ExecutionResult.content).argmax (supporters results) = some winner) :
    winner = content := by
  by_contra distinct
  have together := countP_add_countP_le ExecutionResult.content results distinct
  have named : content ∈ results.map ExecutionResult.content := by
    have positive : 0 < supporters results content := by omega
    rcases countP_pos_iff.mp positive with ⟨result, member, isContent⟩
    exact mem_map.mpr ⟨result, member, of_decide_eq_true isContent⟩
  have most := le_of_mem_argmax named isFirst
  unfold supporters at majority most
  omega

end ResponseAggregator

namespace ExecutionEngineImpl

open ResponseAggregator

/-- The requests that `execute_quorum` launches. -/
def quorumRequests (request : ParallelRequest) (quorumSize : ℤ) : List ExecutionRequest :=
  replicaRequests request quorumSize

def valid (outcomes : List ReplicaOutcome) : List ExecutionResult :=
  outcomes.filterMap fun outcome =>
    match outcome with
    | .ok result => if result.state = .completed then some result else none
    | .error _ => none

def executeQuorum (running : Bool) (request : ParallelRequest) (quorumSize : ℤ)
    (outcome : Fin (quorumRequests request quorumSize).length → ReplicaOutcome) : ExecutionResult :=
  if running then
    match valid (List.ofFn outcome) with
    | [] =>
      { requestId := request.requestId
        state := .failed
        error := "Quorum: no successful results" }
    | vote :: votes => aggregate (vote :: votes) .consensus
  else notStarted request.requestId

variable {request : ParallelRequest} {quorumSize : ℤ}

theorem mem_valid_iff {outcomes : List ReplicaOutcome} {result : ExecutionResult} :
    result ∈ valid outcomes ↔ .ok result ∈ outcomes ∧ result.state = .completed := by
  rw [valid, mem_filterMap]
  constructor
  · rintro ⟨outcome, member, kept⟩
    cases outcome with
    | error error => cases kept
    | ok other =>
      by_cases completed : other.state = .completed
      · have same : other = result := by simpa [completed] using kept
        exact ⟨same ▸ member, same ▸ completed⟩
      · simp [completed] at kept
  · rintro ⟨member, completed⟩
    exact ⟨.ok result, member, if_pos completed⟩

theorem valid_ne_nil_iff {outcomes : List ReplicaOutcome} :
    valid outcomes ≠ [] ↔ ∃ outcome ∈ outcomes, Completes outcome := by
  constructor
  · intro nonempty
    rcases exists_mem_of_ne_nil _ nonempty with ⟨result, member⟩
    rcases mem_valid_iff.mp member with ⟨isOutcome, completed⟩
    exact ⟨.ok result, isOutcome, completed⟩
  · rintro ⟨outcome, member, completes⟩
    cases outcome with
    | error error => cases completes
    | ok result => exact ne_nil_of_mem (mem_valid_iff.mpr ⟨member, completes⟩)

theorem length_sliceTo_le {α : Type*} {stop : ℤ} (nonneg : 0 ≤ stop) (sequence : List α) :
    ((sliceTo stop sequence).length : ℤ) ≤ stop := by
  rw [sliceTo, if_pos nonneg, length_take]
  omega

theorem length_valid_le (positive : 1 ≤ quorumSize)
    (outcome : Fin (quorumRequests request quorumSize).length → ReplicaOutcome) :
    ((valid (List.ofFn outcome)).length : ℤ) ≤ quorumSize := by
  have fewer : (valid (List.ofFn outcome)).length ≤ (List.ofFn outcome).length :=
    length_filterMap_le _ _
  have launched := length_sliceTo_le (by omega : 0 ≤ quorumSize - 1) request.parallelProviders
  have replicas : (quorumRequests request quorumSize).length =
      (sliceTo (quorumSize - 1) request.parallelProviders).length + 1 := by
    simp [quorumRequests, replicaRequests]
  rw [length_ofFn] at fewer
  omega

theorem executeQuorum_eq_votingAggregate
    (outcome : Fin (quorumRequests request quorumSize).length → ReplicaOutcome)
    (nonempty : valid (List.ofFn outcome) ≠ []) : executeQuorum true request quorumSize outcome =
      votingAggregate (valid (List.ofFn outcome)) := by
  obtain ⟨vote, votes, split⟩ := exists_cons_of_ne_nil nonempty
  simp [executeQuorum, split, aggregate]

/-- A quorum completes as soon as one replica does, with the most frequent content. -/
theorem executeQuorum_spec (running : Bool) (request : ParallelRequest) (quorumSize : ℤ)
    (outcome : Fin (quorumRequests request quorumSize).length → ReplicaOutcome) :
    ((executeQuorum running request quorumSize outcome).state = .completed ↔
      running = true ∧ ∃ replica, Completes (outcome replica)) ∧
    ((executeQuorum running request quorumSize outcome).state = .completed →
      ((valid (List.ofFn outcome)).map ExecutionResult.content).argmax
          (supporters (valid (List.ofFn outcome))) =
        some (executeQuorum running request quorumSize outcome).content ∧
      (valid (List.ofFn outcome)).find? (fun vote =>
          vote.content = (executeQuorum running request quorumSize outcome).content) =
        some (executeQuorum running request quorumSize outcome)) ∧
    (∀ content, running = true → 1 ≤ quorumSize →
      quorumSize < 2 * supporters (valid (List.ofFn outcome)) content →
      (executeQuorum running request quorumSize outcome).content = content) := by
  have someone : valid (.ofFn outcome) ≠ [] ↔ ∃ replica, Completes (outcome replica) := by
    rw [valid_ne_nil_iff]
    simp [mem_ofFn]
  cases running with
  | false => simp [executeQuorum, notStarted]
  | true =>
    by_cases empty : valid (.ofFn outcome) = []
    · have nobody : ¬ ∃ replica, Completes (outcome replica) := fun completes =>
        someone.mpr completes empty
      simp only [executeQuorum, empty, nobody, if_true]
      refine ⟨by simp, by simp, fun content _ positive majority => ?_⟩
      simp [ResponseAggregator.supporters] at majority
      omega
    · have all : ∀ vote ∈ valid (.ofFn outcome), vote.state = .completed :=
        fun vote member => (mem_valid_iff.mp member).2
      rcases votingAggregate_spec all empty with ⟨isFirst, found⟩
      rw [executeQuorum_eq_votingAggregate outcome empty]
      refine ⟨?_, fun _ => ⟨isFirst, found⟩, fun content _ positive majority => ?_⟩
      · simpa [someone.mp empty] using all _ (mem_of_find?_eq_some found)
      · exact eq_of_majority (length_valid_le positive outcome) majority isFirst

def completesAlone (replica : Fin 3) : ReplicaOutcome :=
  if replica = 0 then .ok { state := .completed, content := "x" } else .ok { state := .failed }

/-- One completed replica of three is enough. -/
theorem completesAlone_completes :
    (executeQuorum true { provider := "a", parallelProviders := ["b", "c"] } 3
      completesAlone).state = .completed ∧
    ∀ content, ¬ 3 < 2 * supporters (valid (List.ofFn completesAlone)) content := by
  have votes : valid (.ofFn completesAlone) = [{ state := .completed, content := "x" }] := rfl
  refine ⟨rfl, fun content majority => ?_⟩
  have few : supporters (valid (.ofFn completesAlone)) content ≤ 1 := by exact countP_le_length
  omega

end ExecutionEngineImpl

end AgenticOS.OmniRoute
