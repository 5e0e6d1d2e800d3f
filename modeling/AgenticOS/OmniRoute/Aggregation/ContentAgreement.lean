import AgenticOS.OmniRoute.Aggregation.Pipeline

/-!
# The content of a consensus

A consensus elects a value; the content of the answer is that of the response with the
highest score. These are two independent choices, so the answer need not be what the
providers agree on. Only under the unanimous strategy there is nothing to choose from.
-/

namespace AgenticOS.OmniRoute.Aggregation

open ConsensusEngine Tally List

/-- The strategies that ask for an agreement of the providers. -/
def consensusStrategies : List AggregationStrategy :=
  [.consensus, .majorityVote, .superMajority, .quorum, .weightedVote, .unanimous]

/-- The content is the consensus that was reached. -/
def Agrees (result : AggregationResult) : Prop :=
  result.strategy ∈ consensusStrategies → ∀ consensus, result.consensus = some consensus →
    consensus.reached = true → result.content = consensus.value

/-- The response with the highest score, the first of several. -/
def topRanked (responses : List NormalizedResponse) : Option NormalizedResponse :=
  responses.argmax (finalScore responses)

def supporters (responses : List NormalizedResponse) (content : String) : Nat :=
  responses.countP fun response => response.content = content

def mostFrequent (responses : List NormalizedResponse) : Option String :=
  (responses.map NormalizedResponse.content).argmax (supporters responses)

/-- Enough supporters among all responses. -/
def Enough : AggregationStrategy → (support size : Nat) → Prop
  | .superMajority, support, size => 66 * size ≤ 100 * support
  | .quorum, support, size => 3 ≤ size ∧ size ≤ 2 * support
  | .unanimous, support, size => support = size
  | _, support, size => size < 2 * support

def Elected (strategy : AggregationStrategy) (responses : List NormalizedResponse)
    (content : String) : Prop :=
  mostFrequent responses = some content ∧
    Enough strategy (supporters responses content) responses.length

/-- What is elected is the top-ranked content. -/
def TopRankedElected (request : AggregationRequest) : Prop :=
  let responses := scoredResponses request
  let strategy := resolveStrategy request.strategy (computeCandidates responses)
  strategy ∈ consensusStrategies → strategy ≠ .unanimous →
    ∀ content, Elected strategy responses content →
      (topRanked responses).map NormalizedResponse.content = some content

section

variable {α β : Type}

theorem head?_insertionSort (score : α → ℚ) (items : List α) :
    (items.insertionSort fun first second => score second ≤ score first).head? =
      items.argmax score := by
  induction items with
  | nil => rfl
  | cons item items ih =>
    rw [argmax_cons, ← ih, insertionSort_cons]
    cases items.insertionSort fun first second => score second ≤ score first with
    | nil => rfl
    | cons first rest =>
      rw [orderedInsert_cons]
      by_cases less : score item < score first
      · rw [if_neg less.not_ge]
        simp [less]
      · rw [if_pos (not_lt.mp less)]
        simp [less]

theorem argmax_map {γ : Type} [LinearOrder γ] (score : β → γ) (form : α → β) (items : List α) :
    (items.map form).argmax score = (items.argmax fun item => score (form item)).map form := by
  induction items with
  | nil => rfl
  | cons item items ih =>
    rw [map_cons, argmax_cons, argmax_cons, ih]
    cases items.argmax fun item => score (form item) with
    | none => rfl
    | some best =>
      by_cases less : score (form item) < score (form best)
      · simp [less]
      · simp [less]

theorem argmax_natCast (score : α → Nat) (items : List α) :
    (items.argmax fun item => (score item : ℚ)) = items.argmax score := by
  induction items with
  | nil => rfl
  | cons item items ih =>
    rw [argmax_cons, argmax_cons, ih]
    simp only [Nat.cast_lt]

variable (responses : List NormalizedResponse)

theorem head?_computeCandidates :
    (computeCandidates responses).head? = (topRanked responses).map (candidate responses) := by
  unfold computeCandidates
  rw [head?_insertionSort, argmax_map]
  rfl

theorem topContent :
    ((computeCandidates responses).head?.map AggregationCandidate.content).getD "" =
      ((topRanked responses).map NormalizedResponse.content).getD "" := by
  rw [head?_computeCandidates, Option.map_map]
  rfl

end

section

variable {responses : List NormalizedResponse} {content : String}

section

variable (responses : List NormalizedResponse)

theorem values_castVotes :
    (castVotes responses).map WeightedVote.value = responses.map NormalizedResponse.content := by
  unfold castVotes
  rw [map_map]
  rfl

theorem total_castVotes :
    total WeightedVote.value (fun _ => 1) (castVotes responses) = supporters responses := by
  funext content
  rw [total_one]
  unfold castVotes supporters
  rw [countP_map]
  rfl

theorem frontRunner_counter :
    frontRunner (counter (castVotes responses)) = mostFrequent responses := by
  unfold counter mostFrequent
  rw [frontRunner_eq_argmax, values_castVotes, total_castVotes]

end

theorem length_pos_of_mostFrequent (isFirst : mostFrequent responses = some content) :
    0 < responses.length := by
  have listed := argmax_mem isFirst
  obtain ⟨response, member, -⟩ := mem_map.mp listed
  exact length_pos_of_mem member

theorem length_castVotes (responses : List NormalizedResponse) :
    (castVotes responses).length = responses.length := by
  simp [castVotes]

structure Elects (strategy : AggregationStrategy) (responses : List NormalizedResponse)
    (result : ConsensusResult) : Prop where
  reached : result.reached = true ↔ ∃ content, Elected strategy responses content
  value : ∀ content, Elected strategy responses content → result.value = content

variable {strategy : AggregationStrategy}

theorem counting_elects {rule : CountingRule} (exact : ∀ support, 0 < responses.length →
      (rule.met support responses.length = true ↔ Enough strategy support responses.length)) :
    Elects strategy responses (counting rule (castVotes responses)) := by
  constructor
  · rw [counting_reached_iff, total_castVotes, frontRunner_counter, length_castVotes]
    apply exists_congr
    intro content
    apply and_congr_right
    intro isFirst
    exact exact _ (length_pos_of_mostFrequent isFirst)
  · rintro content ⟨isFirst, -⟩
    rw [← frontRunner_counter] at isFirst
    exact counting_value rule isFirst

theorem simpleMajority_elects
    (exact : ∀ support size, Enough strategy support size ↔ size < 2 * support) :
    Elects strategy responses (simpleMajority (castVotes responses)) := by
  apply counting_elects
  intro support positive
  rw [exact, decide_eq_true_iff]
  exact half_lt_share_iff positive

theorem superMajority_elects :
    Elects .superMajority responses (superMajority (66 / 100) (castVotes responses)) := by
  apply counting_elects
  intro support positive
  have ratio : ((66 : Nat) : ℚ) / (100 : Nat) ≤ share support responses.length ↔
      66 * responses.length ≤ 100 * support := ratio_le_share_iff (by decide) positive
  rw [decide_eq_true_iff]
  exact_mod_cast ratio

theorem quorum_elects : Elects .quorum responses (quorum 3 (1 / 2) (castVotes responses)) := by
  unfold quorum
  rw [length_castVotes]
  split
  case isTrue few =>
    have none : ∀ content, ¬ Elected .quorum responses content := by
      rintro content ⟨-, enough, -⟩
      omega
    constructor
    · simp [none]
    · intro content elected
      exact absurd elected (none content)
  case isFalse enough =>
    apply counting_elects
    intro support positive
    have size : 3 ≤ responses.length := by omega
    rw [decide_eq_true_iff, half_le_share_iff positive]
    exact (and_iff_right size).symm

section

variable (responses : List NormalizedResponse)

theorem total_weight (content : String) :
    total WeightedVote.value WeightedVote.weight (castVotes responses) content =
      supporters responses content := by
  induction responses with
  | nil => rfl
  | cons response responses ih =>
    unfold total castVotes supporters at ih ⊢
    by_cases here : response.content = content
    · simp [here] at ih ⊢
      rw [ih, add_comm]
    · simp [here] at ih ⊢
      exact ih

theorem frontRunner_weight :
    frontRunner (tally WeightedVote.value WeightedVote.weight (castVotes responses)) =
      mostFrequent responses := by
  unfold mostFrequent
  rw [frontRunner_eq_argmax, values_castVotes, ← argmax_natCast]
  congr 1
  funext content
  exact total_weight responses content

theorem sum_weight : ((castVotes responses).map WeightedVote.weight).sum = responses.length := by
  unfold castVotes
  rw [map_map]
  change (responses.map fun _ => (1 : ℚ)).sum = _
  simp

end

theorem weightedVoting_elects :
    Elects .weightedVote responses (weightedVoting (castVotes responses)) := by
  unfold weightedVoting
  constructor
  · rw [weighing_reached_iff, frontRunner_weight, sum_weight]
    apply exists_congr
    intro content
    apply and_congr_right
    intro isFirst
    rw [total_weight]
    exact half_lt_share_iff (length_pos_of_mostFrequent isFirst)
  · rintro content ⟨isFirst, -⟩
    rw [← frontRunner_weight] at isFirst
    exact weighing_value _ _ isFirst

theorem consensus_elects (seeks : strategy ∈ consensusStrategies)
    (chooses : strategy ≠ .unanimous) (responses : List NormalizedResponse)
    (default : ConsensusMode) :
    ∃ result, runConsensus (castVotes responses) (resolveConsensusMode strategy default) =
      .ok result ∧ Elects strategy responses result := by
  unfold consensusStrategies at seeks
  simp only [mem_cons, not_mem_nil, or_false] at seeks
  rcases seeks with rfl | rfl | rfl | rfl | rfl | rfl
  · exact ⟨_, rfl, simpleMajority_elects fun _ _ => Iff.rfl⟩
  · exact ⟨_, rfl, simpleMajority_elects fun _ _ => Iff.rfl⟩
  · exact ⟨_, rfl, superMajority_elects⟩
  · exact ⟨_, rfl, quorum_elects⟩
  · exact ⟨_, rfl, weightedVoting_elects⟩
  · exact absurd rfl chooses

end

/-! ## The answer -/

section

variable {tools : TextTools} {policy : AggregationPolicy} {request : AggregationRequest}

theorem scoredResponses_ne_nil (some : request.results ≠ []) : scoredResponses request ≠ [] := by
  unfold scoredResponses validResults
  rw [Ne, map_eq_nil_iff]
  dsimp only
  split
  case isTrue =>
    rw [take_eq_nil_iff]
    rintro (zero | empty)
    · cases zero
    · exact some empty
  case isFalse isSome => exact isSome

theorem length_computeCandidates (responses : List NormalizedResponse) :
    (computeCandidates responses).length = responses.length := by
  unfold computeCandidates
  rw [length_insertionSort, length_map]

section

variable {strategy : AggregationStrategy} (seeks : strategy ∈ consensusStrategies)
include seeks

theorem selectContent_of_chooses (chooses : strategy ≠ .unanimous)
    (responses : List NormalizedResponse) :
    selectContent tools strategy (computeCandidates responses) responses request =
      ((topRanked responses).map NormalizedResponse.content).getD "" := by
  rw [← topContent]
  unfold consensusStrategies at seeks
  simp only [mem_cons, not_mem_nil, or_false] at seeks
  unfold selectContent
  by_cases empty : computeCandidates responses = []
  · simp [empty]
  · rw [if_neg empty]
    rcases seeks with rfl | rfl | rfl | rfl | rfl | rfl
    case inr.inr.inr.inr.inr => exact absurd rfl chooses
    all_goals rfl

theorem seeksConsensus_of_mem : seeksConsensus strategy = true := by
  unfold consensusStrategies at seeks
  simp only [mem_cons, not_mem_nil, or_false] at seeks
  rcases seeks with rfl | rfl | rfl | rfl | rfl | rfl
  all_goals rfl

end

abbrev followed (request : AggregationRequest) : AggregationStrategy :=
  resolveStrategy request.strategy (computeCandidates (scoredResponses request))

structure Answers (tools : TextTools) (policy : AggregationPolicy) (request : AggregationRequest)
    (answer : AggregationResult) : Prop where
  strategy : answer.strategy = followed request
  content : answer.content = selectContent tools (followed request)
    (computeCandidates (scoredResponses request)) (scoredResponses request) request
  consensus : seeksConsensus (followed request) = true → ∃ result,
    runConsensus (castVotes (scoredResponses request))
      (resolveConsensusMode (followed request) policy.consensusMode) = .ok result ∧
    answer.consensus = some result

variable {answer : AggregationResult}

theorem answers_of_aggregateImpl (nonempty : request.results ≠ [])
    (ran : aggregateImpl tools policy request = .ok answer) :
    Answers tools policy request answer := by
  unfold aggregateImpl at ran
  rw [if_neg nonempty] at ran
  by_cases seeks : seeksConsensus (followed request) = true
  · rw [if_pos seeks] at ran
    cases voted : runConsensus (castVotes (scoredResponses request))
        (resolveConsensusMode (followed request) policy.consensusMode) with
    | error raised =>
      rw [voted] at ran
      cases ran
    | ok result =>
      rw [voted] at ran
      obtain rfl := Except.ok.inj ran
      exact ⟨rfl, rfl, fun _ => ⟨result, voted, rfl⟩⟩
  · rw [if_neg seeks] at ran
    obtain rfl := Except.ok.inj ran
    exact ⟨rfl, rfl, fun isSought => absurd isSought seeks⟩

theorem exists_answer (nonempty : request.results ≠ []) {result : ConsensusResult}
    (voted : runConsensus (castVotes (scoredResponses request))
      (resolveConsensusMode (followed request) policy.consensusMode) = .ok result) :
    ∃ answer, aggregateImpl tools policy request = .ok answer := by
  unfold aggregateImpl
  rw [if_neg nonempty]
  dsimp only
  rw [voted]
  split
  · exact ⟨_, rfl⟩
  · exact ⟨_, rfl⟩

theorem agrees_of_no_results (empty : request.results = [])
    (ran : aggregateImpl tools policy request = .ok answer) : Agrees answer := by
  unfold aggregateImpl at ran
  rw [if_pos empty] at ran
  obtain rfl := Except.ok.inj ran
  intro _ consensus isSome
  cases isSome

section

variable (nonempty : request.results ≠ []) (ran : aggregateImpl tools policy request = .ok answer)
include nonempty ran

theorem agrees_of_unanimous (isUnanimous : followed request = .unanimous) : Agrees answer := by
  intro _ consensus isSome reached
  have answers := answers_of_aggregateImpl nonempty ran
  obtain ⟨result, voted, isResult⟩ := answers.consensus (by rw [isUnanimous]; rfl)
  rw [isUnanimous] at voted
  obtain rfl := Except.ok.inj voted
  rw [isResult] at isSome
  obtain rfl := Option.some.inj isSome
  rw [unanimous_reached_iff] at reached
  have same := (keys_tally_eq_singleton_iff.mp reached).2
  rw [answers.content, isUnanimous]
  obtain ⟨response, responses, split⟩ :=
    exists_cons_of_ne_nil (scoredResponses_ne_nil nonempty)
  have ranked : computeCandidates (scoredResponses request) ≠ [] := by
    rw [Ne, ← length_eq_zero_iff, length_computeCandidates, split]
    exact Nat.succ_ne_zero _
  unfold selectContent
  rw [if_neg ranked]
  rw [split] at same ⊢
  exact same _ mem_cons_self

theorem agrees_iff_of_chooses (seeks : followed request ∈ consensusStrategies)
    (chooses : followed request ≠ .unanimous) :
    Agrees answer ↔ ∀ content, Elected (followed request) (scoredResponses request) content →
      (topRanked (scoredResponses request)).map NormalizedResponse.content = some content := by
  have answers := answers_of_aggregateImpl nonempty ran
  obtain ⟨result, voted, elects⟩ :=
    consensus_elects seeks chooses (scoredResponses request) policy.consensusMode
  obtain ⟨found, foundVoted, isResult⟩ := answers.consensus (seeksConsensus_of_mem seeks)
  obtain rfl := Except.ok.inj (voted.symm.trans foundVoted)
  have first : ∃ response, topRanked (scoredResponses request) = some response := by
    apply Option.ne_none_iff_exists'.mp
    rw [topRanked, Ne, argmax_eq_none]
    exact scoredResponses_ne_nil nonempty
  obtain ⟨response, isTop⟩ := first
  have content := answers.content
  rw [selectContent_of_chooses seeks chooses, isTop] at content
  rw [isTop]
  constructor
  · intro agrees content' elected
    have same := agrees (answers.strategy ▸ seeks) result isResult
      (elects.reached.mpr ⟨content', elected⟩)
    rw [elects.value content' elected, content] at same
    exact congrArg some same
  · intro all _ consensus isSome reached
    rw [isResult] at isSome
    obtain rfl := Option.some.inj isSome
    obtain ⟨content', elected⟩ := elects.reached.mp reached
    rw [content, elects.value content' elected]
    exact Option.some.inj (all content' elected)

end

end

/-- The content of the answer is what the providers agree on if and only if the top-ranked
response has the elected content. -/
theorem content_agrees_iff (tools : TextTools) (policy : AggregationPolicy)
    (request : AggregationRequest) :
    (∀ answer, aggregateImpl tools policy request = .ok answer → Agrees answer) ↔
      TopRankedElected request := by
  by_cases empty : request.results = []
  · apply iff_of_true
    · intro answer ran
      exact agrees_of_no_results empty ran
    · intro _ _ content elected
      have none : scoredResponses request = [] := by simp [scoredResponses, validResults, empty]
      have positive := length_pos_of_mostFrequent elected.1
      rw [none] at positive
      cases positive
  · by_cases seeks : followed request ∈ consensusStrategies
    · by_cases isUnanimous : followed request = .unanimous
      · apply iff_of_true
        · intro answer ran
          exact agrees_of_unanimous empty ran isUnanimous
        · intro _ chooses
          exact absurd isUnanimous chooses
      · obtain ⟨result, voted, -⟩ :=
          consensus_elects seeks isUnanimous (scoredResponses request) policy.consensusMode
        constructor
        · intro agree _ _
          obtain ⟨answer, ran⟩ : ∃ answer, aggregateImpl tools policy request = .ok answer :=
            exists_answer empty voted
          exact (agrees_iff_of_chooses empty ran seeks isUnanimous).mp (agree answer ran)
        · intro all answer ran
          exact (agrees_iff_of_chooses empty ran seeks isUnanimous).mpr (all seeks isUnanimous)
    · apply iff_of_true
      · intro answer ran sought
        rw [(answers_of_aggregateImpl empty ran).strategy] at sought
        exact absurd sought seeks
      · intro sought
        exact absurd sought seeks

def confidentMinority : AggregationRequest where
  strategy := .consensus
  results := [
    { provider := "one", state := .completed, content := "4" },
    { provider := "two", state := .completed, content := "4" },
    { provider := "three", state := .completed, content := "5",
      metadata := { confidence := some 1 } }]

/-- The consensus is "4", and the answer is "5". -/
theorem confidentMinority_disagrees :
    ¬ ∀ answer, aggregateImpl ⟨id, id⟩ {} confidentMinority = .ok answer → Agrees answer := by
  intro agree
  have outcome : (aggregateImpl ⟨id, id⟩ {} confidentMinority).toOption.map (fun answer =>
      (answer.content, answer.strategy,
        answer.consensus.map fun consensus => (consensus.reached, consensus.value))) =
      some ("5", .consensus, some (true, "4")) := by decide +kernel
  cases ran : aggregateImpl ⟨id, id⟩ {} confidentMinority with
  | error raised =>
    rw [ran] at outcome
    cases outcome
  | ok answer =>
    rw [ran] at outcome
    simp only [Except.toOption, Option.map_some, Option.some.injEq, Prod.mk.injEq,
      Option.map_eq_some_iff] at outcome
    obtain ⟨content, strategy, consensus, isSome, reached, value⟩ := outcome
    have same := agree answer ran (by rw [strategy]; decide) consensus isSome reached
    rw [content, value] at same
    exact absurd same (by decide)

end AgenticOS.OmniRoute.Aggregation
