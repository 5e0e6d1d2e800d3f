import AgenticOS.Data.Decimal
import AgenticOS.OmniRoute.Aggregation.Consensus
import AgenticOS.OmniRoute.Executor
import Mathlib.Data.List.Sort

/-!
# The aggregation of responses

The engine brings the results of several providers into one form, scores and ranks them, lets
them vote if the strategy asks for it, and selects the content of the answer. Voting, ranking
and selection are separate stages.

Left out are the similarities, the conflicts, the confidence, the events and the statistics:
neither the content nor the consensus depends on them.
-/

namespace AgenticOS.OmniRoute.Aggregation

/-- The strategies. `QUALITY_WEIGHTED` is an older name that only the executor uses. -/
inductive AggregationStrategy where
  | firstSuccess | firstCompleted | fastest | lowestCost | bestQuality | bestConfidence
  | weightedScore | weightedVote | majorityVote | superMajority | unanimous | consensus
  | quorum | average | median | merge | ensemble | stacking | pipeline | custom | auto
  | qualityWeighted
deriving DecidableEq

/-- The entries of the metadata of a response that the engine reads, or that it adds. -/
structure Metadata where
  confidence : Option ℚ := none
  quality : Option ℚ := none
  reliability : Option ℚ := none
  learningScore : Option ℚ := none
  latencyMs : Option ℚ := none
  cost : Option ℚ := none
  qualityScore : Option ℚ := none

/-- A result of the executor with what else the engine reads of it. -/
structure ProviderResult extends ExecutionResult where
  metadata : Metadata := {}
  cost : ℚ := 0

structure AggregationRequest where
  requestId : String := ""
  strategy : AggregationStrategy := .auto
  results : List ProviderResult := []

structure AggregationPolicy where
  consensusMode : ConsensusMode := .simpleMajority

structure NormalizedResponse where
  provider : String
  model : String
  content : String
  finishReason : String
  latencyMs : ℚ
  cost : ℚ
  confidence : ℚ
  quality : ℚ
  metadata : Metadata

structure AggregationCandidate where
  provider : String
  content : String
  normalizedContent : String
  qualityScore : ℚ
  confidenceScore : ℚ
  latencyScore : ℚ
  costScore : ℚ
  reliabilityScore : ℚ
  learningScore : ℚ
  finalScore : ℚ
  metadata : Metadata

structure AggregationResult where
  requestId : String
  content : String
  strategy : AggregationStrategy
  consensus : Option ConsensusResult := none
  selectedProvider : String := ""
  candidates : List AggregationCandidate := []

/-- What the standard library computes for the merging of texts. -/
structure TextTools where
  strip : String → String
  md5 : String → String

/-- The first of two texts that is not empty. -/
def orElse (first second : String) : String :=
  if first = "" then second else first

def normalize (result : ProviderResult) : NormalizedResponse where
  provider := result.provider
  model := result.model
  content := orElse result.content result.output
  finishReason := result.finishReason
  latencyMs := result.latencyMs
  cost := result.cost
  confidence := result.metadata.confidence.getD (1 / 2)
  quality := result.metadata.quality.getD (1 / 2)
  metadata := result.metadata

/-- `_QualityScorer.score`, for one response. -/
def scoreQuality (response : NormalizedResponse) : NormalizedResponse :=
  let lengthScore := min 1 ((response.content.length : ℚ) / 2000)
  let hasFinish : ℚ :=
    if response.finishReason ∈ ["stop", "end_turn", "complete"] then 1 else 8 / 10
  let freshness := min 1 (response.latencyMs / 10000)
  let overall := 35 / 100 * response.quality + 25 / 100 * lengthScore + 20 / 100 * hasFinish +
    20 / 100 * (1 - freshness)
  { response with
    quality := overall
    metadata := { response.metadata with qualityScore := some (Decimal.roundTo 4 overall) } }

/-- How far a quantity stays below the highest one. -/
def relativeScore (quantity highest : ℚ) : ℚ :=
  if 0 < highest then 1 - quantity / highest else 1

def highest (quantity : NormalizedResponse → ℚ) (responses : List NormalizedResponse) : ℚ :=
  ((responses.map quantity).max?).getD 1

variable (responses : List NormalizedResponse)

/-- The score by which a response is ranked among all of them. -/
def finalScore (response : NormalizedResponse) : ℚ :=
  25 / 100 * response.quality + 20 / 100 * response.confidence +
    20 / 100 * relativeScore response.latencyMs (highest NormalizedResponse.latencyMs responses) +
    15 / 100 * relativeScore response.cost (highest NormalizedResponse.cost responses) +
    10 / 100 * response.metadata.reliability.getD (1 / 2) +
    10 / 100 * response.metadata.learningScore.getD (1 / 2)

def candidate (response : NormalizedResponse) : AggregationCandidate where
  provider := response.provider
  content := response.content
  normalizedContent := response.content
  qualityScore := response.quality
  confidenceScore := response.confidence
  latencyScore :=
    relativeScore response.latencyMs (highest NormalizedResponse.latencyMs responses)
  costScore := relativeScore response.cost (highest NormalizedResponse.cost responses)
  reliabilityScore := response.metadata.reliability.getD (1 / 2)
  learningScore := response.metadata.learningScore.getD (1 / 2)
  finalScore := finalScore responses response
  metadata := response.metadata

/-- `compute_candidates`: the highest score first, equal ones as they come. -/
def computeCandidates : List AggregationCandidate :=
  (responses.map (candidate responses)).insertionSort fun first second =>
    second.finalScore ≤ first.finalScore

def castVotes : List WeightedVote :=
  responses.map fun response => {
    provider := response.provider
    value := response.content
    weight := 1
    confidence := response.confidence
    quality := response.quality
    latencyMs := response.latencyMs
    cost := response.cost }

def pickAutoStrategy : List AggregationCandidate → AggregationStrategy
  | [] => .firstSuccess
  | top :: _ =>
    if 8 / 10 < top.confidenceScore then .bestConfidence
    else if 8 / 10 < top.qualityScore then .bestQuality
    else if 8 / 10 < top.latencyScore then .fastest
    else .weightedScore

def resolveStrategy (strategy : AggregationStrategy) (candidates : List AggregationCandidate) :
    AggregationStrategy :=
  if strategy = .auto then
    if 3 ≤ candidates.length then .consensus
    else if 2 ≤ candidates.length then pickAutoStrategy candidates
    else .firstSuccess
  else strategy

def resolveConsensusMode (strategy : AggregationStrategy) (default : ConsensusMode) :
    ConsensusMode :=
  match strategy with
  | .consensus => .simpleMajority
  | .majorityVote => .simpleMajority
  | .weightedVote => .weightedVoting
  | .weightedScore => .confidenceWeighted
  | .superMajority => .superMajority
  | .unanimous => .unanimous
  | .quorum => .quorum
  | _ => default

/-- The strategies under which a consensus is sought. -/
def seeksConsensus (strategy : AggregationStrategy) : Bool :=
  strategy ∈ [.consensus, .majorityVote, .weightedVote, .weightedScore, .superMajority,
    .unanimous, .quorum]

/-- Keep the first text of each digest. -/
def distinctTexts (tools : TextTools) (seen : List String) : List String → List String
  | [] => []
  | text :: texts =>
    let text := tools.strip text
    let key := tools.md5 text
    if key ∈ seen then distinctTexts tools seen texts
    else text :: distinctTexts tools (key :: seen) texts

def mergeText (tools : TextTools) : List NormalizedResponse → String
  | [] => ""
  | [response] => response.content
  | responses =>
    "\n\n".intercalate (distinctTexts tools [] (responses.map NormalizedResponse.content))

def selectContent (tools : TextTools) (strategy : AggregationStrategy)
    (candidates : List AggregationCandidate) (scored : List NormalizedResponse)
    (request : AggregationRequest) : String :=
  let first (chosen : Option AggregationCandidate) : String :=
    (chosen.map AggregationCandidate.content).getD ""
  if candidates = [] then ""
  else
    match strategy with
    | .firstCompleted =>
      ((request.results.find? fun result =>
        result.state = .completed ∧ orElse result.content result.output ≠ "").map fun result =>
          orElse result.content result.output).getD ""
    | .fastest => first (candidates.argmin fun candidate => candidate.metadata.latencyMs.getD 0)
    | .lowestCost => first (candidates.argmin fun candidate => candidate.metadata.cost.getD 0)
    | .bestQuality => first (candidates.argmax AggregationCandidate.qualityScore)
    | .bestConfidence => first (candidates.argmax AggregationCandidate.confidenceScore)
    | .merge => mergeText tools scored
    | .ensemble => mergeText tools scored
    | .stacking => mergeText tools scored
    | .unanimous => (scored.head?.map NormalizedResponse.content).getD ""
    | .pipeline => "\n\n".intercalate (candidates.map AggregationCandidate.content)
    | _ => first candidates.head?

/-- The results that are aggregated: those that succeeded, or else the first one. -/
def validResults (request : AggregationRequest) : List ProviderResult :=
  let valid := request.results.filter fun result =>
    result.state ∈ [ExecutionState.completed, .partialSuccess]
  if valid = [] then request.results.take 1 else valid

/-- The responses in normal form, with their qualities. -/
def scoredResponses (request : AggregationRequest) : List NormalizedResponse :=
  (validResults request).map fun result => scoreQuality (normalize result)

def aggregateImpl (tools : TextTools) (policy : AggregationPolicy)
    (request : AggregationRequest) : Except Raised AggregationResult :=
  if request.results = [] then
    .ok {
      requestId := request.requestId
      content := ""
      strategy := request.strategy }
  else do
    let scored := scoredResponses request
    let candidates := computeCandidates scored
    let votes := castVotes scored
    let strategy := resolveStrategy request.strategy candidates
    let consensus ←
      if seeksConsensus strategy then
        some <$> runConsensus votes (resolveConsensusMode strategy policy.consensusMode)
      else pure none
    pure {
      requestId := request.requestId
      content := selectContent tools strategy candidates scored request
      strategy := strategy
      consensus := consensus
      selectedProvider := (candidates.head?.map AggregationCandidate.provider).getD ""
      candidates := candidates }

end AgenticOS.OmniRoute.Aggregation
