import AgenticOS.Data.Tally
import Mathlib.Tactic.Linarith

/-!
# The consensus engine of the aggregation

Ten rules decide whether the votes of the providers agree. Six of them count the votes for
each value; four add up a score of each vote, which is its weight, scaled or not. All but one
elect the first value with the highest count or score, and differ in the share it needs.

Scores and shares are exact.
-/

namespace AgenticOS.OmniRoute.Aggregation

open Tally

inductive ConsensusMode where
  | simpleMajority
  | absoluteMajority
  | superMajority
  | unanimous
  | weightedVoting
  | confidenceWeighted
  | qualityWeighted
  | bayesian
  | quorum
  | consensusThreshold
deriving DecidableEq

structure WeightedVote where
  provider : String := ""
  value : String := ""
  weight : ℚ := 1
  confidence : ℚ := 1 / 2
  quality : ℚ := 1 / 2
  latencyMs : ℚ := 0
  cost : ℚ := 0

structure MajorityResult where
  winner : String
  votesFor : Nat
  votesAgainst : Nat
  totalVotes : Nat
  majorityPct : ℚ
  thresholdMet : Bool

structure ConsensusResult where
  reached : Bool := false
  value : String := ""
  confidence : ℚ := 0
  mode : ConsensusMode := .simpleMajority
  votes : List WeightedVote := []
  tie : Bool := false
  majority : Option MajorityResult := none

inductive Raised where
  | zeroDivision
deriving DecidableEq

def share (part whole : ℚ) : ℚ :=
  if 0 < whole then part / whole else 0

namespace ConsensusEngine

/-- When a count is enough, and what is told of it. -/
structure CountingRule where
  mode : ConsensusMode
  met : (votesFor total : Nat) → Bool
  tellsTie : Bool := false
  tellsMajority : Bool := false

def counter (votes : List WeightedVote) : Dict String Nat :=
  tally WeightedVote.value (fun _ => 1) votes

/-- The rules that count elect the first of the most frequent values. -/
def counting (rule : CountingRule) (votes : List WeightedVote) : ConsensusResult :=
  match frontRunner (counter votes) with
  | none => { mode := rule.mode }
  | some winner =>
    let total := (counter votes).values.sum
    let votesFor := ((counter votes).get? winner).getD 0
    let pct := share votesFor total
    let thresholdMet := rule.met votesFor total
    { reached := thresholdMet
      value := winner
      confidence := pct
      mode := rule.mode
      votes := votes
      tie := rule.tellsTie && votesFor == total - votesFor
      majority :=
        if rule.tellsMajority then
          some {
            winner := winner
            votesFor := votesFor
            votesAgainst := total - votesFor
            totalVotes := total
            majorityPct := pct
            thresholdMet := thresholdMet }
        else none }

def simpleMajority : List WeightedVote → ConsensusResult :=
  counting {
    mode := .simpleMajority
    met := fun votesFor total => 1 / 2 < share votesFor total
    tellsTie := true
    tellsMajority := true }

def absoluteMajority : List WeightedVote → ConsensusResult :=
  counting {
    mode := .absoluteMajority
    met := fun votesFor total => (if 1 < total then (total : ℚ) / 2 + 1 else 1) ≤ votesFor
    tellsMajority := true }

def superMajority (threshold : ℚ) : List WeightedVote → ConsensusResult :=
  counting {
    mode := .superMajority
    met := fun votesFor total => threshold ≤ share votesFor total
    tellsMajority := true }

def unanimous (votes : List WeightedVote) : ConsensusResult :=
  match (counter votes).keys with
  | [] => { mode := .unanimous }
  | [winner] =>
    { reached := true
      value := winner
      confidence := 1
      mode := .unanimous
      votes := votes }
  | _ =>
    { mode := .unanimous
      votes := votes }

/-- `quorum`: enough votes, and a share of them that reaches the threshold. -/
def quorum (quorumSize : Int) (threshold : ℚ) (votes : List WeightedVote) : ConsensusResult :=
  if (votes.length : Int) < quorumSize then { mode := .quorum }
  else
    counting {
      mode := .quorum
      met := fun votesFor total => threshold ≤ share votesFor total } votes

def consensusThreshold (threshold : ℚ) : List WeightedVote → ConsensusResult :=
  counting {
    mode := .consensusThreshold
    met := fun votesFor total => threshold ≤ share votesFor total }

/-- The rules that weigh elect the first value with the highest score, by its share. -/
def weighing (mode : ConsensusMode) (score : WeightedVote → ℚ) (pct : (score total : ℚ) → ℚ)
    (votes : List WeightedVote) : ConsensusResult :=
  let scores := tally WeightedVote.value score votes
  match frontRunner scores with
  | none => { mode := mode }
  | some winner =>
    let pct := pct ((scores.get? winner).getD 0) scores.values.sum
    { reached := 1 / 2 < pct
      value := winner
      confidence := pct
      mode := mode
      votes := votes }

def weightedVoting : List WeightedVote → ConsensusResult :=
  weighing .weightedVoting WeightedVote.weight share

/-- A rule that adds the scaled weights up beside the scores, and gives up where their sum is
zero. -/
def scaled (mode : ConsensusMode) (score : WeightedVote → ℚ) (votes : List WeightedVote) :
    ConsensusResult :=
  let totalWeight := (votes.map score).sum
  if totalWeight = 0 then { mode := mode }
  else weighing mode score (fun score _ => score / totalWeight) votes

def confidenceWeighted : List WeightedVote → ConsensusResult :=
  scaled .confidenceWeighted fun vote => vote.weight * vote.confidence

def qualityWeighted : List WeightedVote → ConsensusResult :=
  scaled .qualityWeighted fun vote => vote.weight * vote.quality

/-- The denominator of the posterior. -/
def evidence (prior : ℚ) (vote : WeightedVote) : ℚ :=
  1 + (1 - prior) * (1 - vote.confidence)

def posterior (prior : ℚ) (vote : WeightedVote) : ℚ :=
  (prior * vote.confidence + (1 - prior)) / evidence prior vote

def bayesian (prior : ℚ) (votes : List WeightedVote) : Except Raised ConsensusResult :=
  if ∃ vote ∈ votes, evidence prior vote = 0 then .error .zeroDivision
  else .ok (weighing .bayesian (fun vote => vote.weight * posterior prior vote) share votes)

end ConsensusEngine

open ConsensusEngine

def runConsensus (votes : List WeightedVote) : ConsensusMode → Except Raised ConsensusResult
  | .simpleMajority => .ok (simpleMajority votes)
  | .absoluteMajority => .ok (absoluteMajority votes)
  | .superMajority => .ok (superMajority (66 / 100) votes)
  | .unanimous => .ok (unanimous votes)
  | .weightedVoting => .ok (weightedVoting votes)
  | .confidenceWeighted => .ok (confidenceWeighted votes)
  | .qualityWeighted => .ok (qualityWeighted votes)
  | .bayesian => bayesian (1 / 2) votes
  | .quorum => .ok (quorum 3 (1 / 2) votes)
  | .consensusThreshold => .ok (consensusThreshold (8 / 10) votes)

/-! ## Shares of numbers of votes -/

section

variable {part whole : Nat}

theorem share_natCast (part whole : Nat) : share part whole = (part : ℚ) / whole := by
  unfold share
  split
  · rfl
  · rename_i notPositive
    have isZero : whole = 0 := by simpa using notPositive
    simp [isZero]

theorem half_lt_share_iff (positive : 0 < whole) : 1 / 2 < share part whole ↔ whole < 2 * part := by
  have wholePositive : (0 : ℚ) < whole := by exact_mod_cast positive
  rw [share_natCast, lt_div_iff₀ wholePositive, ← @Nat.cast_lt ℚ, Nat.cast_mul]
  constructor
  · intro half
    push_cast
    linarith
  · intro more
    push_cast at more
    linarith

theorem ratio_le_share_iff {needed outOf : Nat} (outOfPositive : 0 < outOf) (positive : 0 < whole) :
    (needed : ℚ) / outOf ≤ share part whole ↔ needed * whole ≤ outOf * part := by
  have wholePositive : (0 : ℚ) < whole := by exact_mod_cast positive
  have castPositive : (0 : ℚ) < outOf := by exact_mod_cast outOfPositive
  rw [share_natCast, div_le_div_iff₀ castPositive wholePositive, mul_comm (part : ℚ)]
  exact_mod_cast Iff.rfl

theorem half_le_share_iff (positive : 0 < whole) : 1 / 2 ≤ share part whole ↔ whole ≤ 2 * part := by
  have ratio : ((1 : Nat) : ℚ) / (2 : Nat) ≤ share part whole ↔ 1 * whole ≤ 2 * part :=
    ratio_le_share_iff Nat.two_pos positive
  simpa using ratio

end

section

variable {votes : List WeightedVote} {winner : String}

theorem counting_reached_iff (rule : CountingRule) (votes : List WeightedVote) :
    (counting rule votes).reached = true ↔
      ∃ winner, frontRunner (counter votes) = some winner ∧
        rule.met (total WeightedVote.value (fun _ => 1) votes winner) votes.length := by
  unfold counting counter
  cases frontRunner (tally WeightedVote.value (fun _ => 1) votes) with
  | none => simp
  | some winner => simp [sum_values_tally, getD_tally]

theorem counting_value (rule : CountingRule) (isFirst : frontRunner (counter votes) = some winner) :
    (counting rule votes).value = winner := by
  unfold counting
  rw [isFirst]

theorem weighing_reached_iff (mode : ConsensusMode) (score : WeightedVote → ℚ)
    (pct : ℚ → ℚ → ℚ) (votes : List WeightedVote) : (weighing mode score pct votes).reached = true ↔
      ∃ winner, frontRunner (tally WeightedVote.value score votes) = some winner ∧
        1 / 2 < pct (total WeightedVote.value score votes winner) (votes.map score).sum := by
  unfold weighing
  dsimp only
  cases frontRunner (tally WeightedVote.value score votes) with
  | none => simp
  | some winner => simp [sum_values_tally, getD_tally]

theorem weighing_value (mode : ConsensusMode) {score : WeightedVote → ℚ} (pct : ℚ → ℚ → ℚ)
    (isFirst : frontRunner (tally WeightedVote.value score votes) = some winner) :
    (weighing mode score pct votes).value = winner := by
  unfold weighing
  dsimp only
  rw [isFirst]

theorem unanimous_reached_iff (votes : List WeightedVote) :
    (unanimous votes).reached = true ↔ (counter votes).keys = [(unanimous votes).value] := by
  unfold unanimous
  cases (counter votes).keys with
  | nil => simp
  | cons first rest => cases rest <;> simp

theorem unanimous_of_keys {winner : String} (single : (counter votes).keys = [winner]) :
    (unanimous votes).reached = true ∧ (unanimous votes).value = winner := by
  unfold unanimous
  rw [single]
  exact ⟨rfl, rfl⟩

end

end AgenticOS.OmniRoute.Aggregation
