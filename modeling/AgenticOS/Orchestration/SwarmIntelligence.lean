import Mathlib.Data.List.Infix
import Mathlib.Tactic.Linarith
import AgenticOS.Data.Dict
import AgenticOS.Orchestration.Plan

/-!
# Consensus rounds of a swarm

A round counts the ballots that are cast in it, whoever casts them. It is frozen by the first
ballot that makes it reach its threshold. Numbers are rational, and the identifiers of rounds,
which are drawn at random, are taken as given.
-/

namespace AgenticOS.Orchestration

open List

inductive VoteValue
  | yes | no | abstain
  deriving DecidableEq

inductive ConsensusStatus
  | pending | inProgress | reached | failed | tie
  deriving DecidableEq

structure Vote where
  voterId : AgentId
  value : VoteValue
  rationale : String := ""
  weight : ℚ := 1

structure ConsensusResult where
  swarmId : SwarmId
  topic : String
  status : ConsensusStatus := .pending
  votes : List Vote := []
  yeaCount : Nat := 0
  nayCount : Nat := 0
  abstainCount : Nat := 0
  totalWeight : ℚ := 0
  yeaWeight : ℚ := 0
  threshold : ℚ := 51 / 100
  outcome : Bool := false

namespace Vote

def totalWeight (votes : List Vote) : ℚ :=
  (votes.map weight).sum

def yeaWeight (votes : List Vote) : ℚ :=
  totalWeight (votes.filter fun vote => vote.value = .yes)

def Carry (threshold : ℚ) (votes : List Vote) : Prop :=
  if 0 < totalWeight votes then threshold ≤ yeaWeight votes / totalWeight votes else False
deriving Decidable

end Vote

open Vote

/-- The round with these votes. -/
def ConsensusResult.withVotes (result : ConsensusResult) (votes : List Vote) : ConsensusResult :=
  { result with
    status := if Carry result.threshold votes then .reached else .inProgress
    votes
    yeaCount := votes.countP fun vote => vote.value = .yes
    nayCount := votes.countP fun vote => vote.value = .no
    abstainCount := votes.countP fun vote => vote.value = .abstain
    totalWeight := Vote.totalWeight votes
    yeaWeight := Vote.yeaWeight votes
    outcome := Carry result.threshold votes }

def ConsensusResult.withVote (result : ConsensusResult) (vote : Vote) : ConsensusResult :=
  result.withVotes (result.votes ++ [vote])

structure SwarmIntelligenceEngine where
  defaultQuorum : ℚ := 51 / 100
  consensusRounds : Dict String ConsensusResult := .empty

namespace SwarmIntelligenceEngine

/-- No vote is made up for an agent that has not cast one. -/
def collectVote (_ : AgentId) : Option Vote :=
  none

/-- Start a round. A quorum of zero counts as none. -/
def startConsensus (engine : SwarmIntelligenceEngine) (id : String) (swarmId : SwarmId)
    (topic : String) (agents : List AgentId) (quorum : Option ℚ) : SwarmIntelligenceEngine :=
  let threshold := if quorum.getD 0 = 0 then engine.defaultQuorum else quorum.getD 0
  let result := (agents.filterMap collectVote).foldl ConsensusResult.withVote
    { swarmId, topic, status := .inProgress, threshold }
  { engine with consensusRounds := engine.consensusRounds.set id result }

def castVote (engine : SwarmIntelligenceEngine) (id : String) (vote : Vote) :
    SwarmIntelligenceEngine :=
  match engine.consensusRounds.get? id with
  | none => engine
  | some consensus =>
    if consensus.status ≠ .inProgress then engine
    else { engine with consensusRounds := engine.consensusRounds.set id (consensus.withVote vote) }

/-- Cast votes, each in the round that it names. -/
def castVotes (engine : SwarmIntelligenceEngine) (calls : List (String × Vote)) :
    SwarmIntelligenceEngine :=
  calls.foldl (fun engine call => engine.castVote call.1 call.2) engine

end SwarmIntelligenceEngine

/-- Of the ballots, the shortest beginning that carries is counted, else all of them. -/
structure Counts (threshold : ℚ) (ballots counted : List Vote) : Prop where
  beginning : counted <+: ballots
  first : ∀ front, front <+: counted → Carry threshold front → front = counted
  all : ¬ Carry threshold counted → counted = ballots

theorem not_carry_nil (threshold : ℚ) : ¬ Carry threshold [] := by
  simp [Carry, totalWeight]

variable {threshold : ℚ} {ballots counted : List Vote}

theorem Counts.none (threshold : ℚ) : Counts threshold [] [] where
  beginning := prefix_rfl
  first _ before _ := prefix_nil.mp before
  all _ := rfl

section

variable (counts : Counts threshold ballots counted)
include counts

theorem Counts.frozen (carries : Carry threshold counted) (vote : Vote) :
    Counts threshold (ballots ++ [vote]) counted where
  beginning := counts.beginning.trans (prefix_append _ _)
  first := counts.first
  all open_ := absurd carries open_

theorem Counts.cast (open_ : ¬ Carry threshold counted) (vote : Vote) :
    Counts threshold (ballots ++ [vote]) (counted ++ [vote]) where
  beginning := counts.all open_ ▸ prefix_rfl
  first front before carries := by
    rcases prefix_concat_iff.mp before with whole | earlier
    · exact whole
    · exact absurd (counts.first front earlier carries ▸ carries) open_
  all _ := congrArg (· ++ [vote]) (counts.all open_)

theorem Counts.carry_iff :
    Carry threshold counted ↔ ∃ front, front <+: ballots ∧ Carry threshold front := by
  constructor
  · exact fun carries => ⟨counted, counts.beginning, carries⟩
  · rintro ⟨front, before, carries⟩
    by_contra open_
    rw [← counts.all open_] at before
    exact open_ (counts.first front before carries ▸ carries)

end

theorem carry_perm {votes others : List Vote} (same : votes.Perm others) :
    Carry threshold votes ↔ Carry threshold others := by
  rw [Carry, Carry, yeaWeight, yeaWeight, totalWeight, totalWeight,
    (same.map Vote.weight).sum_eq, totalWeight, totalWeight,
    ((same.filter _).map Vote.weight).sum_eq]

namespace SwarmIntelligenceEngine

/-- The votes cast in a round. -/
def ballotsOf (id : String) (calls : List (String × Vote)) : List Vote :=
  (calls.filter (·.1 = id)).map Prod.snd

variable {engine : SwarmIntelligenceEngine} {id : String} {begun : ConsensusResult}

theorem castVote_counts (calls : List (String × Vote))
    (started : engine.consensusRounds.get? id = some (begun.withVotes [])) :
    ∃ counted, Counts begun.threshold (ballotsOf id calls) counted ∧
      (engine.castVotes calls).consensusRounds.get? id = some (begun.withVotes counted) := by
  induction calls using reverseRecOn with
  | nil => exact ⟨[], .none _, started⟩
  | append_singleton calls call ih =>
    obtain ⟨counted, counts, round⟩ := ih
    obtain ⟨other, vote⟩ := call
    rw [castVotes, foldl_concat, ← castVotes, ballotsOf, filter_append, map_append]
    by_cases here : other = id
    · subst here
      simp only [decide_true, filter_cons_of_pos, filter_nil, map_singleton]
      rw [castVote, round]
      by_cases carries : Carry begun.threshold counted
      · refine ⟨counted, counts.frozen carries vote, ?_⟩
        simp [ConsensusResult.withVotes, carries, round]
      · refine ⟨counted ++ [vote], counts.cast carries vote, ?_⟩
        simp [ConsensusResult.withVotes, ConsensusResult.withVote, carries]
    · refine ⟨counted, by simpa [here, ballotsOf] using counts, ?_⟩
      rw [castVote]
      split
      · exact round
      · split
        · exact round
        · exact (Dict.get?_set_ne _ (Ne.symm here) _).trans round

def roundAfter (engine : SwarmIntelligenceEngine) (id : String) (swarmId : SwarmId)
    (topic : String) (agents : List AgentId) (quorum : Option ℚ) (calls : List (String × Vote)) :
    Option ConsensusResult :=
  ((engine.startConsensus id swarmId topic agents quorum).castVotes calls).consensusRounds.get? id

/-- No beginning carries but the whole. -/
def LateAtMost (threshold : ℚ) (ballots : List Vote) : Prop :=
  ∀ front, front <+: ballots → Carry threshold front → front = ballots

/-- A round has reached its threshold if a beginning of its ballots has; the shortest one is what
is counted. Ballots in another order have the same outcome, if nothing is decided before the last
ballot. -/
theorem roundAfter_spec (engine : SwarmIntelligenceEngine) (id : String) (swarmId : SwarmId)
    (topic : String) (agents : List AgentId) (quorum : Option ℚ) :
    ∃ threshold, (threshold = if quorum.getD 0 = 0 then engine.defaultQuorum else quorum.getD 0) ∧
      (∀ calls, ∃ round, engine.roundAfter id swarmId topic agents quorum calls = some round ∧
        Counts threshold (ballotsOf id calls) round.votes ∧
        (round.status = .reached ↔ ∃ front, front <+: ballotsOf id calls ∧ Carry threshold front) ∧
        (round.outcome = true ↔ round.status = .reached)) ∧
      ∀ calls others, (ballotsOf id calls).Perm (ballotsOf id others) →
        LateAtMost threshold (ballotsOf id calls) → LateAtMost threshold (ballotsOf id others) →
        (engine.roundAfter id swarmId topic agents quorum calls).map
            (fun round => (round.status, round.outcome)) =
          (engine.roundAfter id swarmId topic agents quorum others).map
            fun round => (round.status, round.outcome) := by
  refine ⟨_, rfl, ?_⟩
  generalize isThreshold :
    (if quorum.getD 0 = 0 then engine.defaultQuorum else quorum.getD 0) = threshold
  have silent : agents.filterMap collectVote = [] := filterMap_eq_nil_iff.mpr fun _ _ => rfl
  have counted (calls : List (String × Vote)) := @castVote_counts
    (engine.startConsensus id swarmId topic agents quorum) id
    { swarmId, topic, status := .inProgress, threshold } calls (by
      simp [startConsensus, silent, isThreshold, ConsensusResult.withVotes, not_carry_nil,
        totalWeight, yeaWeight])
  have whole {votes counted : List Vote} (counts : Counts threshold votes counted)
      (late : LateAtMost threshold votes) : counted = votes := by
    by_cases carries : Carry threshold counted
    · exact late counted counts.beginning carries
    · exact counts.all carries
  refine ⟨fun calls => ?_, fun calls others same late otherLate => ?_⟩
  · obtain ⟨votes, counts, round⟩ := counted calls
    refine ⟨_, round, counts, ?_⟩
    rw [← Counts.carry_iff counts]
    by_cases carries : Carry threshold votes
    · simp [ConsensusResult.withVotes, carries]
    · simp [ConsensusResult.withVotes, carries]
  · obtain ⟨votes, counts, round⟩ := counted calls
    obtain ⟨otherVotes, otherCounts, otherRound⟩ := counted others
    have alike : Carry threshold votes ↔ Carry threshold otherVotes := by
      rw [whole counts late, whole otherCounts otherLate]
      exact carry_perm same
    rw [roundAfter, round, roundAfter, otherRound]
    simp [ConsensusResult.withVotes, alike]

/-- A vote against and two for it, which decide nothing before the last one. -/
theorem roundAfter_reordered :
    (roundAfter {} "r" "s" "t" [] none [("r", ⟨"b", .no, "", 1⟩), ("r", ⟨"a", .yes, "", 1⟩),
        ("r", ⟨"c", .yes, "", 1⟩)]).map (fun round => (round.status, round.outcome)) =
      (roundAfter {} "r" "s" "t" [] none [("r", ⟨"b", .no, "", 1⟩), ("r", ⟨"c", .yes, "", 1⟩),
        ("r", ⟨"a", .yes, "", 1⟩)]).map fun round => (round.status, round.outcome) := by
  obtain ⟨_, rfl, -, same⟩ := roundAfter_spec {} "r" "s" "t" [] none
  have late : ∀ ballots ∈ ([[⟨"b", .no, "", 1⟩, ⟨"a", .yes, "", 1⟩, ⟨"c", .yes, "", 1⟩],
      [⟨"b", .no, "", 1⟩, ⟨"c", .yes, "", 1⟩, ⟨"a", .yes, "", 1⟩]] : List (List Vote)),
      ∀ front ∈ ballots.inits, Carry (51 / 100) front → front.length = ballots.length := by
    decide +kernel
  apply same
  · exact .cons _ (.swap _ _ _)
  · exact fun front among carries =>
      among.eq_of_length (late _ mem_cons_self _ ((mem_inits _ _).mpr among) carries)
  · exact fun front among carries => among.eq_of_length
      (late _ (mem_cons_of_mem _ mem_cons_self) _ ((mem_inits _ _).mpr among) carries)

/-- Enough different agents have voted yes. -/
def Backed (agents : List AgentId) (threshold : ℚ) (votes : List Vote) : Prop :=
  ∃ voters : List AgentId, voters.Nodup ∧ voters ⊆ agents ∧
    (∀ voter ∈ voters, ∃ vote ∈ votes, vote.voterId = voter ∧ vote.value = .yes) ∧
    threshold * agents.length ≤ voters.length

/-- One vote of an outsider carries a round of three agents, and the order of two votes decides. -/
theorem not_backed_outsider :
    (roundAfter {} "r" "s" "t" ["a", "b", "c"] none [("r", ⟨"x", .yes, "", 1⟩)]).map
        (fun round => (round.status, round.threshold)) = some (.reached, 51 / 100) ∧
      ¬ Backed ["a", "b", "c"] (51 / 100) [⟨"x", .yes, "", 1⟩] ∧
      (roundAfter {} "r" "s" "t" ["a", "b"] none
        [("r", ⟨"a", .yes, "", 1⟩), ("r", ⟨"b", .no, "", 1⟩)]).map (·.outcome) = some true ∧
      (roundAfter {} "r" "s" "t" ["a", "b"] none
        [("r", ⟨"b", .no, "", 1⟩), ("r", ⟨"a", .yes, "", 1⟩)]).map (·.outcome) = some false := by
  refine ⟨by decide +kernel, ?_, by decide +kernel, by decide +kernel⟩
  rintro ⟨voters, -, inside, voted, share⟩
  cases voters with
  | nil => exact absurd share (by norm_num)
  | cons voter rest =>
    obtain ⟨vote, cast, rfl, -⟩ := voted voter mem_cons_self
    obtain rfl := mem_singleton.mp cast
    exact absurd (inside mem_cons_self) (by decide)

end SwarmIntelligenceEngine

end AgenticOS.Orchestration
