import Mathlib.Data.List.Dedup
import Mathlib.Tactic.Linarith

/-!
# The votes of a cluster

The caller collects the votes of the nodes and hands them to the manager as a list. What a
node votes is a word: "yes", "no", and anything else is an abstention. The manager counts the
votes, not the nodes; this file compares the two.
-/

namespace AgenticOS.Cluster

inductive ConsensusType where
  | majority
  | weighted
  | confidence
  | leader
  | quorum
deriving DecidableEq

structure ConsensusVote where
  nodeId : String
  vote : String
  weight : ℚ := 1
  confidence : ℚ := 1

structure ConsensusResult where
  proposal : String := ""
  consensusType : ConsensusType := .majority
  votes : List ConsensusVote := []
  decision : String := ""
  confidence : ℚ := 0
  agreement : ℚ := 0
  leaderId : String := ""
  quorumSize : Int := 1
  quorumMet : Bool := false

/-- `ClusterConsensusManager`. Its quorum is never empty. -/
structure ClusterConsensusManager where
  quorumSize : Int
  positive : 1 ≤ quorumSize
  leaderId : String := ""
  history : List ConsensusResult := []

def votesOf (word : String) (votes : List ConsensusVote) : Nat :=
  votes.countP fun vote => vote.vote = word

def totalOf (amount : ConsensusVote → ℚ) (votes : List ConsensusVote) : ℚ :=
  (votes.map amount).sum

def yesVotes (votes : List ConsensusVote) : List ConsensusVote :=
  votes.filter fun vote => vote.vote = "yes"

namespace ClusterConsensusManager

/-- The constructor. -/
def construct (quorumSize : Int) (leaderId : String) : ClusterConsensusManager where
  quorumSize := max 1 quorumSize
  positive := le_max_left _ _
  leaderId := leaderId

def setQuorumSize (manager : ClusterConsensusManager) (size : Int) : ClusterConsensusManager :=
  { manager with
    quorumSize := max 1 size
    positive := le_max_left _ _ }

/-- A changed quorum is as good as one from the start. -/
theorem setQuorumSize_construct (first size : Int) (leaderId : String) :
    (construct first leaderId).setQuorumSize size = construct size leaderId := by
  rfl

def setLeader (manager : ClusterConsensusManager) (leaderId : String) : ClusterConsensusManager :=
  { manager with leaderId := leaderId }

variable (manager : ClusterConsensusManager) (votes : List ConsensusVote)

def decideMajority : String :=
  if votesOf "no" votes < votesOf "yes" votes then "accepted" else "rejected"

def decideWeighted : String :=
  if totalOf ConsensusVote.weight votes = 0 then "rejected"
  else if 1 / 2 < totalOf ConsensusVote.weight (yesVotes votes) /
      totalOf ConsensusVote.weight votes then "accepted"
  else "rejected"

def decideConfidence : String :=
  if votes = [] then "rejected"
  else if yesVotes votes = [] then "rejected"
  else if 3 / 5 ≤ totalOf ConsensusVote.confidence (yesVotes votes) / (yesVotes votes).length then
    "accepted"
  else "rejected"

def decideLeader : String :=
  if manager.leaderId = "" then "rejected"
  else
    match votes.find? fun vote => vote.nodeId = manager.leaderId with
    | none => "rejected"
    | some vote => if vote.vote = "yes" then "accepted" else "rejected"

def decideQuorum : String :=
  if (votes.length : Int) < manager.quorumSize then "no_quorum" else decideMajority votes

/-- The decision of a round. -/
def decide (consensusType : ConsensusType) : String :=
  if consensusType = .leader then manager.decideLeader votes
  else if (votes.length : Int) < manager.quorumSize then "no_quorum"
  else
    match consensusType with
    | .majority => decideMajority votes
    | .weighted => decideWeighted votes
    | .confidence => decideConfidence votes
    | .quorum => manager.decideQuorum votes
    | .leader => "rejected"

def runConsensus (proposal : String) (consensusType : ConsensusType) :
    ClusterConsensusManager × ConsensusResult :=
  let result : ConsensusResult :=
    { proposal := proposal
      consensusType := consensusType
      votes := votes
      leaderId := manager.leaderId
      quorumSize := manager.quorumSize
      quorumMet := manager.quorumSize ≤ votes.length
      decision := manager.decide votes consensusType
      agreement := if votes = [] then 0 else (yesVotes votes).length / votes.length
      confidence :=
        if votes = [] then 0 else totalOf ConsensusVote.confidence votes / votes.length }
  let history := manager.history ++ [result]
  ({ manager with history := history.drop (history.length - 200) }, result)

end ClusterConsensusManager

def voters (votes : List ConsensusVote) : List String :=
  (votes.map ConsensusVote.nodeId).dedup

def supporters (votes : List ConsensusVote) : List String :=
  ((yesVotes votes).map ConsensusVote.nodeId).dedup

/-- Enough nodes have voted, and more than half of them for the proposal. -/
def Carried (quorumSize : Int) (votes : List ConsensusVote) : Prop :=
  quorumSize ≤ (voters votes).length ∧ (voters votes).length < 2 * (supporters votes).length
deriving Decidable

/-- By how many the votes for a proposal outnumber those against it. -/
def margin (votes : List ConsensusVote) : Int :=
  votesOf "yes" votes - votesOf "no" votes

def abstentions (votes : List ConsensusVote) : Nat :=
  votes.countP fun vote => vote.vote ≠ "yes" ∧ vote.vote ≠ "no"

/-- The votes of nodes that have voted before. -/
def repeats (votes : List ConsensusVote) : Nat :=
  votes.length - (voters votes).length

/-- What the margin has to exceed. Each abstention has to be outvoted as well. A second vote of a
node is missing among the nodes, and one more is missing among those for the proposal if it is such
a vote. -/
def distortion (votes : List ConsensusVote) : Int :=
  abstentions votes + 2 * repeats (yesVotes votes) - repeats votes

/-- No proposal with a positive margin owes its quorum to repetitions, and zero and the distortion
are on the same side of the margin. -/
structure Undistorted (quorumSize : Int) (votes : List ConsensusVote) : Prop where
  quorum : 0 < margin votes → quorumSize ≤ votes.length → quorumSize + repeats votes ≤ votes.length
  margin : quorumSize + repeats votes ≤ votes.length →
    (0 < margin votes → distortion votes < margin votes) ∧
      (margin votes ≤ 0 → margin votes ≤ distortion votes)

variable {votes : List ConsensusVote}

open List

theorem voters_length_le (votes : List ConsensusVote) : (voters votes).length ≤ votes.length := by
  calc
    (votes.map ConsensusVote.nodeId).dedup.length ≤ (votes.map ConsensusVote.nodeId).length :=
      (dedup_sublist _).length_le
    _ = votes.length := length_map _

theorem length_eq_votes : votes.length = votesOf "yes" votes + votesOf "no" votes +
    abstentions votes := by
  induction votes with
  | nil => rfl
  | cons vote rest ih =>
    simp only [votesOf, abstentions, countP_cons, length_cons] at ih ⊢
    rw [ih]
    by_cases yes : vote.vote = "yes"
    · simp [yes]
      omega
    · by_cases no : vote.vote = "no"
      · simp [no]
        omega
      · simp [yes, no]
        omega

/-- What carries a proposal, by the numbers of votes. -/
theorem carried_iff {quorumSize : Int} : Carried quorumSize votes ↔
    quorumSize + repeats votes ≤ votes.length ∧ distortion votes < margin votes := by
  have all := voters_length_le votes
  have yes : (supporters votes).length ≤ (yesVotes votes).length :=
    voters_length_le (yesVotes votes)
  have count : (yesVotes votes).length = votesOf "yes" votes := countP_eq_length_filter.symm
  have total := @length_eq_votes votes
  have repeated : repeats (yesVotes votes) = (yesVotes votes).length - (supporters votes).length :=
    rfl
  unfold Carried distortion margin
  rw [repeated, repeats]
  omega

/-- Where no node votes twice, only abstentions distort: a proposal with a quorum and a positive
margin needs more of a margin than there are abstentions. -/
theorem undistorted_iff_of_nodup (once : (votes.map ConsensusVote.nodeId).Nodup)
    {quorumSize : Int} : Undistorted quorumSize votes ↔
      (quorumSize ≤ votes.length → 0 < margin votes → abstentions votes < margin votes) := by
  have none : repeats votes = 0 := by rw [repeats, voters, once.dedup, length_map, Nat.sub_self]
  have noneYes : repeats (yesVotes votes) = 0 := by
    have onceYes : ((yesVotes votes).map ConsensusVote.nodeId).Nodup :=
      once.sublist (filter_sublist.map _)
    rw [repeats, voters, onceYes.dedup, length_map, Nat.sub_self]
  constructor
  · rintro ⟨-, margin⟩ enough ahead
    have exceeds := (margin (by omega)).1 ahead
    unfold distortion at exceeds
    omega
  · intro outvoted
    refine ⟨by omega, fun enough => ?_⟩
    unfold distortion
    omega

namespace ClusterConsensusManager

variable (manager : ClusterConsensusManager) (votes : List ConsensusVote)

theorem decideMajority_eq_accepted :
    decideMajority votes = "accepted" ↔ votesOf "no" votes < votesOf "yes" votes := by
  unfold decideMajority
  split
  · exact iff_of_true rfl ‹_›
  · exact iff_of_false (by simp) ‹_›

/-- The two rules accept alike: by the number of votes. -/
theorem decision_eq_accepted (proposal : String) {consensusType : ConsensusType}
    (counts : consensusType = .majority ∨ consensusType = .quorum) :
    (manager.runConsensus votes proposal consensusType).2.decision = "accepted" ↔
      manager.quorumSize ≤ votes.length ∧ 0 < margin votes := by
  change manager.decide votes consensusType = "accepted" ↔ _
  have ahead : votesOf "no" votes < votesOf "yes" votes ↔ 0 < margin votes := by
    unfold margin
    omega
  unfold decide decideQuorum
  by_cases few : (votes.length : Int) < manager.quorumSize
  · rcases counts with rfl | rfl
    · simp [few]
    · simp [few]
  · have enough : manager.quorumSize ≤ votes.length := not_lt.mp few
    rcases counts with rfl | rfl
    · simp [few, enough, decideMajority_eq_accepted, ahead]
    · simp [few, enough, decideMajority_eq_accepted, ahead]

end ClusterConsensusManager

end AgenticOS.Cluster
