import AgenticOS.Data.Tally
import AgenticOS.Transition.Run
import Mathlib.Algebra.Order.Ring.Rat
import Mathlib.Data.List.Sort
import Mathlib.Data.Finset.Card

/-!
# The election of a leader

A node holds an election by itself, in a term of its own count. It counts the votes it is
given; without votes it takes the healthiest node it knows of. The quorum is a majority of
the votes that are given, or of the nodes that are eligible.
-/

namespace AgenticOS.Distributed

open Tally Transition List

inductive LeaderElectionState where
  | follower
  | candidate
  | leader
  | observer
deriving DecidableEq

structure LeaderVote where
  voterId : String
  candidateId : String
  term : Int := 0
deriving DecidableEq

structure ElectionCandidate where
  nodeId : String
  status : String := "active"
  healthScore : ℚ := 0
  brainCount : Int := 0
deriving DecidableEq

structure HeartbeatStatus where
  nodeId : String
  isAlive : Bool := true
  consecutiveFailures : Int := 0

structure LeaderElectionResult where
  term : Int := 0
  winnerId : String := ""
  totalVotes : Nat := 0
  votesForWinner : Nat := 0
  quorumMet : Bool := false
  participants : List String := []
  votes : List LeaderVote := []
deriving DecidableEq

structure ElectionStats where
  electionsRun : Nat := 0
  electedLeader : Nat := 0
  electionsFailed : Nat := 0

structure LeaderElection where
  localNodeId : String := ""
  state : LeaderElectionState := .follower
  currentTerm : Int := 0
  currentLeader : String := ""
  votes : List LeaderVote := []
  electionHistory : List LeaderElectionResult := []
  stats : ElectionStats := {}

/-- What `run_election` is given: candidates, votes, and the heartbeats if there is a manager
of them. -/
structure Ballot where
  candidates : List ElectionCandidate := []
  votes : List LeaderVote := []
  heartbeats : Option (List HeartbeatStatus) := none

namespace LeaderElection

variable (election : LeaderElection)

/-- `_get_eligible_nodes`. -/
def eligibleNodes (ballot : Ballot) : List ElectionCandidate :=
  let self : ElectionCandidate :=
    { nodeId := election.localNodeId
      healthScore := 100 }
  if ballot.candidates ≠ [] then
    ballot.candidates.filter fun candidate => candidate.status = "active"
  else
    match ballot.heartbeats with
    | none => [self]
    | some statuses =>
      let alive := (statuses.filter HeartbeatStatus.isAlive).map fun status =>
        { nodeId := status.nodeId
          healthScore := 100 - status.consecutiveFailures * 20 }
      if ∃ node ∈ alive, node.nodeId = election.localNodeId then alive else alive ++ [self]

/-- The order of the eligible nodes: the healthiest first, then the one with most brains, then
by name. -/
def Precedes (first second : ElectionCandidate) : Prop :=
  second.healthScore < first.healthScore ∨
    first.healthScore = second.healthScore ∧
      (second.brainCount < first.brainCount ∨
        first.brainCount = second.brainCount ∧ first.nodeId ≤ second.nodeId)
deriving Decidable

/-- The outcome of the votes, or of the comparison of the eligible nodes. -/
def counted (ballot : Ballot) : LeaderElectionResult :=
  let term := election.currentTerm + 1
  if ballot.votes ≠ [] then
    let voteCounts := tally LeaderVote.candidateId (fun _ => 1) ballot.votes
    { term := term
      winnerId := (frontRunner voteCounts).getD ""
      totalVotes := ballot.votes.length
      votesForWinner := ((frontRunner voteCounts).bind voteCounts.get?).getD 0
      votes := ballot.votes }
  else
    let eligible := election.eligibleNodes ballot
    let result : LeaderElectionResult :=
      { term := term
        totalVotes := eligible.length
        participants := eligible.map ElectionCandidate.nodeId }
    match eligible.insertionSort Precedes with
    | [] => result
    | winner :: _ =>
      { result with
        winnerId := winner.nodeId
        votesForWinner := 1 }

def electionResult (ballot : Ballot) : LeaderElectionResult :=
  let result := election.counted ballot
  { result with
    quorumMet := max 1 (result.totalVotes / 2 + 1) ≤ result.votesForWinner }

/-- The last entries of a history. -/
def recent {α : Type} (size : Nat) (history : List α) : List α :=
  history.drop (history.length - size)

def runElection (ballot : Ballot) : LeaderElection × LeaderElectionResult :=
  let result := election.electionResult ballot
  let begun :=
    { election with
      currentTerm := election.currentTerm + 1
      electionHistory := recent 100 (election.electionHistory ++ [result])
      stats := { election.stats with electionsRun := election.stats.electionsRun + 1 } }
  if result.quorumMet ∧ result.winnerId ≠ "" then
    ({ begun with
        currentLeader := result.winnerId
        state := if result.winnerId = election.localNodeId then .leader else .follower
        stats := { begun.stats with electedLeader := begun.stats.electedLeader + 1 } },
      result)
  else
    ({ begun with
        state := .follower
        stats := { begun.stats with electionsFailed := begun.stats.electionsFailed + 1 } },
      result)

def receiveVote (vote : LeaderVote) : LeaderElection × Bool :=
  if vote.term < election.currentTerm then (election, false)
  else ({ election with votes := election.votes ++ [vote] }, true)

def stepDown : LeaderElection :=
  { election with state := .follower }

end LeaderElection

structure Cluster where
  nodes : List LeaderElection
  obtained : List LeaderElectionResult := []

inductive ElectionAction where
  | runElection (node : Nat) (ballot : Ballot)
  | receiveVote (node : Nat) (vote : LeaderVote)
  | stepDown (node : Nat)

namespace Cluster

def step (cluster : Cluster) : ElectionAction → Cluster
  | .runElection node ballot =>
    match cluster.nodes[node]? with
    | none => cluster
    | some election =>
      let (election, result) := election.runElection ballot
      { nodes := cluster.nodes.set node election
        obtained := cluster.obtained ++ [result] }
  | .receiveVote node vote =>
    { cluster with
      nodes := cluster.nodes.modify node fun election => (election.receiveVote vote).1 }
  | .stepDown node => { cluster with nodes := cluster.nodes.modify node LeaderElection.stepDown }

end Cluster

/-!
## At most one leader in a term

Votes may be delivered in any order, several times or not at all; each voter votes for one
candidate in a term. An election is safe if its winner has, among the votes it was given,
the votes of a majority of the members in its own term: two such winners share a voter. The
program only asks for a majority of the votes that were given.
-/

/-- Whom a voter votes for in a term. -/
abbrev Intentions := String → Int → String

def Honest (intends : Intentions) (votes : List LeaderVote) : Prop :=
  ∀ vote ∈ votes, intends vote.voterId vote.term = vote.candidateId

def votersFor (members : Finset String) (votes : List LeaderVote) (term : Int)
    (candidate : String) : Finset String :=
  members.filter fun member =>
    ∃ vote ∈ votes, vote.voterId = member ∧ vote.term = term ∧ vote.candidateId = candidate

/-- Whoever has more than half of the votes that are given, has more than half of the members
in the term of the election. Without votes there is more than one eligible node, or none. -/
def Backed (members : Finset String) (election : LeaderElection) (ballot : Ballot) : Prop :=
  (ballot.votes = [] → (election.eligibleNodes ballot).length ≠ 1) ∧
  ∀ candidate, ballot.votes.length <
      2 * ballot.votes.countP (fun vote => vote.candidateId = candidate) →
    members.card < 2 * (votersFor members ballot.votes (election.currentTerm + 1) candidate).card

/-- Elections are held with honest votes that back the result. -/
def BackedElections (members : Finset String) (intends : Intentions) (cluster : Cluster) :
    ElectionAction → Prop
  | .runElection node ballot =>
    Honest intends ballot.votes ∧
      ∀ election, cluster.nodes[node]? = some election → Backed members election ballot
  | _ => True

/-- Two winners of one term are the same node. -/
def AtMostOneLeader (cluster : Cluster) : Prop :=
  ∀ first ∈ cluster.obtained, ∀ second ∈ cluster.obtained,
    first.quorumMet = true → second.quorumMet = true → first.term = second.term →
    first.winnerId = second.winnerId

/-! ## Majorities -/

variable {members : Finset String}

theorem exists_mem_of_majorities {first second : Finset String} (firstWithin : first ⊆ members)
    (secondWithin : second ⊆ members) (firstMost : members.card < 2 * first.card)
    (secondMost : members.card < 2 * second.card) : ∃ member, member ∈ first ∧ member ∈ second := by
  by_contra apart
  have disjoint : Disjoint first second := by
    rw [Finset.disjoint_left]
    intro member inFirst inSecond
    exact apart ⟨member, inFirst, inSecond⟩
  have union := Finset.card_le_card (Finset.union_subset firstWithin secondWithin)
  rw [Finset.card_union_of_disjoint disjoint] at union
  omega

def Won (members : Finset String) (intends : Intentions) (term : Int) (candidate : String) : Prop :=
  members.card < 2 * (members.filter fun member => intends member term = candidate).card

variable {intends : Intentions}

theorem Won.unique {term : Int} {first second : String}
    (firstWon : Won members intends term first) (secondWon : Won members intends term second) :
    first = second := by
  obtain ⟨member, inFirst, inSecond⟩ := exists_mem_of_majorities
    (Finset.filter_subset _ _) (Finset.filter_subset _ _) firstWon secondWon
  rw [← (Finset.mem_filter.mp inFirst).2, ← (Finset.mem_filter.mp inSecond).2]

theorem votersFor_subset {votes : List LeaderVote} (honest : Honest intends votes) (term : Int)
    (candidate : String) : votersFor members votes term candidate ⊆
      members.filter fun member => intends member term = candidate := by
  intro member isVoter
  obtain ⟨isMember, vote, given, rfl, rfl, rfl⟩ := Finset.mem_filter.mp isVoter
  exact Finset.mem_filter.mpr ⟨isMember, honest vote given⟩

section

variable {election : LeaderElection} {ballot : Ballot}

theorem electionResult_term : (election.electionResult ballot).term = election.currentTerm + 1 := by
  unfold LeaderElection.electionResult LeaderElection.counted
  dsimp only
  split
  · rfl
  · split
    · rfl
    · rfl

theorem quorum_of_votes (given : ballot.votes ≠ [])
    (met : (election.electionResult ballot).quorumMet = true) :
    ballot.votes.length < 2 * ballot.votes.countP fun vote =>
      vote.candidateId = (election.electionResult ballot).winnerId := by
  unfold LeaderElection.electionResult LeaderElection.counted at met ⊢
  dsimp only at met ⊢
  rw [if_pos given] at met ⊢
  rw [decide_eq_true_iff] at met
  cases isFirst : frontRunner (tally LeaderVote.candidateId (fun _ => 1) ballot.votes) with
  | none =>
    rw [isFirst] at met
    simp at met
  | some winner =>
    rw [isFirst] at met
    simp only [Option.bind_some, getD_tally, total_one, Option.getD_some] at met ⊢
    omega

theorem quorum_of_no_votes (none : ballot.votes = [])
    (met : (election.electionResult ballot).quorumMet = true) :
    (election.eligibleNodes ballot).length = 1 := by
  unfold LeaderElection.electionResult LeaderElection.counted at met
  dsimp only at met
  rw [if_neg (not_not.mpr none)] at met
  rw [← length_insertionSort LeaderElection.Precedes]
  cases sorted : (election.eligibleNodes ballot).insertionSort LeaderElection.Precedes with
  | nil =>
    rw [sorted] at met
    simp at met
  | cons winner others =>
    have size := length_insertionSort LeaderElection.Precedes (election.eligibleNodes ballot)
    rw [sorted] at met size
    simp only [decide_eq_true_iff] at met
    rw [length_cons] at size ⊢
    omega

theorem won_of_backed {members : Finset String} {intends : Intentions}
    (honest : Honest intends ballot.votes) (backed : Backed members election ballot)
    (met : (election.electionResult ballot).quorumMet = true) :
    Won members intends (election.electionResult ballot).term
      (election.electionResult ballot).winnerId := by
  by_cases none : ballot.votes = []
  · exact absurd (quorum_of_no_votes none met) (backed.1 none)
  · have most := backed.2 _ (quorum_of_votes none met)
    rw [electionResult_term]
    exact most.trans_le (Nat.mul_le_mul_left 2 (Finset.card_le_card (votersFor_subset honest _ _)))

theorem runElection_result : (election.runElection ballot).2 = election.electionResult ballot := by
  unfold LeaderElection.runElection
  dsimp only
  split
  · rfl
  · rfl

theorem backed_of_forall_mem {members : Finset String} (given : ballot.votes ≠ [])
    (most : ∀ candidate ∈ ballot.votes.map LeaderVote.candidateId, ballot.votes.length <
          2 * ballot.votes.countP (fun vote => vote.candidateId = candidate) →
        members.card <
          2 * (votersFor members ballot.votes (election.currentTerm + 1) candidate).card) :
    Backed members election ballot := by
  refine ⟨fun none => absurd none given, fun candidate isMost => ?_⟩
  have positive : 0 < ballot.votes.countP fun vote => vote.candidateId = candidate := by omega
  obtain ⟨vote, member, named⟩ := countP_pos_iff.mp positive
  exact most candidate (mem_map.mpr ⟨vote, member, of_decide_eq_true named⟩) isMost

end

def AllWon (members : Finset String) (intends : Intentions) (cluster : Cluster) : Prop :=
  ∀ result ∈ cluster.obtained, result.quorumMet = true →
    Won members intends result.term result.winnerId

theorem AllWon.atMostOneLeader {cluster : Cluster} (allWon : AllWon members intends cluster) :
    AtMostOneLeader cluster := by
  intro first isFirst second isSecond firstMet secondMet sameTerm
  have firstWon := allWon first isFirst firstMet
  rw [sameTerm] at firstWon
  exact firstWon.unique (allWon second isSecond secondMet)

theorem AllWon.step {cluster : Cluster} (allWon : AllWon members intends cluster)
    (action : ElectionAction) (backed : BackedElections members intends cluster action) :
    AllWon members intends (cluster.step action) := by
  cases action with
  | receiveVote | stepDown => exact allWon
  | runElection node ballot =>
    unfold Cluster.step
    dsimp only
    cases present : cluster.nodes[node]? with
    | none => exact allWon
    | some election =>
      intro result isObtained met
      rcases mem_append.mp isObtained with before | now
      · exact allWon result before met
      · rw [mem_singleton, runElection_result] at now
        rw [now] at met ⊢
        exact won_of_backed backed.1 (backed.2 election present) met

/-- Whatever the members and the votes, in every run whose elections are backed there is at
most one leader in each term. -/
theorem atMostOneLeader_of_backed (members : Finset String) (intends : Intentions)
    (nodes : List LeaderElection) (actions : List ElectionAction)
    (backed : Along Cluster.step (BackedElections members intends) { nodes := nodes } actions) :
    Always Cluster.step AtMostOneLeader { nodes := nodes } actions := by
  intro done earlier
  have allWon : AllWon members intends (run .step { nodes := nodes } done) := by
    apply (backed.of_prefix earlier).invariant
    · intro cluster action holds guarded
      exact holds.step action guarded
    · intro result isObtained
      cases isObtained
  exact allWon.atMostOneLeader

/-- Three members, of which two vote for the first node; each of two nodes counts their votes,
and the first does so again in the next term. -/
theorem atMostOneLeader_threeMembers :
    Always Cluster.step AtMostOneLeader
      { nodes := [{ localNodeId := "a" }, { localNodeId := "b" }, { localNodeId := "c" }] }
      [.runElection 0 { votes := [⟨"a", "a", 1⟩, ⟨"c", "a", 1⟩, ⟨"a", "a", 1⟩] },
        .receiveVote 1 ⟨"b", "b", 1⟩,
        .runElection 1 { votes := [⟨"c", "a", 1⟩, ⟨"b", "b", 1⟩, ⟨"a", "a", 1⟩] },
        .runElection 0 { votes := [⟨"c", "a", 2⟩, ⟨"a", "a", 2⟩] }] := by
  apply atMostOneLeader_of_backed {"a", "b", "c"} fun voter _ => if voter = "b" then "b" else "a"
  refine ⟨⟨?_, ?_⟩, trivial, ⟨?_, ?_⟩, ⟨?_, ?_⟩, trivial⟩
  any_goals
    unfold Honest
    decide
  all_goals
    intro election present
    obtain rfl := Option.some.inj present
    apply backed_of_forall_mem (by decide)
    decide

/-- Two nodes elect themselves in their first term, each with one vote. -/
theorem loneVotes_elect_two :
    ¬ ∀ (intends : Intentions) (nodes : List LeaderElection) (actions : List ElectionAction),
      (∀ node ballot, .runElection node ballot ∈ actions →
        ballot.votes ≠ [] ∧ Honest intends ballot.votes) →
      AtMostOneLeader (run Cluster.step { nodes := nodes } actions) := by
  intro safe
  have atMostOne := safe (fun voter _ => voter)
    [{ localNodeId := "a" }, { localNodeId := "b" }]
    [.runElection 0 { votes := [⟨"a", "a", 1⟩] }, .runElection 1 { votes := [⟨"b", "b", 1⟩] }]
  have obtained : (run Cluster.step { nodes := [{ localNodeId := "a" }, { localNodeId := "b" }] }
      [.runElection 0 { votes := [⟨"a", "a", 1⟩] },
        .runElection 1 { votes := [⟨"b", "b", 1⟩] }]).obtained =
      [⟨1, "a", 1, 1, true, [], [⟨"a", "a", 1⟩]⟩, ⟨1, "b", 1, 1, true, [], [⟨"b", "b", 1⟩]⟩] := by
    decide +kernel
  have same := atMostOne ?_ _ mem_cons_self _ (mem_cons_of_mem _ mem_cons_self)
    rfl rfl rfl
  · exact absurd same (by decide)
  · intro node ballot held
    simp only [mem_cons, ElectionAction.runElection.injEq, not_mem_nil, or_false] at held
    rcases held with ⟨-, rfl⟩ | ⟨-, rfl⟩
    · exact ⟨by decide, by unfold Honest; decide⟩
    · exact ⟨by decide, by unfold Honest; decide⟩

/-! ## The election of the healthiest node -/

/-- Without votes, an election has a quorum and makes the first of the active candidates the
leader. -/
def ElectsBest (ballot : Ballot) (election : LeaderElection) : Prop :=
  (election.runElection ballot).2.quorumMet = true ∧
    ∃ best ∈ ballot.candidates, best.status = "active" ∧
      (∀ other ∈ ballot.candidates, other.status = "active" → LeaderElection.Precedes best other) ∧
      (election.runElection ballot).2.winnerId = best.nodeId ∧
      (election.runElection ballot).1.currentLeader = best.nodeId

theorem runElection_currentLeader (election : LeaderElection) (ballot : Ballot) :
    (election.runElection ballot).1.currentLeader =
      if (election.electionResult ballot).quorumMet ∧
        (election.electionResult ballot).winnerId ≠ "" then
        (election.electionResult ballot).winnerId
      else election.currentLeader := by
  unfold LeaderElection.runElection
  dsimp only
  split <;> rfl

/-- The only vote that is counted is the winner's own, so that a second active candidate prevents
the quorum. -/
theorem electsBest_iff (election : LeaderElection) {ballot : Ballot} (none : ballot.votes = [])
    (active : ∃ candidate ∈ ballot.candidates, candidate.status = "active") :
    (ElectsBest ballot election ↔
      ∃ only, (ballot.candidates.filter fun candidate => candidate.status = "active") = [only] ∧
        (only.nodeId = "" → election.currentLeader = "")) ∧
    ∀ other, ElectsBest ballot election → ElectsBest ballot other →
      (election.runElection ballot).1.currentLeader =
        (other.runElection ballot).1.currentLeader := by
  have given : ballot.candidates ≠ [] := by
    rintro empty
    simp [empty] at active
  have eligible (election : LeaderElection) : election.eligibleNodes ballot =
      ballot.candidates.filter fun candidate => candidate.status = "active" := by
    exact if_pos given
  have single (election : LeaderElection) (elects : ElectsBest ballot election) :
      ∃ only, (ballot.candidates.filter fun candidate => candidate.status = "active") = [only] ∧
        (election.runElection ballot).1.currentLeader = only.nodeId := by
    obtain ⟨met, best, member, isActive, -, -, leads⟩ := elects
    rw [runElection_result] at met
    have one := quorum_of_no_votes none met
    rw [eligible] at one
    obtain ⟨only, isOnly⟩ := length_eq_one_iff.mp one
    have same : best ∈ [only] := isOnly ▸ mem_filter.mpr ⟨member, by simpa using isActive⟩
    rw [mem_singleton.mp same] at leads
    exact ⟨only, isOnly, leads⟩
  have elected {only : ElectionCandidate} (isOnly :
      (ballot.candidates.filter fun candidate => candidate.status = "active") = [only]) :
      (election.electionResult ballot).quorumMet = true ∧
        (election.electionResult ballot).winnerId = only.nodeId := by
    unfold LeaderElection.electionResult LeaderElection.counted
    simp [none, eligible, isOnly]
  constructor
  · constructor
    · intro elects
      obtain ⟨only, isOnly, leads⟩ := single election elects
      refine ⟨only, isOnly, fun nameless => ?_⟩
      rw [runElection_currentLeader, (elected isOnly).2, nameless, if_neg (by simp)] at leads
      exact leads
    · rintro ⟨only, isOnly, unled⟩
      have here {other : ElectionCandidate} (member : other ∈ ballot.candidates)
          (isActive : other.status = "active") : other = only := by
        have kept : other ∈ [only] := isOnly ▸ mem_filter.mpr ⟨member, by simpa using isActive⟩
        exact mem_singleton.mp kept
      obtain ⟨best, member, isActive⟩ := active
      obtain rfl := here member isActive
      refine ⟨?_, best, member, isActive, ?_, ?_, ?_⟩
      · rw [runElection_result, (elected isOnly).1]
      · intro other present alsoActive
        rw [here present alsoActive]
        exact .inr ⟨rfl, .inr ⟨rfl, String.le_refl _⟩⟩
      · rw [runElection_result, (elected isOnly).2]
      · rw [runElection_currentLeader, (elected isOnly).1, (elected isOnly).2]
        by_cases nameless : best.nodeId = ""
        · simp [nameless, unled nameless]
        · simp [nameless]
  · intro other elects alsoElects
    obtain ⟨only, isOnly, leads⟩ := single election elects
    obtain ⟨also, isAlso, alsoLeads⟩ := single other alsoElects
    rw [isOnly] at isAlso
    cases isAlso
    exact leads.trans alsoLeads.symm

/-- One of two candidates is active. -/
theorem electsBest_lone :
    ElectsBest { candidates := [{ nodeId := "a", status := "draining" }, { nodeId := "b" }] } {} :=
  (electsBest_iff {} rfl ⟨{ nodeId := "b" }, by decide⟩).1.mpr
    ⟨{ nodeId := "b" }, by decide⟩

/-- Two active candidates: the healthiest one has one vote, and the quorum is two. -/
theorem not_electsBest_pair :
    ¬ ElectsBest
      { candidates := [{ nodeId := "a", healthScore := 90 }, { nodeId := "b", healthScore := 80 }] }
      { localNodeId := "a" } := by
  rintro ⟨met, -⟩
  revert met
  decide +kernel

end AgenticOS.Distributed
