import AgenticOS.Cluster.Roster
import Mathlib.Data.Prod.Lex
import Mathlib.Data.String.Basic

/-!
# The leader of a topology

Who leads is recorded twice: the topology knows the id of the leader, and each node its role.
The two agree as long as no node with the empty id becomes the leader, because the empty id
stands for a topology without a leader.
-/

namespace AgenticOS.Cluster

open Transition List

namespace ClusterTopology

variable {topology : ClusterTopology}

/-- The ids of the nodes that take themselves to be the leader. -/
def leaders (topology : ClusterTopology) : List String :=
  (topology.listNodes.filter fun node => node.role = .leader).map NodeInfo.id

def LeaderAgrees (topology : ClusterTopology) : Prop :=
  topology.leaders = if topology.leaderId = "" then [] else [topology.leaderId]
deriving Decidable

def leads (topology : ClusterTopology) (id : String) : Bool :=
  (topology.getNode id).any fun node => node.role = .leader

theorem leads_iff {id : String} :
    topology.leads id ↔ ∃ node, topology.getNode id = some node ∧ node.role = .leader := by
  unfold leads
  cases topology.getNode id <;> simp

section

variable (wellFormed : topology.WellFormed)
include wellFormed

theorem leaders_eq : topology.leaders = topology.nodes.keys.filter topology.leads := by
  have known : ∀ id ∈ topology.nodes.keys, ∃ node, topology.getNode id = some node :=
    fun _ member => getNode_isSome_of_mem_keys wellFormed member
  unfold leaders
  rw [listNodes_eq]
  generalize topology.nodes.keys = ids at known
  induction ids with
  | nil => rfl
  | cons id ids ih =>
    obtain ⟨node, found⟩ := known id mem_cons_self
    have rest := ih fun other member => known other (mem_cons_of_mem id member)
    have named := id_of_getNode wellFormed found
    rw [filterMap_cons_some found]
    by_cases isLeader : node.role = .leader
    · have leading : topology.leads id := leads_iff.mpr ⟨node, found, isLeader⟩
      rw [filter_cons_of_pos (by simpa using isLeader), filter_cons_of_pos leading,
        map_cons, rest, named]
    · have following : ¬ topology.leads id := by
        rw [leads_iff]
        rintro ⟨same, foundSame, leading⟩
        rw [found] at foundSame
        cases foundSame
        exact isLeader leading
      rw [filter_cons_of_neg (by simpa using isLeader), filter_cons_of_neg following,
        rest]

theorem mem_leaders {id : String} : id ∈ topology.leaders ↔ topology.leads id := by
  rw [leaders_eq wellFormed, mem_filter, and_iff_right_iff_imp]
  intro leading
  obtain ⟨node, found, -⟩ := leads_iff.mp leading
  obtain ⟨address, atAddress, -⟩ := Option.bind_eq_some_iff.mp found
  exact Dict.mem_keys_iff.mpr ⟨address, atAddress⟩

theorem nodup_leaders : topology.leaders.Nodup := by
  rw [leaders_eq wellFormed]
  exact topology.nodes.nodupKeys.filter _

/-- Id by id: exactly the leader of the topology leads. -/
theorem leaderAgrees_iff_leads : topology.LeaderAgrees ↔
      ∀ id, topology.leads id ↔ topology.leaderId ≠ "" ∧ id = topology.leaderId := by
  unfold LeaderAgrees
  by_cases vacant : topology.leaderId = ""
  · rw [if_pos vacant, eq_nil_iff_forall_not_mem]
    simp [mem_leaders wellFormed, vacant]
  · rw [if_neg vacant, ← perm_singleton,
      perm_ext_iff_of_nodup (nodup_leaders wellFormed) (nodup_singleton _)]
    simp [mem_leaders wellFormed, vacant]

theorem leaderAgrees_congr {other : ClusterTopology} (otherWellFormed : other.WellFormed)
    (sameLeader : other.leaderId = topology.leaderId)
    (sameRoles : ∀ id, other.leads id = topology.leads id) :
    other.LeaderAgrees ↔ topology.LeaderAgrees := by
  rw [leaderAgrees_iff_leads wellFormed, leaderAgrees_iff_leads otherWellFormed, sameLeader]
  simp only [sameRoles]

end

theorem leads_addNode (wellFormed : topology.WellFormed) {node : NodeInfo}
    (follows : node.role ≠ .leader) (id : String) :
    (topology.addNode node).leads id = topology.leads id := by
  unfold leads
  rw [getNode_addNode wellFormed]
  by_cases same : id = node.id
  · rw [if_pos same, same]
    unfold settled
    cases topology.getNode node.id with
    | none => simpa using follows
    | some existing => rfl
  · rw [if_neg same]

theorem leads_modifyNode (wellFormed : topology.WellFormed) (id other : String)
    {change : NodeInfo → NodeInfo} (keeps : ∀ node, (change node).role = node.role) :
    (topology.modifyNode id change).leads other = topology.leads other := by
  unfold leads
  rw [getNode_modifyNode wellFormed]
  split
  · cases topology.getNode other with
    | none => rfl
    | some node => simp [keeps]
  · rfl

theorem leads_removeNode (id other : String) :
    (topology.removeNode id).leads other = (decide (other ≠ id) && topology.leads other) := by
  unfold leads
  rw [getNode_removeNode]
  by_cases same : other = id
  · simp [same]
  · simp [same]

theorem demote_role (node : NodeInfo) : (demote node).role ≠ .leader := by
  unfold demote
  split
  · simp
  · assumption

section

variable (wellFormed : topology.WellFormed)
include wellFormed

theorem leads_setLeader {leader : String} {address : Nat}
    (present : topology.nodes.get? leader = some address) (id : String) :
    (topology.setLeader leader).leads id ↔ id = leader := by
  rw [leads_iff, getNode_setLeader wellFormed present]
  constructor
  · rintro ⟨node, found, leading⟩
    obtain ⟨before, -, rfl⟩ := Option.map_eq_some_iff.mp found
    by_contra other
    unfold promoted at leading
    rw [if_neg other] at leading
    exact demote_role before leading
  · rintro rfl
    obtain ⟨node, atAddress, -⟩ := wellFormed.named id address present
    refine ⟨promoted id id node, ?_, ?_⟩
    · rw [getNode_of_get? present, atAddress, Option.map_some]
    · unfold promoted
      rw [if_pos rfl]

theorem leaderAgrees_addNode {node : NodeInfo} (follows : node.role ≠ .leader) :
    (topology.addNode node).LeaderAgrees ↔ topology.LeaderAgrees :=
  leaderAgrees_congr wellFormed (wellFormed.addNode node) (leaderId_addNode node)
    (leads_addNode wellFormed follows)

theorem leaderAgrees_modifyNode (id : String) {change : NodeInfo → NodeInfo}
    (keepsId : ∀ node, (change node).id = node.id)
    (keepsRole : ∀ node, (change node).role = node.role) :
    (topology.modifyNode id change).LeaderAgrees ↔ topology.LeaderAgrees :=
  leaderAgrees_congr wellFormed (wellFormed.modifyNode id keepsId) (leaderId_modifyNode id change)
    fun other => leads_modifyNode wellFormed id other keepsRole

theorem leaderAgrees_markNodeStatus (id : String) (status : NodeStatus) :
    (topology.markNodeStatus id status).LeaderAgrees ↔ topology.LeaderAgrees :=
  leaderAgrees_modifyNode wellFormed id (fun _ => rfl) fun _ => rfl

end

theorem LeaderAgrees.removeNode (agrees : topology.LeaderAgrees)
    (wellFormed : topology.WellFormed) (id : String) : (topology.removeNode id).LeaderAgrees := by
  rw [leaderAgrees_iff_leads wellFormed] at agrees
  rw [leaderAgrees_iff_leads (wellFormed.removeNode id)]
  intro other
  rw [leads_removeNode, Bool.and_eq_true, decide_eq_true_iff, agrees other]
  cases present : topology.nodes.get? id with
  | none =>
    have sameLeader : (topology.removeNode id).leaderId = topology.leaderId := by
      unfold ClusterTopology.removeNode
      rw [present]
    rw [sameLeader, and_iff_right_iff_imp]
    rintro ⟨elected, rfl⟩ rfl
    obtain ⟨node, found, -⟩ := leads_iff.mp ((agrees topology.leaderId).mpr ⟨elected, rfl⟩)
    rw [(getNode_eq_none_iff wellFormed).mpr present] at found
    cases found
  | some address =>
    have leaderAfter : (topology.removeNode id).leaderId =
        if topology.leaderId = id then "" else topology.leaderId := by
      unfold ClusterTopology.removeNode
      rw [present]
    rw [leaderAfter]
    by_cases removed : topology.leaderId = id
    · rw [if_pos removed]
      constructor
      · rintro ⟨stays, -, isLeader⟩
        exact absurd (isLeader.trans removed) stays
      · rintro ⟨absurdity, -⟩
        exact absurd rfl absurdity
    · rw [if_neg removed, and_iff_right_iff_imp]
      rintro ⟨-, isLeader⟩ same
      exact removed (isLeader.symm.trans same)

/-- A leader is one unless its id is empty. -/
theorem leaderAgrees_setLeader (wellFormed : topology.WellFormed) (agrees : topology.LeaderAgrees)
    (leader : String) : (topology.setLeader leader).LeaderAgrees ↔
      ¬ (leader = "" ∧ (topology.nodes.get? "").isSome) := by
  cases present : topology.nodes.get? leader with
  | none =>
    rw [setLeader_absent present]
    refine iff_of_true agrees ?_
    rintro ⟨rfl, isPresent⟩
    rw [present] at isPresent
    cases isPresent
  | some address =>
    rw [leaderAgrees_iff_leads (wellFormed.setLeader leader), leaderId_setLeader present]
    simp only [leads_setLeader wellFormed present]
    constructor
    · rintro exactly ⟨rfl, -⟩
      exact ((exactly "").mp rfl).1 rfl
    · intro named id
      refine ⟨fun isLeader => ⟨?_, isLeader⟩, fun both => both.2⟩
      rintro rfl
      exact named ⟨rfl, by rw [present]; rfl⟩

end ClusterTopology

namespace Federation

open ClusterTopology

/-! ## Whom an election chooses -/

def sortKey (node : NodeInfo) : ℚ ×ₗ ℤ ×ₗ String :=
  toLex (-node.healthScore, toLex (-node.brainCount, node.id))

theorem precedes_iff_sortKey (first second : NodeInfo) :
    Precedes first second ↔ sortKey first ≤ sortKey second := by
  unfold Precedes sortKey
  simp only [Prod.Lex.toLex_le_toLex, neg_lt_neg_iff, neg_inj]

instance : Std.Total Precedes where
  total first second := by
    simp only [precedes_iff_sortKey]
    exact le_total _ _

instance : IsTrans NodeInfo Precedes where
  trans first second third := by
    simp only [precedes_iff_sortKey]
    exact le_trans

theorem id_eq_of_precedes {first second : NodeInfo} (forth : Precedes first second)
    (back : Precedes second first) : first.id = second.id := by
  rw [precedes_iff_sortKey] at forth back
  have same := le_antisymm forth back
  unfold sortKey at same
  simp only [EmbeddingLike.apply_eq_iff_eq, Prod.mk.injEq] at same
  exact same.2.2

variable {node : NodeInfo} {candidates : List String} {topology : ClusterTopology}

theorem mem_electable_of_elected (isElected : elected topology candidates = some node) :
    node ∈ electable topology candidates :=
  (mem_insertionSort Precedes).mp (mem_of_head? isElected)

theorem getNode_of_elected (wellFormed : topology.WellFormed)
    (isElected : elected topology candidates = some node) :
    topology.getNode node.id = some node := by
  have member := mem_electable_of_elected isElected
  have active : node ∈ topology.listNodesOf .active := by
    unfold electable at member
    split at member
    · exact member
    · exact (mem_filter.mp member).1
  exact (mem_listNodes wellFormed).mp (mem_filter.mp active).1

theorem precedes_of_elected (isElected : elected topology candidates = some node) :
    ∀ other ∈ electable topology candidates, Precedes node other := by
  intro other member
  have sorted := pairwise_insertionSort Precedes (electable topology candidates)
  have memberSorted := (mem_insertionSort Precedes).mpr member
  unfold elected at isElected
  cases order : (electable topology candidates).insertionSort Precedes with
  | nil =>
    rw [order] at isElected
    cases isElected
  | cons first rest =>
    rw [order] at isElected sorted memberSorted
    cases isElected
    rcases mem_cons.mp memberSorted with rfl | later
    · exact (precedes_iff_sortKey other other).mpr le_rfl
    · exact rel_of_pairwise_cons sorted later

def NamelessFirst (topology : ClusterTopology) (candidates : List String) : Prop :=
  ∃ node ∈ electable topology candidates, node.id = "" ∧
    ∀ other ∈ electable topology candidates, Precedes node other
deriving Decidable

theorem namelessFirst_iff (isElected : elected topology candidates = some node) :
    NamelessFirst topology candidates ↔ node.id = "" := by
  constructor
  · rintro ⟨nameless, member, empty, first⟩
    have forth := precedes_of_elected isElected nameless member
    have back := first node (mem_electable_of_elected isElected)
    rw [id_eq_of_precedes forth back, empty]
  · intro empty
    exact ⟨node, mem_electable_of_elected isElected, empty, precedes_of_elected isElected⟩

theorem not_namelessFirst_of_none (nobody : elected topology candidates = none) :
    ¬ NamelessFirst topology candidates := by
  rintro ⟨nameless, member, -⟩
  rw [elected, head?_eq_none_iff] at nobody
  have memberSorted := (mem_insertionSort Precedes).mpr member
  rw [nobody] at memberSorted
  cases memberSorted

/-- Nobody with the empty id becomes the leader. -/
def Named (federation : Federation) : Action → Prop
  | .electLeader candidates => ¬ NamelessFirst federation.store candidates
  | .setLeader nodeId => ¬ (nodeId = "" ∧ (federation.store.nodes.get? "").isSome)
  | _ => True

theorem localNodeId_ne_empty (localNodeId host : String) (port : Nat) :
    (if localNodeId = "" then "node-" ++ host ++ "-" ++ toString port else localNodeId) ≠ "" := by
  split
  · intro empty
    have characters := congrArg String.toList empty
    simp at characters
  · assumption

theorem leaderAgrees_single {node : NodeInfo} (named : node.id ≠ "") :
    ((addNode {} node).setLeader node.id).LeaderAgrees := by
  have wellFormed := wellFormed_empty.addNode node
  have present : (addNode {} node).nodes.get? node.id = some 0 := by exact Dict.get?_set_self _ _ _
  rw [leaderAgrees_iff_leads (wellFormed.setLeader node.id), leaderId_setLeader present]
  intro other
  rw [leads_setLeader wellFormed present]
  exact ⟨fun isLeader => ⟨named, isLeader⟩, fun both => both.2⟩

theorem leaderAgrees_construct (localNodeId host : String) (port : Nat) (now : Timestamp) :
    (construct localNodeId host port now).store.LeaderAgrees := by
  unfold construct
  generalize named : (if localNodeId = "" then _ else _) = id
  have nonempty := localNodeId_ne_empty localNodeId host port
  rw [named] at nonempty
  let localNode : NodeInfo :=
    { id := id
      status := .active
      role := .leader
      isLocal := true
      startedAt := now
      lastHeartbeat := now }
  exact @leaderAgrees_single localNode nonempty

theorem leaderAgrees_check (cutoff : Timestamp) (remaining : List Nat)
    (wellFormed : topology.WellFormed) :
    (check topology cutoff remaining).1.LeaderAgrees ↔ topology.LeaderAgrees := by
  induction remaining with
  | nil => exact .rfl
  | cons address remaining ih =>
    unfold check
    split
    · exact ih
    · split
      · exact leaderAgrees_markNodeStatus wellFormed _ .unreachable
      · exact ih

theorem leaderAgrees_next (work : Work) (wellFormed : topology.WellFormed)
    (agrees : topology.LeaderAgrees) : (next topology work).1.LeaderAgrees := by
  cases work with
  | leaving nodeId => exact agrees.removeNode wellFormed nodeId
  | checking cutoff remaining => exact (leaderAgrees_check cutoff remaining wellFormed).mpr agrees
  | done => exact agrees

/-- One step: the leader agrees as long as the step makes nobody without a name the leader. -/
theorem leaderAgrees_step (federation : Federation) (action : Action)
    (wellFormed : federation.store.WellFormed) (agrees : federation.store.LeaderAgrees) :
    (step federation action).store.LeaderAgrees ↔ Named federation action := by
  cases action with
  | addRemoteNode nodeId now =>
    exact iff_of_true ((leaderAgrees_addNode wellFormed (by simp)).mpr agrees) trivial
  | removeNode nodeId =>
    refine iff_of_true ?_ trivial
    unfold step
    dsimp only
    split
    · exact agrees
    · exact (leaderAgrees_markNodeStatus wellFormed nodeId .left).mpr agrees
  | updateNodeHeartbeat nodeId now metrics =>
    refine iff_of_true ?_ trivial
    exact (leaderAgrees_modifyNode wellFormed nodeId (beat_id now metrics)
      (beat_role now metrics)).mpr agrees
  | electLeader candidates =>
    unfold step Named
    dsimp only
    cases isElected : elected federation.store candidates with
    | none => exact iff_of_true agrees (not_namelessFirst_of_none isElected)
    | some node =>
      rw [leaderAgrees_setLeader wellFormed agrees, namelessFirst_iff isElected,
        and_iff_left_of_imp]
      intro empty
      have found := getNode_of_elected wellFormed isElected
      rw [empty] at found
      obtain ⟨address, atAddress, -⟩ := Option.bind_eq_some_iff.mp found
      rw [atAddress]
      rfl
  | checkStaleNodes now =>
    exact iff_of_true ((leaderAgrees_check _ _ wellFormed).mpr agrees) trivial
  | setLeader nodeId => exact leaderAgrees_setLeader wellFormed agrees nodeId
  | resume index =>
    refine iff_of_true ?_ trivial
    have preserved : ∀ topology work, topology.WellFormed ∧ topology.LeaderAgrees → True →
        ((next topology work).1.WellFormed ∧ (next topology work).1.LeaderAgrees) ∧ True :=
      fun topology work both _ =>
        ⟨⟨wellFormed_next work both.1, leaderAgrees_next work both.1 both.2⟩, trivial⟩
    exact (Pool.resume_invariant preserved index ⟨⟨wellFormed, agrees⟩, fun _ _ => trivial⟩).1.2

/-- The leader of the topology is the one node with the role of a leader, in every state of a
run, exactly if nobody with the empty id ever becomes the leader. -/
theorem leader_agrees_iff_named (localNodeId host : String) (port : Nat) (now : Timestamp)
    (actions : List Action) : Always step (fun federation => federation.store.LeaderAgrees)
        (construct localNodeId host port now) actions ↔
      Along step Named (construct localNodeId host port now) actions := by
  apply always_iff_along fun federation => federation.store.WellFormed
  · exact fun federation action wellFormed _ _ => wellFormed_step federation action wellFormed
  · exact fun federation action wellFormed agrees =>
      leaderAgrees_step federation action wellFormed agrees
  · exact wellFormed_construct localNodeId host port now
  · exact leaderAgrees_construct localNodeId host port now

/-- A node with the empty id joins, becomes active and is elected. -/
theorem nameless_leader :
    let federation := run step (construct "local" "127.0.0.1" 8000 0)
      [.addRemoteNode "" 0, .updateNodeHeartbeat "" 0 {}, .electLeader []]
    federation.store.leaderId = "" ∧ federation.store.leaders = [""] ∧
      ¬ federation.store.LeaderAgrees := by
  decide +kernel

end Federation

end AgenticOS.Cluster
