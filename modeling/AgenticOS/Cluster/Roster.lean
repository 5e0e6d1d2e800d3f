import AgenticOS.Cluster.Topology

/-!
# The nodes of a topology by their ids

The heap and the table of a topology together say which node is known under which id. This
file says what each operation does to that, so that the proofs about a topology need not
follow the addresses.
-/

namespace AgenticOS.Cluster

open Transition List Dict Option

namespace ClusterTopology

/-- Every id of the table stands for an object with that id, and no two for one object. -/
structure WellFormed (topology : ClusterTopology) : Prop where
  named : ∀ id address, topology.nodes.get? id = some address →
    ∃ node, topology.objects[address]? = some node ∧ node.id = id
  apart : ∀ id other address, topology.nodes.get? id = some address →
    topology.nodes.get? other = some address → id = other

variable {topology : ClusterTopology}

theorem wellFormed_empty : WellFormed {} where
  named _ _ found := by cases found
  apart _ _ _ found := by cases found

variable {id : String} {address : Nat}

theorem getNode_of_get? (found : topology.nodes.get? id = some address) :
    topology.getNode id = topology.objects[address]? := by
  unfold getNode
  rw [found, bind_some]

theorem getNode_of_none (absent : topology.nodes.get? id = none) : topology.getNode id = none := by
  unfold getNode
  rw [absent]
  rfl

theorem getNode_eq_none_iff (wellFormed : topology.WellFormed) :
    topology.getNode id = none ↔ topology.nodes.get? id = none := by
  cases found : topology.nodes.get? id with
  | none => exact iff_of_true (getNode_of_none found) rfl
  | some address =>
    obtain ⟨node, present, -⟩ := wellFormed.named id address found
    simp [getNode_of_get? found, present]

theorem id_of_getNode (wellFormed : topology.WellFormed) {node : NodeInfo}
    (found : topology.getNode id = some node) : node.id = id := by
  obtain ⟨address, atAddress, present⟩ := bind_eq_some_iff.mp found
  obtain ⟨same, samePresent, named⟩ := wellFormed.named id address atAddress
  rw [present] at samePresent
  cases samePresent
  exact named

theorem listNodes_eq : topology.listNodes = topology.nodes.keys.filterMap topology.getNode := by
  unfold listNodes Dict.values Dict.keys
  rw [filterMap_map, filterMap_map]
  apply filterMap_congr
  rintro ⟨id, address⟩ member
  exact (getNode_of_get? (get?_eq_some_iff.mpr member)).symm

theorem mem_listNodes (wellFormed : topology.WellFormed) {node : NodeInfo} :
    node ∈ topology.listNodes ↔ topology.getNode node.id = some node := by
  rw [listNodes_eq, mem_filterMap]
  constructor
  · rintro ⟨id, -, found⟩
    rw [id_of_getNode wellFormed found]
    exact found
  · intro found
    obtain ⟨address, atAddress, -⟩ := bind_eq_some_iff.mp found
    exact ⟨node.id, mem_keys_iff.mpr ⟨address, atAddress⟩, found⟩

theorem getNode_isSome_of_mem_keys (wellFormed : topology.WellFormed)
    (member : id ∈ topology.nodes.keys) : ∃ node, topology.getNode id = some node := by
  obtain ⟨address, found⟩ := mem_keys_iff.mp member
  obtain ⟨node, present, -⟩ := wellFormed.named id address found
  exact ⟨node, (getNode_of_get? found).trans present⟩

/-- The node that stands in the table after one has been added. -/
def settled (topology : ClusterTopology) (node : NodeInfo) : NodeInfo :=
  match topology.getNode node.id with
  | none => node
  | some existing => merged existing node

variable (node : NodeInfo)

theorem settled_id : (topology.settled node).id = node.id := by
  unfold settled
  split <;> rfl

theorem addNode_eq :
    topology.addNode node =
      { topology with
        objects := topology.objects ++ [topology.settled node]
        nodes := topology.nodes.set node.id topology.objects.length } := by
  change
    { topology with
      objects := topology.objects ++ [topology.settled node]
      nodes := topology.nodes.set (topology.settled node).id topology.objects.length } = _
  rw [settled_id]

section

variable (wellFormed : topology.WellFormed)
include wellFormed

theorem WellFormed.inside (found : topology.nodes.get? id = some address) :
    address < topology.objects.length := by
  obtain ⟨node, present, -⟩ := wellFormed.named id address found
  exact (List.getElem?_eq_some_iff.mp present).1

theorem WellFormed.addNode (node : NodeInfo) : (topology.addNode node).WellFormed := by
  rw [addNode_eq]
  constructor
  · intro id address found
    rw [get?_set] at found
    split at found
    · rename_i same
      cases found
      exact ⟨topology.settled node, getElem?_concat_length, (settled_id node).trans same.symm⟩
    · obtain ⟨old, present, named⟩ := wellFormed.named id address found
      exact ⟨old, (getElem?_append_left (wellFormed.inside found)).trans present, named⟩
  · intro id other address found foundOther
    rw [get?_set] at found foundOther
    split at found <;> split at foundOther
    · rename_i same sameOther
      exact same.trans sameOther.symm
    · cases found
      exact absurd (wellFormed.inside foundOther) (Nat.lt_irrefl _)
    · cases foundOther
      exact absurd (wellFormed.inside found) (Nat.lt_irrefl _)
    · exact wellFormed.apart id other address found foundOther

theorem getNode_addNode (node : NodeInfo) (id : String) : (topology.addNode node).getNode id =
      if id = node.id then some (topology.settled node) else topology.getNode id := by
  rw [addNode_eq]
  unfold getNode
  rw [get?_set]
  split
  · exact getElem?_concat_length
  · cases found : topology.nodes.get? id with
    | none => rfl
    | some address => exact getElem?_append_left (wellFormed.inside found)

end

theorem leaderId_addNode : (topology.addNode node).leaderId = topology.leaderId := by
  rw [addNode_eq]

theorem WellFormed.removeNode (wellFormed : topology.WellFormed) (id : String) :
    (topology.removeNode id).WellFormed := by
  unfold ClusterTopology.removeNode
  cases topology.nodes.get? id with
  | none => exact wellFormed
  | some _ =>
    constructor
    · intro other address found
      exact wellFormed.named other address (get?_of_get?_erase found)
    · intro other another address found foundOther
      exact wellFormed.apart other another address (get?_of_get?_erase found)
        (get?_of_get?_erase foundOther)

theorem getNode_removeNode (id other : String) : (topology.removeNode id).getNode other =
      if other = id then none else topology.getNode other := by
  unfold removeNode
  cases found : topology.nodes.get? id with
  | none =>
    by_cases same : other = id
    · rw [if_pos same, same]
      exact getNode_of_none found
    · rw [if_neg same]
  | some _ =>
    unfold getNode
    rw [get?_erase]
    split <;> rfl

theorem getElem?_modifyAt (address position : Nat) (change : NodeInfo → NodeInfo) :
    (topology.modifyAt address change).objects[position]? =
      if address = position then topology.objects[position]?.map change
      else topology.objects[position]? := by
  unfold modifyAt
  rw [getElem?_modify]
  split <;> simp

theorem WellFormed.modifyNode (wellFormed : topology.WellFormed) (id : String)
    {change : NodeInfo → NodeInfo} (keeps : ∀ node, (change node).id = node.id) :
    (topology.modifyNode id change).WellFormed := by
  unfold ClusterTopology.modifyNode
  cases topology.nodes.get? id with
  | none => exact wellFormed
  | some address =>
    constructor
    · intro other position found
      obtain ⟨node, present, named⟩ := wellFormed.named other position found
      rw [getElem?_modifyAt, present]
      split
      · exact ⟨change node, rfl, (keeps node).trans named⟩
      · exact ⟨node, rfl, named⟩
    · exact wellFormed.apart

theorem getNode_modifyNode (wellFormed : topology.WellFormed) (id other : String)
    (change : NodeInfo → NodeInfo) : (topology.modifyNode id change).getNode other =
      if other = id then (topology.getNode other).map change else topology.getNode other := by
  unfold modifyNode
  cases found : topology.nodes.get? id with
  | none =>
    by_cases same : other = id
    · rw [if_pos same, same, getNode_of_none found]
      rfl
    · rw [if_neg same]
  | some address =>
    cases foundOther : topology.nodes.get? other with
    | none =>
      have unknown : (topology.modifyAt address change).getNode other = none :=
        getNode_of_none foundOther
      rw [unknown, getNode_of_none foundOther]
      split <;> rfl
    | some position =>
      have changed : (topology.modifyAt address change).getNode other =
          (topology.modifyAt address change).objects[position]? :=
        getNode_of_get? foundOther
      rw [changed, getElem?_modifyAt, getNode_of_get? foundOther]
      by_cases same : other = id
      · subst same
        rw [found] at foundOther
        cases foundOther
        rw [if_pos rfl, if_pos rfl]
      · have elsewhere : address ≠ position := by
          rintro rfl
          exact same (wellFormed.apart other id address foundOther found)
        rw [if_neg same, if_neg elsewhere]

theorem leaderId_modifyNode (id : String) (change : NodeInfo → NodeInfo) :
    (topology.modifyNode id change).leaderId = topology.leaderId := by
  unfold modifyNode modifyAt
  split <;> rfl

/-! ## A node becomes the leader -/

def promoted (leader id : String) (node : NodeInfo) : NodeInfo :=
  if id = leader then { node with role := .leader } else demote node

theorem demote_id : (demote node).id = node.id := by
  unfold demote
  split <;> rfl

theorem promoted_id (leader id : String) (node : NodeInfo) :
    (promoted leader id node).id = node.id := by
  unfold promoted
  split
  · rfl
  · exact demote_id node

theorem demote_then_promote :
    ({ demote node with role := .leader } : NodeInfo) = { node with role := .leader } := by
  unfold demote
  split <;> rfl

theorem setLeader_absent (absent : topology.nodes.get? id = none) :
    topology.setLeader id = topology := by
  unfold setLeader
  rw [absent]

theorem nodes_setLeader (id : String) : (topology.setLeader id).nodes = topology.nodes := by
  unfold setLeader
  split <;> rfl

theorem leaderId_setLeader (present : topology.nodes.get? id = some address) :
    (topology.setLeader id).leaderId = id := by
  unfold setLeader
  rw [present]

theorem getNode_setLeader (wellFormed : topology.WellFormed) {leader : String}
    (present : topology.nodes.get? leader = some address) (id : String) :
    (topology.setLeader leader).getNode id = (topology.getNode id).map (promoted leader id) := by
  cases found : topology.nodes.get? id with
  | none =>
    have unknown : (topology.setLeader leader).getNode id = none :=
      getNode_of_none (by rw [nodes_setLeader, found])
    rw [unknown, getNode_of_none found]
    rfl
  | some position =>
    have listed : position ∈ topology.nodes.values :=
      mem_map.mpr ⟨(id, position), get?_eq_some_iff.mp found, rfl⟩
    obtain ⟨node, atPosition, -⟩ := wellFormed.named id position found
    have foundAfter : (topology.setLeader leader).nodes.get? id = some position := by
      rw [nodes_setLeader]
      exact found
    rw [getNode_of_get? foundAfter, getNode_of_get? found, atPosition, map_some]
    unfold setLeader
    rw [present]
    rw [getElem?_modify, getElem?_mapIdx, atPosition, map_some, if_pos listed]
    unfold promoted
    by_cases same : id = leader
    · subst same
      rw [present] at found
      cases found
      simp [demote_then_promote]
    · have elsewhere : address ≠ position := by
        rintro rfl
        exact same (wellFormed.apart id leader address found present)
      simp [same, elsewhere]

theorem WellFormed.setLeader (wellFormed : topology.WellFormed) (leader : String) :
    (topology.setLeader leader).WellFormed := by
  cases present : topology.nodes.get? leader with
  | none =>
    rw [setLeader_absent present]
    exact wellFormed
  | some address =>
    constructor
    · intro id position found
      have foundBefore := found
      rw [nodes_setLeader] at foundBefore
      obtain ⟨node, atPosition, named⟩ := wellFormed.named id position foundBefore
      refine ⟨promoted leader id node, ?_, (promoted_id leader id node).trans named⟩
      rw [← getNode_of_get? found, getNode_setLeader wellFormed present,
        getNode_of_get? foundBefore, atPosition, map_some]
    · intro id other position found foundOther
      rw [nodes_setLeader] at found foundOther
      exact wellFormed.apart id other position found foundOther

variable (now : Timestamp) (metrics : HeartbeatMetrics) (node : NodeInfo)

theorem beat_id : (node.beat now metrics).id = node.id := by
  unfold NodeInfo.beat
  dsimp only
  split
  · rfl
  · split <;> rfl

theorem beat_role : (node.beat now metrics).role = node.role := by
  unfold NodeInfo.beat
  dsimp only
  split
  · rfl
  · split <;> rfl

theorem WellFormed.markNodeStatus (wellFormed : topology.WellFormed) (id : String)
    (status : NodeStatus) : (topology.markNodeStatus id status).WellFormed :=
  wellFormed.modifyNode id fun _ => rfl

end ClusterTopology

namespace Federation

open ClusterTopology

theorem wellFormed_construct (localNodeId host : String) (port : Nat) (now : Timestamp) :
    (construct localNodeId host port now).store.WellFormed :=
  (wellFormed_empty.addNode _).setLeader _

theorem wellFormed_check (cutoff : Timestamp) (remaining : List Nat) {topology : ClusterTopology}
    (wellFormed : topology.WellFormed) : (check topology cutoff remaining).1.WellFormed := by
  induction remaining with
  | nil => exact wellFormed
  | cons address remaining ih =>
    unfold check
    split
    · exact ih
    · split
      · exact wellFormed.markNodeStatus _ _
      · exact ih

theorem wellFormed_next (work : Work) {topology : ClusterTopology}
    (wellFormed : topology.WellFormed) : (next topology work).1.WellFormed := by
  cases work with
  | leaving nodeId => exact wellFormed.removeNode nodeId
  | checking cutoff remaining => exact wellFormed_check cutoff remaining wellFormed
  | done => exact wellFormed

theorem wellFormed_step (federation : Federation) (action : Action)
    (wellFormed : federation.store.WellFormed) : (step federation action).store.WellFormed := by
  cases action with
  | addRemoteNode nodeId now => exact wellFormed.addNode _
  | removeNode nodeId =>
    unfold step
    dsimp only
    split
    · exact wellFormed
    · exact wellFormed.markNodeStatus nodeId .left
  | updateNodeHeartbeat nodeId now metrics =>
    exact wellFormed.modifyNode nodeId (beat_id now metrics)
  | electLeader candidates =>
    unfold step
    dsimp only
    split
    · exact wellFormed
    · exact wellFormed.setLeader _
  | checkStaleNodes now => exact wellFormed_check _ _ wellFormed
  | setLeader nodeId => exact wellFormed.setLeader nodeId
  | resume index =>
    have preserved : ∀ topology work, topology.WellFormed → True →
        (next topology work).1.WellFormed ∧ True :=
      fun topology work holds _ => ⟨wellFormed_next work holds, trivial⟩
    exact (Pool.resume_invariant preserved index ⟨wellFormed, fun _ _ => trivial⟩).1

end Federation

/-!
## The quorum of the two sides of a partition

The quorum of a topology is a majority of the nodes that it takes to be active or degraded. A
node that has become unreachable no longer counts, on either side of a partition; so each
side is a quorum by itself.
-/

namespace ClusterTopology

/-- A side of a partition takes its own nodes for active, the others not. -/
structure Separated (topology : ClusterTopology) (own others : List String) : Prop where
  members : topology.nodes.keys.Perm (own ++ others)
  active : ∀ id ∈ own, (topology.getNode id).map NodeInfo.status = some .active
  unreachable : ∀ id ∈ others, (topology.getNode id).map NodeInfo.status = some .unreachable

variable {topology : ClusterTopology} {own others : List String}

def eligible (topology : ClusterTopology) (id : String) : Bool :=
  (topology.getNode id).any fun node => node.status ∈ [NodeStatus.active, .degraded]

theorem quorumSize_eq :
    topology.quorumSize = topology.nodes.keys.countP topology.eligible / 2 + 1 := by
  unfold quorumSize
  rw [listNodes_eq, List.countP_filterMap]
  congr 2
  apply List.countP_congr
  intro id _
  unfold eligible
  cases topology.getNode id <;> simp

section

variable (separated : topology.Separated own others)
include separated

theorem Separated.eligible_own {id : String} (member : id ∈ own) : topology.eligible id := by
  obtain ⟨node, found, status⟩ := map_eq_some_iff.mp (separated.active id member)
  unfold eligible
  rw [found]
  simp [status]

theorem Separated.not_eligible_others {id : String} (member : id ∈ others) :
    ¬ topology.eligible id := by
  obtain ⟨node, found, status⟩ := map_eq_some_iff.mp (separated.unreachable id member)
  unfold eligible
  rw [found]
  simp [status]

theorem Separated.quorumSize : topology.quorumSize = own.length / 2 + 1 := by
  have ownCount : own.countP topology.eligible = own.length :=
    List.countP_eq_length.mpr fun _ member => separated.eligible_own member
  have othersCount : others.countP topology.eligible = 0 :=
    List.countP_eq_zero.mpr fun _ member => separated.not_eligible_others member
  rw [quorumSize_eq, separated.members.countP_eq, List.countP_append, ownCount, othersCount]
  rfl

theorem Separated.hasQuorum (nonempty : own ≠ []) : topology.hasQuorum own.length = true := by
  have positive : 0 < own.length := List.length_pos_iff.mpr nonempty
  unfold ClusterTopology.hasQuorum
  rw [separated.quorumSize, decide_eq_true_iff]
  omega

end

/-- Both sides of a partition have their quorum, each a majority of its own nodes. -/
theorem both_sides_have_quorum {first second : ClusterTopology}
    (firstNonempty : own ≠ []) (secondNonempty : others ≠ [])
    (onFirst : first.Separated own others) (onSecond : second.Separated others own) :
    (first.quorumSize = own.length / 2 + 1 ∧ first.hasQuorum own.length = true) ∧
      second.quorumSize = others.length / 2 + 1 ∧ second.hasQuorum others.length = true :=
  ⟨⟨onFirst.quorumSize, onFirst.hasQuorum firstNonempty⟩,
    onSecond.quorumSize, onSecond.hasQuorum secondNonempty⟩

end ClusterTopology

namespace Federation

open ClusterTopology

/-- A node that has seen one other node, and then nothing for a hundred seconds. -/
def alone (localNodeId remoteNodeId : String) : Federation :=
  run step (construct localNodeId "127.0.0.1" 8000 0)
    [.addRemoteNode remoteNodeId 0, .updateNodeHeartbeat remoteNodeId 0 {}, .checkStaleNodes 100,
      .resume 0]

theorem alone_separated :
    ((alone "a" "b").store.Separated ["a"] ["b"] ∧ (alone "b" "a").store.Separated ["b"] ["a"]) ∧
      (alone "a" "b").processes = [.done] ∧ (alone "b" "a").processes = [.done] := by
  refine ⟨⟨⟨?_, ?_, ?_⟩, ⟨?_, ?_, ?_⟩⟩, ?_, ?_⟩ <;> decide +kernel

/-- Both halves of a cluster of two have a quorum. -/
theorem halves_have_quorum :
    ((alone "a" "b").store.Separated ["a"] ["b"] ∧ (alone "b" "a").store.Separated ["b"] ["a"]) ∧
      (alone "a" "b").store.hasQuorum ["a"].length = true ∧
      (alone "b" "a").store.hasQuorum ["b"].length = true :=
  ⟨alone_separated.1, by decide +kernel, by decide +kernel⟩

end Federation

/-- The halves of a cluster of two, each with its quorum of one. -/
theorem both_sides_have_quorum_of_two :
    ((Federation.alone "a" "b").store.quorumSize = ["a"].length / 2 + 1 ∧
        (Federation.alone "a" "b").store.hasQuorum ["a"].length = true) ∧
      (Federation.alone "b" "a").store.quorumSize = ["b"].length / 2 + 1 ∧
        (Federation.alone "b" "a").store.hasQuorum ["b"].length = true :=
  ClusterTopology.both_sides_have_quorum (by simp) (by simp) Federation.alone_separated.1.1
    Federation.alone_separated.1.2

end AgenticOS.Cluster
