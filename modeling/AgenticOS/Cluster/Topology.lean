import AgenticOS.Data.Clock
import AgenticOS.Data.Dict
import Mathlib.Data.List.Sort
import AgenticOS.Transition.Pool
import AgenticOS.Transition.Run

/-!
# The topology of a cluster

The topology knows the nodes of the cluster by their ids, and which of them leads. Who has
got a node keeps hold of it as an object: it sees what is done to the node later, but not a
node that takes its place. So the nodes are held in a heap, and the table names them by their
addresses.

The connections between the nodes and the count of the updates are left out.
-/

namespace AgenticOS.Cluster

inductive NodeStatus where
  | joining
  | active
  | degraded
  | unreachable
  | leaving
  | left
deriving DecidableEq

inductive NodeRole where
  | follower
  | candidate
  | leader
  | observer
deriving DecidableEq

/-- A node. The time stamps are those of the node that keeps the record. -/
structure NodeInfo where
  id : String
  status : NodeStatus := .joining
  role : NodeRole := .follower
  isLocal : Bool := false
  startedAt : Timestamp
  lastHeartbeat : Timestamp
  brainCount : Int := 0
  capabilityCount : Int := 0
  activeMissions : Int := 0
  cpuUsage : ℚ := 0
  memoryUsage : ℚ := 0
  diskUsage : ℚ := 0
  networkLatencyMs : ℚ := 0
  bandwidthMbps : ℚ := 0
  healthScore : ℚ := 100
  issues : List String := []

structure HeartbeatMetrics where
  brainCount : Option Int := none
  capabilityCount : Option Int := none
  activeMissions : Option Int := none
  cpuUsage : Option ℚ := none
  memoryUsage : Option ℚ := none
  diskUsage : Option ℚ := none
  networkLatencyMs : Option ℚ := none
  bandwidthMbps : Option ℚ := none
  healthScore : Option ℚ := none
  issues : Option (List String) := none

def NodeInfo.beat (now : Timestamp) (metrics : HeartbeatMetrics) (node : NodeInfo) : NodeInfo :=
  let node :=
    { node with
      lastHeartbeat := now
      brainCount := metrics.brainCount.getD node.brainCount
      capabilityCount := metrics.capabilityCount.getD node.capabilityCount
      activeMissions := metrics.activeMissions.getD node.activeMissions
      cpuUsage := metrics.cpuUsage.getD node.cpuUsage
      memoryUsage := metrics.memoryUsage.getD node.memoryUsage
      diskUsage := metrics.diskUsage.getD node.diskUsage
      networkLatencyMs := metrics.networkLatencyMs.getD node.networkLatencyMs
      bandwidthMbps := metrics.bandwidthMbps.getD node.bandwidthMbps
      healthScore := metrics.healthScore.getD node.healthScore
      issues := metrics.issues.getD node.issues }
  if node.status = .joining ∧ 50 ≤ node.healthScore then { node with status := .active }
  else if node.status = .active ∧ node.healthScore < 50 then { node with status := .degraded }
  else node

structure ClusterTopology where
  objects : List NodeInfo := []
  nodes : Dict String Nat := .empty
  leaderId : String := ""

namespace ClusterTopology

variable (topology : ClusterTopology)

def getNode (id : String) : Option NodeInfo :=
  (topology.nodes.get? id).bind fun address => topology.objects[address]?

def listNodes : List NodeInfo :=
  topology.nodes.values.filterMap fun address => topology.objects[address]?

/-- `list_nodes`, of one status. -/
def listNodesOf (status : NodeStatus) : List NodeInfo :=
  topology.listNodes.filter fun node => node.status = status

def quorumSize : Nat :=
  topology.listNodes.countP (fun node => node.status ∈ [NodeStatus.active, .degraded]) / 2 + 1

def hasQuorum (voterCount : Nat) : Bool :=
  topology.quorumSize ≤ voterCount

def modifyAt (address : Nat) (change : NodeInfo → NodeInfo) : ClusterTopology :=
  { topology with objects := topology.objects.modify address change }

def modifyNode (id : String) (change : NodeInfo → NodeInfo) : ClusterTopology :=
  match topology.nodes.get? id with
  | none => topology
  | some address => topology.modifyAt address change

/-- What a node that is added takes over from the one it replaces. -/
def merged (existing node : NodeInfo) : NodeInfo :=
  { node with
    role := existing.role
    isLocal := existing.isLocal || node.isLocal
    startedAt := existing.startedAt }

def addNode (node : NodeInfo) : ClusterTopology :=
  let node :=
    match topology.getNode node.id with
    | none => node
    | some existing => merged existing node
  { topology with
    objects := topology.objects ++ [node]
    nodes := topology.nodes.set node.id topology.objects.length }

def removeNode (id : String) : ClusterTopology :=
  match topology.nodes.get? id with
  | none => topology
  | some _ =>
    { topology with
      nodes := topology.nodes.erase id
      leaderId := if topology.leaderId = id then "" else topology.leaderId }

/-- Take the leadership from a node. -/
def demote (node : NodeInfo) : NodeInfo :=
  if node.role = .leader then { node with role := .follower } else node

def setLeader (id : String) : ClusterTopology :=
  match topology.nodes.get? id with
  | none => topology
  | some address =>
    let demoted := topology.objects.mapIdx fun address node =>
      if address ∈ topology.nodes.values then demote node else node
    { topology with
      objects := demoted.modify address fun node => { node with role := .leader }
      leaderId := id }

def markNodeStatus (id : String) (status : NodeStatus) : ClusterTopology :=
  topology.modifyNode id fun node => { node with status := status }

def updateHeartbeat (id : String) (now : Timestamp) (metrics : HeartbeatMetrics) :
    ClusterTopology :=
  topology.modifyNode id (NodeInfo.beat now metrics)

end ClusterTopology

/-!
## The federation manager

The manager keeps the topology of one node of the cluster. What it does between two
publications of an event is one step. Only the removal of a node and the check for stale
nodes go on behind a publication; other operations come in between.
-/

open Transition

/-- How far a removal or a check has come. The check holds the nodes it has listed at its
beginning. -/
inductive Work where
  | leaving (nodeId : String)
  | checking (cutoff : Timestamp) (remaining : List Nat)
  | done
deriving DecidableEq

/-- A topology, and the operations that wait for a publication. -/
abbrev Federation := Pool ClusterTopology Work

namespace Federation

/-- How long a node may be silent. -/
def staleTimeout : ℚ := 90

def construct (localNodeId host : String) (port : Nat) (now : Timestamp) : Federation :=
  let id := if localNodeId = "" then "node-" ++ host ++ "-" ++ toString port else localNodeId
  let localNode : NodeInfo :=
    { id := id
      status := .active
      role := .leader
      isLocal := true
      startedAt := now
      lastHeartbeat := now }
  { store := (ClusterTopology.addNode {} localNode).setLeader id
    processes := [] }

/-- A node is stale if it is remote and has been silent since the cutoff. -/
def stale (cutoff : Timestamp) (node : NodeInfo) : Bool :=
  !node.isLocal && node.lastHeartbeat < cutoff && node.status != .unreachable

/-- `_check_stale_nodes`, up to the next publication. -/
def check (topology : ClusterTopology) (cutoff : Timestamp) :
    List Nat → ClusterTopology × Work
  | [] => (topology, .done)
  | address :: remaining =>
    match topology.objects[address]? with
    | none => check topology cutoff remaining
    | some node =>
      if stale cutoff node then
        (topology.markNodeStatus node.id .unreachable, .checking cutoff remaining)
      else check topology cutoff remaining

/-- An operation goes on behind a publication. -/
def next (topology : ClusterTopology) : Work → ClusterTopology × Work
  | .leaving nodeId => (topology.removeNode nodeId, .done)
  | .checking cutoff remaining => check topology cutoff remaining
  | .done => (topology, .done)

/-- The order of the candidates: the healthiest first, then the one with most brains, then by
id. -/
def Precedes (first second : NodeInfo) : Prop :=
  second.healthScore < first.healthScore ∨
    first.healthScore = second.healthScore ∧
      (second.brainCount < first.brainCount ∨
        first.brainCount = second.brainCount ∧ first.id ≤ second.id)
deriving Decidable

/-- Among whom `elect_leader` chooses. -/
def electable (topology : ClusterTopology) (candidates : List String) : List NodeInfo :=
  let active := topology.listNodesOf .active
  if candidates = [] then active else active.filter fun node => node.id ∈ candidates

/-- Whom `elect_leader` makes the leader. -/
def elected (topology : ClusterTopology) (candidates : List String) : Option NodeInfo :=
  ((electable topology candidates).insertionSort Precedes).head?

/-- What is done at a federation manager or its topology. -/
inductive Action where
  | addRemoteNode (nodeId : String) (now : Timestamp)
  | removeNode (nodeId : String)
  | updateNodeHeartbeat (nodeId : String) (now : Timestamp) (metrics : HeartbeatMetrics)
  | electLeader (candidates : List String)
  | checkStaleNodes (now : Timestamp)
  | setLeader (nodeId : String)
  | resume (index : Nat)

/-- One step, up to the next publication. -/
def step (federation : Federation) : Action → Federation
  | .addRemoteNode nodeId now =>
    let node : NodeInfo :=
      { id := nodeId
        startedAt := now
        lastHeartbeat := now }
    { federation with store := federation.store.addNode node }
  | .removeNode nodeId =>
    match federation.store.getNode nodeId with
    | none => federation
    | some _ => federation.spawn (federation.store.markNodeStatus nodeId .left) (.leaving nodeId)
  | .updateNodeHeartbeat nodeId now metrics =>
    { federation with store := federation.store.updateHeartbeat nodeId now metrics }
  | .electLeader candidates =>
    match elected federation.store candidates with
    | none => federation
    | some node => { federation with store := federation.store.setLeader node.id }
  | .checkStaleNodes now =>
    let (topology, work) :=
      check federation.store (now - staleTimeout) federation.store.nodes.values
    federation.spawn topology work
  | .setLeader nodeId => { federation with store := federation.store.setLeader nodeId }
  | .resume index => Pool.resume next federation index

end Federation

end AgenticOS.Cluster
