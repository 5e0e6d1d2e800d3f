import AgenticOS.Data.Clock
import AgenticOS.Data.Dict
import AgenticOS.Data.SetOrder
import AgenticOS.Transition.Run
import Mathlib.Data.String.Basic

/-!
# The registry of remote brains

The registry keeps the brains of other nodes under keys that are made of the id of the node and
the id of the brain, and for every node the keys of its brains. What it is for is a map by
pairs of ids, which is stated beside it.

The publication of events and the metadata of a brain are left out; every operation is one
step.
-/

namespace AgenticOS.Cluster

structure RemoteBrainRecord where
  brainId : String
  nodeId : String
  displayName : String := ""
  provider : String := ""
  host : String := ""
  capabilities : List String := []
  health : ℚ := 100
  latency : ℚ := 0
  availability : ℚ := 1
  version : String := "1.0.0"
  lastSynced : Timestamp
deriving DecidableEq

structure BrainUpdate where
  health : Option ℚ := none
  latency : Option ℚ := none
  availability : Option ℚ := none
  capabilities : Option (List String) := none

def BrainUpdate.apply (update : BrainUpdate) (now : Timestamp) (record : RemoteBrainRecord) :
    RemoteBrainRecord :=
  { record with
    health := update.health.getD record.health
    latency := update.latency.getD record.latency
    availability := update.availability.getD record.availability
    capabilities := update.capabilities.getD record.capabilities
    lastSynced := now }

structure DistributedBrainRegistry where
  remote : Dict String RemoteBrainRecord := .empty
  byNode : Dict String (Finset String) := .empty
  syncCount : Nat := 0

namespace DistributedBrainRegistry

def keyOf (nodeId brainId : String) : String :=
  nodeId ++ ":" ++ brainId

variable (registry : DistributedBrainRegistry)

def getRemoteBrain (brainId nodeId : String) : Option RemoteBrainRecord :=
  registry.remote.get? (keyOf nodeId brainId)

def listRemoteBrains (nodeId : String) : List RemoteBrainRecord :=
  registry.remote.values.filter fun record => record.nodeId = nodeId

def indexed (nodeId : String) : Finset String :=
  (registry.byNode.get? nodeId).getD ∅

def addRemoteBrain (record : RemoteBrainRecord) : DistributedBrainRegistry :=
  let key := keyOf record.nodeId record.brainId
  { remote := registry.remote.set key record
    byNode := registry.byNode.set record.nodeId (insert key (registry.indexed record.nodeId))
    syncCount := registry.syncCount + 1 }

/-- Take a key from the index of a node; a node without keys leaves the index. -/
def unindex (nodeId key : String) : Dict String (Finset String) :=
  match registry.byNode.get? nodeId with
  | none => registry.byNode
  | some keys =>
    if keys.erase key = ∅ then registry.byNode.erase nodeId
    else registry.byNode.set nodeId (keys.erase key)

def removeRemoteBrain (brainId nodeId : String) : DistributedBrainRegistry × Bool :=
  let key := keyOf nodeId brainId
  match registry.remote.get? key with
  | none => (registry, false)
  | some _ =>
    ({ remote := registry.remote.erase key
       byNode := registry.unindex nodeId key
       syncCount := registry.syncCount + 1 },
      true)

def removeAllForNode (order : SetOrder String) (nodeId : String) : DistributedBrainRegistry × Nat :=
  let keys := order.list (registry.indexed nodeId)
  let count := keys.countP fun key => (registry.remote.get? key).isSome
  ({ remote := keys.foldl Dict.erase registry.remote
     byNode := registry.byNode.erase nodeId
     syncCount := if 0 < count then registry.syncCount + 1 else registry.syncCount },
    count)

def updateRemoteBrain (brainId nodeId : String) (update : BrainUpdate) (now : Timestamp) :
    DistributedBrainRegistry × Option RemoteBrainRecord :=
  let key := keyOf nodeId brainId
  match registry.remote.get? key with
  | none => (registry, none)
  | some record =>
    ({ registry with
        remote := registry.remote.set key (update.apply now record)
        syncCount := registry.syncCount + 1 },
      some (update.apply now record))

/-- What is done at a registry. -/
inductive Action where
  | add (record : RemoteBrainRecord)
  | remove (brainId nodeId : String)
  | removeAll (order : SetOrder String) (nodeId : String)
  | update (brainId nodeId : String) (update : BrainUpdate) (now : Timestamp)

def step (registry : DistributedBrainRegistry) : Action → DistributedBrainRegistry
  | .add record => registry.addRemoteBrain record
  | .remove brainId nodeId => (registry.removeRemoteBrain brainId nodeId).1
  | .removeAll order nodeId => (registry.removeAllForNode order nodeId).1
  | .update brainId nodeId update now => (registry.updateRemoteBrain brainId nodeId update now).1

/-- The brains by node and brain: the last one added for this pair and not since removed, with
its updates. -/
abbrev PairMap := String → String → Option RemoteBrainRecord

def PairMap.step (brains : PairMap) : Action → PairMap
  | .add record => fun nodeId brainId =>
    if nodeId = record.nodeId ∧ brainId = record.brainId then some record
    else brains nodeId brainId
  | .remove brainId nodeId => fun otherNode otherBrain =>
    if otherNode = nodeId ∧ otherBrain = brainId then none else brains otherNode otherBrain
  | .removeAll _ nodeId => fun otherNode otherBrain =>
    if otherNode = nodeId then none else brains otherNode otherBrain
  | .update brainId nodeId update now => fun otherNode otherBrain =>
    if otherNode = nodeId ∧ otherBrain = brainId then
      (brains otherNode otherBrain).map (update.apply now)
    else brains otherNode otherBrain

/-- The registry is the map: its lookups are those of the map, and its index and its list of
every node are the brains of the node. -/
structure Represents (registry : DistributedBrainRegistry) (brains : PairMap) : Prop where
  lookup : ∀ nodeId brainId, registry.getRemoteBrain brainId nodeId = brains nodeId brainId
  index : ∀ nodeId key, key ∈ registry.indexed nodeId ↔
    ∃ brainId record, brains nodeId brainId = some record ∧ key = keyOf nodeId brainId
  list : ∀ nodeId record, record ∈ registry.listRemoteBrains nodeId ↔
    ∃ brainId, brains nodeId brainId = some record

end DistributedBrainRegistry

end AgenticOS.Cluster
