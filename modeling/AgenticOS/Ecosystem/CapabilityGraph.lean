import AgenticOS.Data.BreadthFirst
import AgenticOS.Data.Dict
import AgenticOS.Data.SetOrder
import AgenticOS.Transition.Run
import Mathlib.Data.String.Basic

/-!
# The capability graph

A directed graph of brains, capabilities, missions, goals and swarms. The edges are kept under
an id that is made of their ends and their type; the outgoing and the incoming neighbours of
the nodes are kept beside them.
-/

namespace AgenticOS.Ecosystem

inductive NodeType
  | brain | capability | mission | goal | swarm
  deriving DecidableEq

inductive EdgeType
  | provides | dependsOn | learned | shares | collaboratesWith | executed
  deriving DecidableEq

def EdgeType.value : EdgeType → String
  | provides => "provides"
  | dependsOn => "depends_on"
  | learned => "learned"
  | shares => "shares"
  | collaboratesWith => "collaborates_with"
  | executed => "executed"

structure GraphNode where
  id : String
  type : NodeType
  label : String := ""

structure GraphEdge where
  source : String
  target : String
  type : EdgeType
  deriving DecidableEq

def GraphEdge.edgeId (edge : GraphEdge) : String :=
  edge.source ++ "->" ++ edge.target ++ ":" ++ edge.type.value

/-- An adjacency table. A node without entry has no neighbours. -/
abbrev Adjacency := Dict String (Finset String)

namespace Adjacency

variable (table : Adjacency) (node other : String)

def of : Finset String :=
  (table.get? node).getD ∅

def add : Adjacency :=
  table.set node (insert other (of table node))

def discard : Adjacency :=
  table.set node ((of table node).erase other)

end Adjacency

structure CapabilityGraph where
  nodes : Dict String GraphNode := .empty
  edges : Dict String GraphEdge := .empty
  outgoing : Adjacency := .empty
  incoming : Adjacency := .empty
  updatesCount : Nat := 0

namespace CapabilityGraph

variable (graph : CapabilityGraph)

variable (nodeId : String)

def addNode (type : NodeType) (label : String) : GraphNode × CapabilityGraph :=
  let node :=
    match graph.nodes.get? nodeId with
    | some existing =>
      { existing with
        type := type
        label := if label = "" then existing.label else label }
    | none => { id := nodeId, type := type, label := if label = "" then nodeId else label }
  (node, { graph with
    nodes := graph.nodes.set nodeId node
    updatesCount := graph.updatesCount + 1 })

/-- One turn of the loop of `remove_node` over the edges. -/
def removeTouching (graph : CapabilityGraph) (entry : String × GraphEdge) : CapabilityGraph :=
  if entry.2.source = nodeId ∨ entry.2.target = nodeId then
    { graph with
      edges := graph.edges.erase entry.1
      outgoing := graph.outgoing.discard entry.2.source entry.2.target
      incoming := graph.incoming.discard entry.2.target entry.2.source }
  else graph

def removeNode : Bool × CapabilityGraph :=
  match graph.nodes.get? nodeId with
  | none => (false, graph)
  | some _ =>
    let removed := graph.edges.entries.foldl (removeTouching nodeId)
      { graph with nodes := graph.nodes.erase nodeId }
    (true, { removed with
      outgoing := removed.outgoing.erase nodeId
      incoming := removed.incoming.erase nodeId
      updatesCount := removed.updatesCount + 1 })

/-- The node of an edge, which is made where it is missing. -/
def ensureNode (type : NodeType) : CapabilityGraph :=
  match graph.nodes.get? nodeId with
  | some _ => graph
  | none => (graph.addNode nodeId type "").2

def addEdge (source target : String) (type : EdgeType) : GraphEdge × CapabilityGraph :=
  let ready := (graph.ensureNode source .brain).ensureNode target .capability
  let edge : GraphEdge := { source := source, target := target, type := type }
  (edge, { ready with
    edges := ready.edges.set edge.edgeId edge
    outgoing := ready.outgoing.add source target
    incoming := ready.incoming.add target source
    updatesCount := ready.updatesCount + 1 })

def removeEdge (source target : String) (type : EdgeType) : Bool × CapabilityGraph :=
  let edge : GraphEdge := { source := source, target := target, type := type }
  match graph.edges.get? edge.edgeId with
  | none => (false, graph)
  | some _ =>
    (true, { graph with
      edges := graph.edges.erase edge.edgeId
      outgoing := graph.outgoing.discard source target
      incoming := graph.incoming.discard target source
      updatesCount := graph.updatesCount + 1 })

def neighbors : List String :=
  SetOrder.sorted (graph.outgoing.of nodeId)

def reverseNeighbors : List String :=
  SetOrder.sorted (graph.incoming.of nodeId)

/-- `find_path`, with the orders in which the neighbours of each node are iterated. There is no
result if the fuel is spent, which suffices for all that is a neighbour of something. -/
def findPath (order : String → SetOrder String) (source target : String) (maxDepth : ℤ) :
    Option (List String) :=
  if graph.nodes.get? source = none ∨ graph.nodes.get? target = none then some []
  else if source = target then some [source]
  else
    BreadthFirst.search (fun node => (order node).list (graph.outgoing.of node)) target maxDepth
      (graph.outgoing.sumBy (fun _ targets => targets.card) + 1) {source} [(source, [source])]

inductive Action
  | addNode (nodeId : String) (type : NodeType) (label : String)
  | addEdge (source target : String) (type : EdgeType)
  | removeEdge (source target : String) (type : EdgeType)
  | removeNode (nodeId : String)
  | findPath (order : String → SetOrder String) (source target : String) (maxDepth : ℤ)

def step (graph : CapabilityGraph) : Action → CapabilityGraph
  | .addNode nodeId type label => (graph.addNode nodeId type label).2
  | .addEdge source target type => (graph.addEdge source target type).2
  | .removeEdge source target type => (graph.removeEdge source target type).2
  | .removeNode nodeId => (graph.removeNode nodeId).2
  | .findPath .. => graph

end CapabilityGraph

end AgenticOS.Ecosystem
