import AgenticOS.Ecosystem.CapabilityGraph

/-!
# Adjacency mirrors the edges

The neighbours of a node are the other ends of its stored edges, as long as no edge is removed
beside another one of the same ends, and no edge takes the id of an edge with other ends. Paths
are then shortest paths along the stored edges.
-/

namespace AgenticOS.Ecosystem

open Transition List Dict

section

variable (table : Adjacency) (node other first second : String)

theorem mem_of_add : second ∈ Adjacency.of (table.add node other) first ↔
      (first = node ∧ second = other) ∨ second ∈ table.of first := by
  unfold Adjacency.add Adjacency.of
  rw [get?_set]
  by_cases same : first = node
  · subst same
    simp
  · simp [same]

theorem mem_of_discard : second ∈ Adjacency.of (table.discard node other) first ↔
      second ∈ table.of first ∧ ¬ (first = node ∧ second = other) := by
  unfold Adjacency.discard Adjacency.of
  rw [get?_set]
  by_cases same : first = node
  · subst same
    simp [and_comm]
  · simp [same]

theorem mem_of_erase : second ∈ Adjacency.of (table.erase node) first ↔
      first ≠ node ∧ second ∈ table.of first := by
  unfold Adjacency.of
  rw [get?_erase]
  by_cases same : first = node
  · simp [same]
  · simp [same]

end

namespace CapabilityGraph

variable {graph : CapabilityGraph} {source target nodeId id : String} {type : EdgeType}

/-- A stored edge goes from one node to another. -/
def Joined (graph : CapabilityGraph) (source target : String) : Prop :=
  ∃ id edge, graph.edges.get? id = some edge ∧ edge.source = source ∧ edge.target = target

/-- A stored edge, other than the one with this id, goes from one node to another. -/
def JoinedBeside (graph : CapabilityGraph) (id source target : String) : Prop :=
  ∃ other edge, other ≠ id ∧ graph.edges.get? other = some edge ∧ edge.source = source ∧
    edge.target = target

/-- The neighbours are the ends of the stored edges, and these are stored nodes. -/
structure Mirror (graph : CapabilityGraph) : Prop where
  neighbors : ∀ source target, target ∈ graph.neighbors source ↔ graph.Joined source target
  reverseNeighbors : ∀ source target,
    source ∈ graph.reverseNeighbors target ↔ graph.Joined source target
  stored : ∀ id edge, graph.edges.get? id = some edge →
    (graph.nodes.get? edge.source).isSome ∧ (graph.nodes.get? edge.target).isSome

theorem mem_neighbors : target ∈ graph.neighbors source ↔ target ∈ graph.outgoing.of source :=
  SetOrder.mem_sorted

theorem mem_reverseNeighbors :
    source ∈ graph.reverseNeighbors target ↔ source ∈ graph.incoming.of target :=
  SetOrder.mem_sorted

theorem mirror_of
    (outgoing : ∀ source target, target ∈ graph.outgoing.of source ↔ graph.Joined source target)
    (incoming : ∀ source target, source ∈ graph.incoming.of target ↔ graph.Joined source target)
    (stored : ∀ id edge, graph.edges.get? id = some edge →
      (graph.nodes.get? edge.source).isSome ∧ (graph.nodes.get? edge.target).isSome) :
    Mirror graph :=
  ⟨fun source target => mem_neighbors.trans (outgoing source target),
    fun source target => mem_reverseNeighbors.trans (incoming source target), stored⟩

theorem Mirror.outgoing (mirror : Mirror graph) :
    target ∈ graph.outgoing.of source ↔ graph.Joined source target :=
  mem_neighbors.symm.trans (mirror.neighbors source target)

theorem Mirror.incoming (mirror : Mirror graph) :
    source ∈ graph.incoming.of target ↔ graph.Joined source target :=
  mem_reverseNeighbors.symm.trans (mirror.reverseNeighbors source target)

theorem joined_iff (id : String) : graph.Joined source target ↔
      (∃ old, graph.edges.get? id = some old ∧ old.source = source ∧ old.target = target) ∨
        graph.JoinedBeside id source target := by
  constructor
  · rintro ⟨other, edge, found, ends⟩
    by_cases same : other = id
    · exact .inl ⟨edge, same ▸ found, ends⟩
    · exact .inr ⟨other, edge, same, found, ends⟩
  · rintro (⟨old, found, ends⟩ | ⟨other, edge, -, found, ends⟩)
    · exact ⟨id, old, found, ends⟩
    · exact ⟨other, edge, found, ends⟩

theorem isSome_addNode (type : NodeType) (label other : String) :
    ((graph.addNode nodeId type label).2.nodes.get? other).isSome ↔
      other = nodeId ∨ (graph.nodes.get? other).isSome := by
  change ((graph.nodes.set nodeId _).get? other).isSome ↔ _
  rw [get?_set]
  split
  next same => simp [same]
  next distinct => simp [distinct]

theorem Mirror.addNode (mirror : Mirror graph) (nodeId : String) (type : NodeType)
    (label : String) : Mirror (graph.addNode nodeId type label).2 := by
  refine ⟨mirror.neighbors, mirror.reverseNeighbors, fun id edge found => ?_⟩
  obtain ⟨first, last⟩ := mirror.stored id edge found
  exact ⟨(isSome_addNode type label _).mpr (.inr first),
    (isSome_addNode type label _).mpr (.inr last)⟩

theorem Mirror.ensureNode (mirror : Mirror graph) (nodeId : String) (type : NodeType) :
    Mirror (graph.ensureNode nodeId type) := by
  unfold CapabilityGraph.ensureNode
  split
  next => exact mirror
  next => exact mirror.addNode nodeId type ""

theorem ensureNode_rest (nodeId : String) (type : NodeType) :
    (graph.ensureNode nodeId type).edges = graph.edges ∧
      ((graph.ensureNode nodeId type).nodes.get? nodeId).isSome ∧
      ∀ other, (graph.nodes.get? other).isSome →
        ((graph.ensureNode nodeId type).nodes.get? other).isSome := by
  unfold CapabilityGraph.ensureNode
  split
  next node found =>
    refine ⟨rfl, ?_, fun _ => id⟩
    rw [found]
    rfl
  next =>
    exact ⟨rfl, (isSome_addNode type "" _).mpr (.inl rfl),
      fun other present => (isSome_addNode type "" _).mpr (.inr present)⟩

def idOf (source target : String) (type : EdgeType) : String :=
  GraphEdge.edgeId ⟨source, target, type⟩

theorem joined_addEdge {first second : String} :
    (graph.addEdge source target type).2.Joined first second ↔
      (first = source ∧ second = target) ∨
        graph.JoinedBeside (idOf source target type) first second := by
  have edges : (graph.addEdge source target type).2.edges =
      graph.edges.set (idOf source target type) ⟨source, target, type⟩ := by
    unfold addEdge
    dsimp only
    rw [(ensureNode_rest target .capability).1, (ensureNode_rest source .brain).1]
    rfl
  rw [joined_iff (idOf source target type)]
  refine or_congr ?_ ?_
  · rw [edges, get?_set_self]
    constructor
    · rintro ⟨old, ⟨⟩, rfl, rfl⟩
      exact ⟨rfl, rfl⟩
    · rintro ⟨rfl, rfl⟩
      exact ⟨_, rfl, rfl, rfl⟩
  · unfold JoinedBeside
    rw [edges]
    refine exists_congr fun other => exists_congr fun edge => and_congr_right fun distinct => ?_
    rw [get?_set_ne _ distinct]

theorem stored_addEdge (mirror : Mirror graph) (id : String) (edge : GraphEdge)
    (found : (graph.addEdge source target type).2.edges.get? id = some edge) :
    ((graph.addEdge source target type).2.nodes.get? edge.source).isSome ∧
      ((graph.addEdge source target type).2.nodes.get? edge.target).isSome := by
  have ready := (mirror.ensureNode source .brain).ensureNode target .capability
  obtain ⟨-, sourceStored, -⟩ := @ensureNode_rest graph source .brain
  obtain ⟨-, targetStored, kept⟩ :=
    @ensureNode_rest (graph.ensureNode source .brain) target .capability
  change ((((graph.ensureNode source .brain).ensureNode target .capability).edges.set _
    _).get? id) = some edge at found
  rw [get?_set] at found
  split at found
  next =>
    cases found
    exact ⟨kept source sourceStored, targetStored⟩
  next => exact ready.stored id edge found

/-- A new edge keeps the mirror exactly if it takes the id of no edge with other ends, unless
these are joined by a further edge. -/
theorem mirror_addEdge_iff (mirror : Mirror graph) : Mirror (graph.addEdge source target type).2 ↔
      ∀ old, graph.edges.get? (idOf source target type) = some old →
        (old.source = source ∧ old.target = target) ∨
          graph.JoinedBeside (idOf source target type) old.source old.target := by
  have ready := (mirror.ensureNode source .brain).ensureNode target .capability
  have joined : ∀ first second, ((graph.ensureNode source .brain).ensureNode target
      .capability).Joined first second ↔ graph.Joined first second := by
    intro first second
    unfold Joined
    rw [(ensureNode_rest target .capability).1, (ensureNode_rest source .brain).1]
  have outgoing : ∀ first second,
      second ∈ (graph.addEdge source target type).2.outgoing.of first ↔
        (first = source ∧ second = target) ∨ graph.Joined first second := by
    intro first second
    refine (mem_of_add _ source target first second).trans (or_congr_right ?_)
    exact ready.outgoing.trans (joined first second)
  have incoming : ∀ first second,
      first ∈ (graph.addEdge source target type).2.incoming.of second ↔
        (first = source ∧ second = target) ∨ graph.Joined first second := by
    intro first second
    refine (mem_of_add _ target source second first).trans (or_congr and_comm ?_)
    exact ready.incoming.trans (joined first second)
  constructor
  · intro after old found
    have isJoined := (outgoing old.source old.target).mpr (.inr ⟨_, old, found, rfl, rfl⟩)
    exact joined_addEdge.mp (after.outgoing.mp isJoined)
  · intro apart
    have same : ∀ first second, ((first = source ∧ second = target) ∨
        graph.Joined first second) ↔ (graph.addEdge source target type).2.Joined first second := by
      intro first second
      rw [joined_addEdge, joined_iff (idOf source target type)]
      constructor
      · rintro (isNew | ⟨old, found, rfl, rfl⟩ | beside)
        · exact .inl isNew
        · exact apart old found
        · exact .inr beside
      · rintro (isNew | beside)
        · exact .inl isNew
        · exact .inr (.inr beside)
    exact mirror_of (fun first second => (outgoing first second).trans (same first second))
      (fun first second => (incoming first second).trans (same first second))
      (stored_addEdge mirror)

/-! ## Removing edges -/

theorem removeEdge_absent (absent : graph.edges.get? (idOf source target type) = none) :
    (graph.removeEdge source target type).2 = graph := by
  unfold removeEdge
  dsimp only
  rw [show graph.edges.get? (GraphEdge.edgeId ⟨source, target, type⟩) = none from absent]

section

variable {old : GraphEdge} (present : graph.edges.get? (idOf source target type) = some old)
include present

theorem removeEdge_present :
    (graph.removeEdge source target type).2 = { graph with
      edges := graph.edges.erase (idOf source target type)
      outgoing := graph.outgoing.discard source target
      incoming := graph.incoming.discard target source
      updatesCount := graph.updatesCount + 1 } := by
  unfold removeEdge
  dsimp only
  rw [show graph.edges.get? (GraphEdge.edgeId ⟨source, target, type⟩) = some old from present]
  rfl

theorem joined_removeEdge {first second : String} :
    (graph.removeEdge source target type).2.Joined first second ↔
      graph.JoinedBeside (idOf source target type) first second := by
  rw [removeEdge_present present]
  refine exists_congr fun other => exists_congr fun edge => ?_
  rw [get?_erase]
  split
  next same => simp [same]
  next distinct => simp [distinct]

end

/-- Removing an edge keeps the mirror exactly if its ends are joined by no other edge; and if
another edge has its id, the ends of that one have to be joined by a further one. -/
theorem mirror_removeEdge_iff (mirror : Mirror graph) :
    Mirror (graph.removeEdge source target type).2 ↔
      ∀ old, graph.edges.get? (idOf source target type) = some old →
        ¬ graph.JoinedBeside (idOf source target type) source target ∧
        ((old.source = source ∧ old.target = target) ∨
          graph.JoinedBeside (idOf source target type) old.source old.target) := by
  cases present : graph.edges.get? (idOf source target type) with
  | none =>
    rw [removeEdge_absent present]
    exact iff_of_true mirror fun old found => nomatch found
  | some old =>
    have outgoing : ∀ first second,
        second ∈ (graph.removeEdge source target type).2.outgoing.of first ↔
          graph.Joined first second ∧ ¬ (first = source ∧ second = target) := by
      intro first second
      rw [removeEdge_present present]
      exact (mem_of_discard _ source target first second).trans
        (and_congr_left fun _ => mirror.outgoing)
    have incoming : ∀ first second,
        first ∈ (graph.removeEdge source target type).2.incoming.of second ↔
          graph.Joined first second ∧ ¬ (first = source ∧ second = target) := by
      intro first second
      rw [removeEdge_present present]
      exact (mem_of_discard _ target source second first).trans
        (and_congr mirror.incoming (not_congr and_comm))
    constructor
    · rintro after _ ⟨⟩
      constructor
      · intro beside
        have isJoined := after.outgoing.mpr ((joined_removeEdge present).mpr beside)
        exact ((outgoing source target).mp isJoined).2 ⟨rfl, rfl⟩
      · by_cases ends : old.source = source ∧ old.target = target
        · exact .inl ends
        · have isJoined := (outgoing old.source old.target).mpr ⟨⟨_, old, present, rfl, rfl⟩, ends⟩
          exact .inr ((joined_removeEdge present).mp (after.outgoing.mp isJoined))
    · intro apart
      obtain ⟨alone, further⟩ := apart old rfl
      have same : ∀ first second,
          (graph.Joined first second ∧ ¬ (first = source ∧ second = target)) ↔
            (graph.removeEdge source target type).2.Joined first second := by
        intro first second
        rw [joined_removeEdge present, joined_iff (idOf source target type)]
        constructor
        · rintro ⟨⟨kept, found, rfl, rfl⟩ | beside, distinct⟩
          · cases present.symm.trans found
            exact further.resolve_left distinct
          · exact beside
        · intro beside
          refine ⟨.inr beside, ?_⟩
          rintro ⟨rfl, rfl⟩
          exact alone beside
      refine mirror_of (fun first second => (outgoing first second).trans (same first second))
        (fun first second => (incoming first second).trans (same first second)) ?_
      intro id edge found
      rw [removeEdge_present present] at found ⊢
      exact mirror.stored id edge (get?_of_get?_erase found)

def Touches (nodeId : String) (edge : GraphEdge) : Prop :=
  edge.source = nodeId ∨ edge.target = nodeId

/-- What the loop over some edges has removed. -/
structure Stripped (nodeId : String) (entries : List (String × GraphEdge))
    (before after : CapabilityGraph) : Prop where
  nodes : after.nodes = before.nodes
  edges : ∀ id edge, after.edges.get? id = some edge ↔
    before.edges.get? id = some edge ∧ ∀ entry ∈ entries, Touches nodeId entry.2 → entry.1 ≠ id
  outgoing : ∀ source target, target ∈ after.outgoing.of source ↔
    target ∈ before.outgoing.of source ∧ ∀ entry ∈ entries, Touches nodeId entry.2 →
      ¬ (entry.2.source = source ∧ entry.2.target = target)
  incoming : ∀ source target, source ∈ after.incoming.of target ↔
    source ∈ before.incoming.of target ∧ ∀ entry ∈ entries, Touches nodeId entry.2 →
      ¬ (entry.2.source = source ∧ entry.2.target = target)

theorem stripped_foldl (nodeId : String) (entries : List (String × GraphEdge))
    (graph : CapabilityGraph) :
    Stripped nodeId entries graph (entries.foldl (removeTouching nodeId) graph) := by
  induction entries generalizing graph with
  | nil => exact ⟨rfl, by simp, by simp, by simp⟩
  | cons entry rest hypothesis =>
    rw [foldl_cons]
    have later := hypothesis (removeTouching nodeId graph entry)
    unfold removeTouching at later ⊢
    split
    next touches =>
      rw [if_pos touches] at later
      refine ⟨later.nodes, fun id edge => ?_, fun source target => ?_, fun source target => ?_⟩
      · rw [later.edges, forall_mem_cons, get?_erase]
        by_cases same : id = entry.1
        · simp [same, Touches, touches]
        · simp [same, Ne.symm same, Touches, touches]
      · rw [later.outgoing, mem_of_discard, forall_mem_cons, and_assoc]
        refine and_congr_right fun _ => and_congr_left fun _ => ?_
        exact ⟨fun distinct _ same => distinct ⟨same.1.symm, same.2.symm⟩,
          fun apart same => apart touches ⟨same.1.symm, same.2.symm⟩⟩
      · rw [later.incoming, mem_of_discard, forall_mem_cons, and_assoc]
        refine and_congr_right fun _ => and_congr_left fun _ => ?_
        exact ⟨fun distinct _ same => distinct ⟨same.2.symm, same.1.symm⟩,
          fun apart same => apart touches ⟨same.2.symm, same.1.symm⟩⟩
    next apart =>
      rw [if_neg apart] at later
      refine ⟨later.nodes, fun id edge => ?_, fun source target => ?_, fun source target => ?_⟩
      · rw [later.edges, forall_mem_cons]
        simp [Touches, apart]
      · rw [later.outgoing, forall_mem_cons]
        simp [Touches, apart]
      · rw [later.incoming, forall_mem_cons]
        simp [Touches, apart]

/-- Every stored edge between two nodes is discarded by the loop exactly when the node is one of
them. -/
theorem Joined.discarded (joined : graph.Joined source target) (nodeId : String) :
    (∀ entry ∈ graph.edges.entries, Touches nodeId entry.2 →
      ¬ (entry.2.source = source ∧ entry.2.target = target)) ↔
        source ≠ nodeId ∧ target ≠ nodeId := by
  obtain ⟨id, edge, found, rfl, rfl⟩ := joined
  constructor
  · intro discarded
    refine not_or.mp fun touches => ?_
    exact discarded (id, edge) (get?_eq_some_iff.mp found) touches ⟨rfl, rfl⟩
  · rintro ends entry - touches ⟨sameSource, sameTarget⟩
    rcases touches with atSource | atTarget
    · exact ends.1 (sameSource.symm.trans atSource)
    · exact ends.2 (sameTarget.symm.trans atTarget)

section

variable {nodeId : String} {removed : CapabilityGraph}
  (stripped : Stripped nodeId graph.edges.entries
    { graph with nodes := graph.nodes.erase nodeId } removed)
include stripped

theorem Stripped.stored_iff (id : String) (edge : GraphEdge) : removed.edges.get? id = some edge ↔
      graph.edges.get? id = some edge ∧ ¬ Touches nodeId edge := by
  rw [stripped.edges]
  refine and_congr_right fun found => ?_
  constructor
  · exact fun kept touches => kept (id, edge) (get?_eq_some_iff.mp found) touches rfl
  · rintro untouched ⟨other, touched⟩ member touches rfl
    have same := found.symm.trans (get?_eq_some_iff.mpr member)
    exact untouched (Option.some.inj same ▸ touches)

theorem Stripped.joined_iff : removed.Joined source target ↔
      graph.Joined source target ∧ source ≠ nodeId ∧ target ≠ nodeId := by
  constructor
  · rintro ⟨id, edge, found, rfl, rfl⟩
    obtain ⟨before, untouched⟩ := (stripped.stored_iff id edge).mp found
    exact ⟨⟨id, edge, before, rfl, rfl⟩, not_or.mp untouched⟩
  · rintro ⟨⟨id, edge, found, rfl, rfl⟩, apart⟩
    exact ⟨id, edge, (stripped.stored_iff id edge).mpr ⟨found, not_or.mpr apart⟩, rfl, rfl⟩

theorem Stripped.mem_outgoing (mirror : Mirror graph) :
    target ∈ removed.outgoing.of source ↔ removed.Joined source target := by
  rw [stripped.outgoing, mirror.outgoing, stripped.joined_iff]
  exact and_congr_right fun joined => joined.discarded nodeId

theorem Stripped.mem_incoming (mirror : Mirror graph) :
    source ∈ removed.incoming.of target ↔ removed.Joined source target := by
  rw [stripped.incoming, mirror.incoming, stripped.joined_iff]
  exact and_congr_right fun joined => joined.discarded nodeId

theorem Stripped.stored (mirror : Mirror graph) {edge : GraphEdge}
    (found : removed.edges.get? id = some edge) :
    (removed.nodes.get? edge.source).isSome ∧ (removed.nodes.get? edge.target).isSome := by
  obtain ⟨before, untouched⟩ := (stripped.stored_iff id edge).mp found
  obtain ⟨notSource, notTarget⟩ := not_or.mp untouched
  rw [stripped.nodes, get?_erase, get?_erase, if_neg notSource, if_neg notTarget]
  exact mirror.stored id edge before

end

theorem Mirror.removeNode (mirror : Mirror graph) (nodeId : String) :
    Mirror (graph.removeNode nodeId).2 := by
  unfold CapabilityGraph.removeNode
  split
  next => exact mirror
  next =>
    have stripped := stripped_foldl nodeId graph.edges.entries
      { graph with nodes := graph.nodes.erase nodeId }
    -- The node has no entry of its own to lose: the loop has emptied its neighbours.
    refine mirror_of (fun source target => ?_) (fun source target => ?_)
      fun id edge => stripped.stored mirror
    · refine (mem_of_erase _ nodeId source target).trans ?_
      rw [stripped.mem_outgoing mirror]
      exact and_iff_right_of_imp fun joined => (stripped.joined_iff.mp joined).2.1
    · refine (mem_of_erase _ nodeId target source).trans ?_
      rw [stripped.mem_incoming mirror]
      exact and_iff_right_of_imp fun joined => (stripped.joined_iff.mp joined).2.2

/-! ## Paths -/

/-- A path along stored edges, from a stored node. -/
def IsPath (graph : CapabilityGraph) (source target : String) (path : List String) : Prop :=
  (graph.nodes.get? source).isSome ∧ BreadthFirst.Path graph.Joined source path target

/-- What `find_path` is to answer: a shortest path if one has at most `maxDepth` edges, and no
path otherwise. -/
def Answers (graph : CapabilityGraph) (source target : String) (maxDepth : ℤ)
    (result : List String) : Prop :=
  (∃ path, graph.IsPath source target path ∧ path.length ≤ maxDepth + 1) ∧
      graph.IsPath source target result ∧
      (∀ path, graph.IsPath source target path → result.length ≤ path.length) ∨
    (¬ ∃ path, graph.IsPath source target path ∧ path.length ≤ maxDepth + 1) ∧ result = []

/-- All that is an outgoing neighbour of something. -/
def reached (graph : CapabilityGraph) : Finset String :=
  graph.outgoing.values.foldr (· ∪ ·) ∅

theorem mem_reached {other : String} (member : other ∈ graph.outgoing.of nodeId) :
    other ∈ graph.reached := by
  have unions : ∀ (sets : List (Finset String)) (set : Finset String), set ∈ sets →
      set ⊆ sets.foldr (· ∪ ·) ∅ := by
    intro sets
    induction sets with
    | nil => exact fun _ isIn => nomatch isIn
    | cons first rest hypothesis =>
      intro set isIn
      rcases mem_cons.mp isIn with same | later
      · rw [same]
        exact Finset.subset_union_left
      · exact (hypothesis set later).trans Finset.subset_union_right
  unfold Adjacency.of at member
  cases found : graph.outgoing.get? nodeId with
  | none =>
    rw [found] at member
    exact absurd member (Finset.notMem_empty other)
  | some targets =>
    rw [found] at member
    exact unions _ targets (mem_values_iff.mpr ⟨nodeId, found⟩) member

theorem card_reached_le (graph : CapabilityGraph) :
    graph.reached.card ≤ graph.outgoing.sumBy fun _ targets => targets.card := by
  have unions : ∀ sets : List (Finset String),
      (sets.foldr (· ∪ ·) ∅).card ≤ (sets.map Finset.card).sum := by
    intro sets
    induction sets with
    | nil => exact Nat.le_refl 0
    | cons first rest hypothesis =>
      exact (Finset.card_union_le _ _).trans (Nat.add_le_add_left hypothesis _)
  refine (unions graph.outgoing.values).trans_eq ?_
  unfold Dict.values Dict.sumBy
  rw [map_map]
  rfl

theorem isSome_findPath (order : String → SetOrder String) (source target : String)
    (maxDepth : ℤ) : (graph.findPath order source target maxDepth).isSome := by
  unfold findPath
  split
  next => rfl
  next =>
    split
    next => rfl
    next =>
      refine @BreadthFirst.isSome_search _ _ _ _ _ _ _ _ graph.reached ?_ ?_
      · intro node other member
        exact mem_reached (((order node).mem _ other).mp member)
      · have fewer := Finset.card_le_card (@Finset.sdiff_subset _ _ graph.reached {source})
        have bounded := card_reached_le graph
        rw [length_singleton]
        omega

theorem IsPath.length_pos {path : List String} (isPath : graph.IsPath source target path) :
    0 < path.length := by
  obtain ⟨count, length, -⟩ := isPath.2.steps
  omega

theorem IsPath.target_stored (mirror : Mirror graph) {path : List String}
    (isPath : graph.IsPath source target path) : (graph.nodes.get? target).isSome := by
  obtain ⟨stored, along⟩ := isPath
  cases along with
  | start => exact stored
  | step earlier joined =>
    obtain ⟨id, edge, found, -, rfl⟩ := joined
    exact (mirror.stored id edge found).2

open Option

theorem findPath_answers (mirror : Mirror graph) (order : String → SetOrder String)
    {maxDepth : ℤ} (sourceStored : (graph.nodes.get? source).isSome)
    (targetStored : (graph.nodes.get? target).isSome) (distinct : source ≠ target)
    {result : List String} (found : graph.findPath order source target maxDepth = some result) :
    graph.Answers source target maxDepth result := by
  unfold findPath at found
  rw [if_neg (by simp [isSome_iff_ne_none.mp sourceStored,
    isSome_iff_ne_none.mp targetStored]), if_neg distinct] at found
  have spec := BreadthFirst.search_spec (Ne.symm distinct) found
  have successors : BreadthFirst.Successor
      (fun node => (order node).list (graph.outgoing.of node)) = graph.Joined := by
    funext first second
    exact propext (((order first).mem _ second).trans mirror.outgoing)
  rw [successors] at spec
  rcases spec with ⟨empty, far⟩ | ⟨isPath, within, shortest⟩
  · refine .inr ⟨?_, empty⟩
    rintro ⟨path, ⟨-, isPath⟩, within⟩
    have := far path isPath
    omega
  · exact .inl ⟨⟨result, ⟨sourceStored, isPath⟩, within⟩, ⟨sourceStored, isPath⟩,
      fun path other => shortest path other.2⟩

/-- Under the mirror, `find_path` answers rightly unless the source is the target and the depth
is negative. -/
theorem findPath_answers_iff (mirror : Mirror graph) (order : String → SetOrder String)
    (source target : String) (maxDepth : ℤ) :
    (∃ result, graph.findPath order source target maxDepth = some result ∧
      graph.Answers source target maxDepth result) ↔
      (0 ≤ maxDepth ∨ source ≠ target ∨ graph.nodes.get? source = none) := by
  by_cases absent : graph.nodes.get? source = none ∨ graph.nodes.get? target = none
  · refine iff_of_true ⟨[], if_pos absent, .inr ⟨?_, rfl⟩⟩ ?_
    · rintro ⟨path, isPath, -⟩
      have stored := isPath.target_stored mirror
      rcases absent with noSource | noTarget
      · exact absurd isPath.1 (by simp [noSource])
      · exact absurd stored (by simp [noTarget])
    · rcases absent with noSource | noTarget
      · exact .inr (.inr noSource)
      · by_cases same : source = target
        · exact .inr (.inr (same ▸ noTarget))
        · exact .inr (.inl same)
  · obtain ⟨sourceStored, targetStored⟩ := not_or.mp absent
    replace sourceStored := isSome_iff_ne_none.mpr sourceStored
    replace targetStored := isSome_iff_ne_none.mpr targetStored
    by_cases same : source = target
    · subst same
      have found : graph.findPath order source source maxDepth = some [source] := by
        unfold findPath
        rw [if_neg absent, if_pos rfl]
      have trivialPath : graph.IsPath source source [source] := ⟨sourceStored, .start⟩
      constructor
      · rintro ⟨result, searched, ⟨⟨path, isPath, within⟩, -⟩ | ⟨-, empty⟩⟩
        · have := isPath.length_pos
          exact .inl (by omega)
        · rw [found, empty] at searched
          cases searched
      · intro allowed
        have deep : 0 ≤ maxDepth := by
          rcases allowed with deep | distinct | none
          · exact deep
          · exact absurd rfl distinct
          · exact absurd sourceStored (by simp [none])
        refine ⟨[source], found, .inl ⟨⟨[source], trivialPath, ?_⟩, trivialPath, ?_⟩⟩
        · rw [length_singleton]
          omega
        · exact fun path isPath => isPath.length_pos
    · obtain ⟨result, found⟩ := isSome_iff_exists.mp
        (@isSome_findPath graph order source target maxDepth)
      exact iff_of_true
        ⟨result, found, findPath_answers mirror order sourceStored targetStored same found⟩
        (.inr (.inl same))

/-- The graph mirrors its edges after the action, and a path that is asked for is answered
rightly. -/
def Sound (graph : CapabilityGraph) (action : Action) : Prop :=
  Mirror (graph.step action) ∧
    ∀ order source target maxDepth, action = .findPath order source target maxDepth →
      ∃ result, graph.findPath order source target maxDepth = some result ∧
        graph.Answers source target maxDepth result

/-- An edge that is added takes the id of no edge with other ends, and one that is removed is
the only edge of its ends, unless further edges make up for it. -/
def Apart (graph : CapabilityGraph) : Action → Prop
  | .addNode .. => True
  | .removeNode _ => True
  | .addEdge source target type =>
    ∀ old, graph.edges.get? (idOf source target type) = some old →
      (old.source = source ∧ old.target = target) ∨
        graph.JoinedBeside (idOf source target type) old.source old.target
  | .removeEdge source target type =>
    ∀ old, graph.edges.get? (idOf source target type) = some old →
      ¬ graph.JoinedBeside (idOf source target type) source target ∧
      ((old.source = source ∧ old.target = target) ∨
        graph.JoinedBeside (idOf source target type) old.source old.target)
  | .findPath _ source target maxDepth =>
    0 ≤ maxDepth ∨ source ≠ target ∨ graph.nodes.get? source = none

theorem sound_iff (mirror : Mirror graph) (action : Action) :
    graph.Sound action ↔ graph.Apart action := by
  cases action with
  | addNode nodeId type label => exact iff_of_true ⟨mirror.addNode nodeId type label, nofun⟩ trivial
  | removeNode nodeId => exact iff_of_true ⟨mirror.removeNode nodeId, nofun⟩ trivial
  | addEdge source target type =>
    exact Iff.trans ⟨And.left, fun mirrored => ⟨mirrored, nofun⟩⟩ (mirror_addEdge_iff mirror)
  | removeEdge source target type =>
    exact Iff.trans ⟨And.left, fun mirrored => ⟨mirrored, nofun⟩⟩ (mirror_removeEdge_iff mirror)
  | findPath order source target maxDepth =>
    refine .trans ?_ (findPath_answers_iff mirror order source target maxDepth)
    constructor
    · exact fun sound => sound.2 order source target maxDepth rfl
    · intro answers
      refine ⟨mirror, ?_⟩
      rintro _ _ _ _ ⟨⟩
      exact answers

theorem mirror_empty : Mirror {} := by
  refine mirror_of (fun source target => ?_) (fun source target => ?_) nofun
  · exact iff_of_false (Finset.notMem_empty target) nofun
  · exact iff_of_false (Finset.notMem_empty source) nofun

/-- Along a run, the adjacency mirrors the edges and paths are answered rightly exactly if edges
are added and removed apart from each other. -/
theorem sound_run_iff (actions : List Action) :
    Along step Sound {} actions ↔ Along step Apart {} actions := by
  have mirrored : ∀ (graph : CapabilityGraph) (action : Action), Mirror graph →
      graph.Apart action → Mirror (graph.step action) := fun graph action mirror apart =>
    ((sound_iff mirror action).mpr apart).1
  constructor
  · intro along
    exact along.imp_of_invariant (fun _ _ _ sound => sound.1)
      (fun _ action mirror => (sound_iff mirror action).mp) mirror_empty
  · intro along
    exact along.imp_of_invariant mirrored
      (fun _ action mirror => (sound_iff mirror action).mpr) mirror_empty

def twoTypes : List Action :=
  [.addEdge "a" "b" .provides, .addEdge "a" "b" .shares, .removeEdge "a" "b" .provides]

theorem twoTypes_not_sound : ¬ Along step Sound {} twoTypes := by
  intro along
  have sound := (along_iff_forall_at _ twoTypes).mp along (twoTypes.take 2)
    (.removeEdge "a" "b" .provides) ⟨[], rfl⟩
  have isJoined : (run step {} twoTypes).Joined "a" "b" :=
    ⟨"a->b:shares", ⟨"a", "b", .shares⟩, by decide, rfl, rfl⟩
  have neighbor : "b" ∈ (run step {} twoTypes).outgoing.of "a" :=
    Mirror.outgoing sound.1 |>.mpr isJoined
  exact absurd neighbor (by decide)

end CapabilityGraph

end AgenticOS.Ecosystem
