import AgenticOS.Pipelines.Success
import AgenticOS.Workflows.Runner
import AgenticOS.Workflows.Validation

/-!
# Replaying a workflow

A replay begins with an execution that has no completed node and with its node alone in the
queue. A node that an edge leads to has open dependencies then, and nothing else in the queue
could complete them: it is put back for ever. From any other node the runner only queues nodes
whose dependencies are completed, takes up each of them at most once, and ends.
-/

namespace AgenticOS.Workflows

open List Workflow

open AgenticOS.Pipelines (Pipeline)

namespace Runner

variable (workflow : Workflow)

/-- Continue a runner. Only the execution of a node may fail. -/
def advance (error : Option String) (state : WorkflowExecution × Runner) :
    WorkflowExecution × Runner :=
  match state.2.phase with
  | .executing _ => state.2.next workflow error state.1
  | _ => state.2.next workflow none state.1

/-- A runner after some continuations, with the outcomes of the nodes. -/
def continued (outcomes : Nat → Option String) (state : WorkflowExecution × Runner) :
    Nat → WorkflowExecution × Runner
  | 0 => state
  | steps + 1 => advance workflow (outcomes steps) (continued outcomes state steps)

/-- The task of a replay, before it has run. -/
def replay (version : ℤ) (requested : Option ℤ) (fromNode : Option NodeId) :
    WorkflowExecution × Runner :=
  (replayWorkflow version requested fromNode, create (replayWorkflow version requested fromNode))

/-- The task ends, whatever the outcomes are. -/
def Finishes (state : WorkflowExecution × Runner) : Prop :=
  ∀ outcomes, ∃ steps, (continued workflow outcomes state steps).2.phase = .done

variable {workflow} {state : WorkflowExecution × Runner}

theorem continued_succ (outcomes : Nat → Option String) (steps : Nat) :
    continued workflow outcomes state (steps + 1) =
      continued workflow (fun step => outcomes (step + 1))
        (advance workflow (outcomes 0) state) steps := by
  induction steps with
  | zero => rfl
  | succ steps ih =>
    rw [continued, ih]
    rfl

theorem Finishes.of_done (ended : state.2.phase = .done) : Finishes workflow state :=
  fun _ => ⟨0, ended⟩

theorem Finishes.of_advance (next : ∀ error, Finishes workflow (advance workflow error state)) :
    Finishes workflow state := by
  intro outcomes
  obtain ⟨steps, ended⟩ := next (outcomes 0) fun step => outcomes (step + 1)
  rw [← continued_succ] at ended
  exact ⟨steps + 1, ended⟩

variable {store : WorkflowExecution} {runner : Runner}

theorem finishes_crash (error : String) : Finishes workflow (runner.crash error) :=
  .of_advance fun _ => .of_done rfl

theorem finishes_finalize : Finishes workflow (runner.finalize store) := by
  rw [finalize]
  split
  · split
    · exact .of_advance fun _ => .of_done rfl
    · exact .of_advance fun _ => .of_done rfl
  · exact .of_done rfl

/-- The degrees count the edges from nodes that are not expanded, and the dependencies of expanded
and of queued nodes are expanded. No approval node is. -/
structure Ready (workflow : Workflow) (expanded : Finset NodeId) (runner : Runner) : Prop where
  running : runner.execution.status = .running
  expanded_subset : expanded ⊆ runner.execution.completedNodes
  degrees : ∀ id, runner.inDegree id =
    workflow.graph.inDegree id - workflow.graph.degreeFrom expanded id
  closed : ∀ id ∈ expanded, ∀ dep ∈ workflow.reverseAdj id, dep ∈ expanded
  plain : ∀ id ∈ expanded, ¬ workflow.NeedsApproval id
  queued : ∀ id ∈ runner.readyQueue, ∀ dep ∈ workflow.reverseAdj id, dep ∈ expanded

theorem foldl_release_inDegree (targets : List NodeId) (id : NodeId) :
    (targets.foldl release runner).inDegree id = runner.inDegree id - targets.count id :=
  Pipeline.foldl_countdown (fun _ _ => rfl) targets runner id

theorem mem_foldl_release {targets : List NodeId} {id : NodeId}
    (member : id ∈ (targets.foldl release runner).readyQueue) :
    id ∈ runner.readyQueue ∨ (targets.foldl release runner).inDegree id ≤ 0 := by
  induction targets generalizing runner with
  | nil => exact .inl member
  | cons target targets ih =>
    rcases ih member with before | counted
    · rw [release] at before
      split at before
      next ready =>
        rcases mem_append.mp before with old | new
        · exact .inl old
        · rw [mem_singleton.mp new, foldl_cons, foldl_release_inDegree]
          have reached : (runner.release target).inDegree target ≤ 0 := ready.1
          exact .inr (by omega)
      next => exact .inl before
    · exact .inr counted

variable {expanded : Finset NodeId}

theorem reverseAdj_eq_nil_iff {id : NodeId} :
    workflow.reverseAdj id = [] ↔ workflow.inDegree id = 0 := by
  simp [reverseAdj, Workflow.inDegree]

/-- A runner is as ready with more completed nodes, and with fewer in its queue. -/
theorem Ready.mono {other : Runner} (ready : Ready workflow expanded runner)
    (running : other.execution.status = .running)
    (completed : runner.execution.completedNodes ⊆ other.execution.completedNodes)
    (degrees : other.inDegree = runner.inDegree)
    (queue : ∀ id ∈ other.readyQueue, id ∈ runner.readyQueue) : Ready workflow expanded other where
  running := running
  expanded_subset := ready.expanded_subset.trans completed
  degrees := degrees ▸ ready.degrees
  closed := ready.closed
  plain := ready.plain
  queued id member := ready.queued id (queue id member)

theorem ready_entered {queue : List NodeId} (running : runner.execution.status = .running)
    (roots : ∀ id ∈ queue, workflow.inDegree id = 0) :
    Ready workflow ∅ { runner with inDegree := workflow.inDegree, readyQueue := queue } := by
  refine ⟨running, Finset.empty_subset _, ?_, nofun, nofun, ?_⟩
  · intro id
    rw [Pipeline.degreeFrom_empty, sub_zero, graph, Pipeline.inDegree, countP_map]
    rfl
  · intro id member dep into
    rw [reverseAdj_eq_nil_iff.mpr (roots id member)] at into
    exact absurd into not_mem_nil

theorem Ready.expand {id : NodeId} (ready : Ready workflow expanded runner)
    (fresh : id ∉ expanded) (completed : id ∈ runner.execution.completedNodes)
    (sources : ∀ dep ∈ workflow.reverseAdj id, dep ∈ expanded)
    (unasked : ¬ workflow.NeedsApproval id) :
    Ready workflow (insert id expanded) (runner.expand workflow id) := by
  have degrees : ∀ other, (runner.expand workflow id).inDegree other =
      workflow.graph.inDegree other - workflow.graph.degreeFrom (insert id expanded) other := by
    intro other
    have sameAdj : workflow.graph.adj id = workflow.adj id := by
      simp only [graph, Pipeline.adj, adj, filter_map, map_map]
      rfl
    rw [Runner.expand, foldl_release_inDegree, ready.degrees, Pipeline.degreeFrom_insert fresh,
      sameAdj, sub_sub]
  refine ⟨?_, ?_, degrees, ?_, ?_, ?_⟩
  · rw [expand_execution]
    exact ready.running
  · rw [expand_execution]
    exact Finset.insert_subset completed ready.expanded_subset
  · intro other member dep into
    apply Finset.mem_insert_of_mem
    rcases Finset.mem_insert.mp member with rfl | old
    · exact sources dep into
    · exact ready.closed other old dep into
  · intro other member
    rcases Finset.mem_insert.mp member with rfl | old
    · exact unasked
    · exact ready.plain other old
  · intro other member dep into
    rcases mem_foldl_release member with before | counted
    · exact Finset.mem_insert_of_mem (ready.queued other before dep into)
    · have reached : (runner.expand workflow id).inDegree other ≤ 0 := counted
      rw [degrees] at reached
      rw [← workflow.reverseAdj_graph] at into
      exact Pipeline.sources_of_inDegree_le (by omega) dep into

open Finishes

theorem finishes_taken {node : WorkflowNode} (started : runner.phase = .nodeStarted node)
    (succeeds : node.type ≠ .approval → ∀ completed : Runner, completed = { runner with
        execution := runner.execution.completeNode node.id, phase := .nodeCompleted node } →
      ∀ store, Finishes workflow ((completed.expand workflow node.id).loop workflow store
        (completed.expand workflow node.id).readyQueue)) :
    Finishes workflow (store, runner) := by
  apply of_advance
  intro _
  rw [advance, started]
  rw [Runner.next, proceed, started]
  dsimp only
  split
  next => exact .of_advance fun _ => .of_done rfl
  next unasked =>
    apply of_advance
    rintro (_ | error)
    · exact .of_advance fun _ => succeeds unasked _ rfl _
    · exact .of_advance fun _ => finishes_finalize

/-- The loop ends: a node that it takes up fails, or there is one open node less. -/
theorem Ready.finishes_loop (queue : List NodeId)
    (ready : Ready workflow expanded { runner with readyQueue := queue }) :
    Finishes workflow (runner.loop workflow store queue) := by
  induction size : (workflow.graph.openStages runner.execution.completedNodes).card
    using Nat.strong_induction_on generalizing runner store queue expanded with
  | _ size ih =>
    induction queue with
    | nil => exact finishes_finalize
    | cons id rest skip =>
      have running : runner.execution.status = .running := ready.running
      have sources := ready.queued id mem_cons_self
      rw [loop, if_neg (not_not.mpr running)]
      split
      next => exact finishes_crash _
      next node found =>
        split
        next =>
          exact skip (ready.mono running subset_rfl rfl fun other => mem_cons_of_mem id)
        next pending =>
          rw [if_neg (not_not.mpr fun dep into => ready.expanded_subset (sources dep into))]
          have sameId : node.id = id := by simpa using find?_some found
          have listed : id ∈ workflow.graph.stageIds := by
            rw [workflow.stageIds_graph, ← sameId]
            exact mem_map_of_mem (mem_nodes_of_nodeMap found)
          have fewer := Pipeline.card_openStages_insert listed pending
          have fresh : id ∉ expanded := fun old => pending (ready.expanded_subset old)
          subst sameId
          apply finishes_taken rfl
          rintro unasked completed rfl store
          refine ih _ ?_ _ (Ready.expand (ready.mono running (Finset.subset_insert _ _) rfl
            fun other => mem_cons_of_mem node.id) fresh ?_ sources ?_) rfl
          · rw [expand_execution]
            exact (Nat.lt_succ_self _).trans_eq (fewer.trans size)
          · exact Finset.mem_insert_self _ _
          · exact not_needsApproval found unasked

/-! ## Where a replay ends -/

theorem loop_spins {id : NodeId} (listed : id ∈ workflow.nodeIds)
    (behind : workflow.inDegree id ≠ 0) (running : runner.execution.status = .running)
    (none : runner.execution.completedNodes = ∅) : runner.loop workflow store [id] =
      (store, { runner with readyQueue := [id], phase := .spinning }) := by
  obtain ⟨node, found⟩ : ∃ node, workflow.nodeMap id = some node := by
    rw [← Option.isSome_iff_exists, nodeMap, find?_isSome]
    obtain ⟨node, member, same⟩ := mem_map.mp listed
    exact ⟨node, mem_reverse.mpr member, by simpa using same⟩
  have open_ : ¬ ∀ dep ∈ workflow.reverseAdj id, dep ∈ (∅ : Finset NodeId) := by
    intro all
    apply behind
    rw [← reverseAdj_eq_nil_iff, eq_nil_iff_forall_not_mem]
    exact fun dep into => Finset.notMem_empty dep (all dep into)
  rw [loop, if_neg (not_not.mpr running), found]
  dsimp only
  rw [none, if_neg (Finset.notMem_empty id), if_pos open_]
  rfl

def entering (workflow : Workflow) (execution : WorkflowExecution) : Runner where
  execution := execution.start
  inDegree := workflow.inDegree
  readyQueue := []
  phase := .started

variable {version : ℤ} {requested : Option ℤ} {fromNode : Option NodeId}

section

variable {execution : WorkflowExecution}

theorem initialQueue_of_none (all : truthy execution.replayFromNode = none) :
    initialQueue workflow execution =
      workflow.nodeIds.filter fun id => workflow.inDegree id = 0 := by
  rw [initialQueue, all]

theorem initialQueue_of_some {id : NodeId} (chosen : truthy execution.replayFromNode = some id) :
    initialQueue workflow execution = [id] := by
  rw [initialQueue, chosen]

end

section

variable {id : NodeId} (chosen : truthy fromNode = some id) (listed : id ∈ workflow.nodeIds)
  (behind : workflow.inDegree id ≠ 0) (outcomes : Nat → Option String) (steps : Nat)
include chosen listed behind

theorem continued_spins :
    (continued workflow outcomes (replay version requested fromNode) (steps + 2)).2 =
      { entering workflow (replayWorkflow version requested fromNode) with
        readyQueue := [id], phase := .spinning } := by
  induction steps with
  | zero =>
    change (Runner.loop workflow _ (entering workflow (replayWorkflow version requested fromNode))
      (initialQueue workflow (replayWorkflow version requested fromNode))).2 = _
    rw [initialQueue_of_some chosen, loop_spins listed behind rfl rfl]
  | succ steps ih =>
    rw [continued, advance, ih]
    change (Runner.loop workflow _ _ [id]).2 = _
    rw [loop_spins listed behind rfl rfl]

theorem not_done_of_behind :
    (continued workflow outcomes (replay version requested fromNode) steps).2.phase ≠ .done := by
  match steps with
  | 0 | 1 => nofun
  | steps + 2 =>
    rw [continued_spins chosen listed behind]
    nofun

end

theorem finishes_replay (free : ∀ id, truthy fromNode = some id → id ∈ workflow.nodeIds →
    workflow.inDegree id = 0) : Finishes workflow (replay version requested fromNode) := by
  apply of_advance
  intro _
  apply of_advance
  intro _
  change Finishes workflow (Runner.loop workflow _
    (entering workflow (replayWorkflow version requested fromNode))
    (initialQueue workflow (replayWorkflow version requested fromNode)))
  cases chosen : truthy fromNode with
  | none =>
    rw [initialQueue_of_none chosen]
    refine Ready.finishes_loop _ (ready_entered rfl fun id member => ?_)
    exact of_decide_eq_true (mem_filter.mp member).2
  | some id =>
    rw [initialQueue_of_some chosen]
    by_cases listed : id ∈ workflow.nodeIds
    · have root := free id chosen listed
      exact Ready.finishes_loop [id] (ready_entered rfl (forall_mem_singleton.mpr root))
    · have unknown : workflow.nodeMap id = none := by
        rw [nodeMap, find?_eq_none]
        intro node member same
        apply listed
        rw [← of_decide_eq_true same]
        exact mem_map_of_mem (mem_reverse.mp member)
      have running : (entering workflow
          (replayWorkflow version requested fromNode)).execution.status = .running := rfl
      rw [loop, if_neg (not_not.mpr running), unknown]
      exact finishes_crash _

/-- A replay ends if and only if its node is none, not one of the workflow, or one that no
edge leads to. -/
theorem replay_ends_iff (workflow : Workflow) (version : ℤ) (requested : Option ℤ)
    (fromNode : Option NodeId) (outcomes : Nat → Option String) :
    (∃ steps, (continued workflow outcomes (replay version requested fromNode) steps).2.phase =
      .done) ↔
      ∀ id, truthy fromNode = some id → id ∈ workflow.nodeIds → workflow.inDegree id = 0 := by
  constructor
  · rintro ⟨steps, ended⟩ id chosen listed
    by_contra behind
    exact not_done_of_behind chosen listed behind outcomes steps ended
  · intro free
    exact finishes_replay free outcomes

def startToEnd : Workflow where
  nodes := [{ id := "start", type := .start }, { id := "end", type := .end }]
  edges := [{ id := "edge", source := "start", target := "end" }]

/-- The workflow is valid, and its replay from the end goes on for ever. -/
theorem startToEnd_replays_forever :
    (validateWorkflow startToEnd.nodes startToEnd.edges).valid = true ∧
      ∀ outcomes steps, (continued startToEnd outcomes (replay 1 none (some "end"))
        steps).2.phase ≠ .done := by
  constructor
  · decide +kernel
  · intro outcomes steps
    have chosen : truthy (some "end") = some "end" := rfl
    exact not_done_of_behind chosen (by decide) (by decide) outcomes steps

end Runner

end AgenticOS.Workflows
