import AgenticOS.Workflows.Manning
import AgenticOS.Workflows.Replay

/-!
# What lies behind an approval

A runner ends where it asks for an approval, and a later one skips the approved node without
releasing what depends on it. So no runner takes up a node that depends on an approval node: an
approval ends its branch of the workflow.
-/

namespace AgenticOS.Workflows

open AgenticOS.Transition AgenticOS.Transition.Supervised Runner Dependencies

variable {κ : Type} {workflow : Workflow} {runner : Runner} {store : WorkflowExecution}

/-- The node depends on no approval node. -/
def Unblocked (workflow : Workflow) (id : NodeId) : Prop :=
  ∀ gate, workflow.NeedsApproval gate →
    ¬ Relation.TransGen (DependsOn workflow.reverseAdj) id gate

/-- A runner begins with nodes that no edge leads to: it replays nothing, or from such a node. -/
def Rooted (workflow : Workflow) (execution : WorkflowExecution) : Prop :=
  ∀ id ∈ initialQueue workflow execution, workflow.inDegree id = 0

/-- The runner has taken up a node whose dependencies it has expanded. -/
structure Takes (workflow : Workflow) (expanded : Finset NodeId) (runner : Runner)
    (node : WorkflowNode) : Prop where
  ready : Ready workflow expanded runner
  found : workflow.nodeMap node.id = some node
  sources : ∀ dep ∈ workflow.reverseAdj node.id, dep ∈ expanded
  fresh : node.id ∉ expanded

/-- What a runner knows where it stands. -/
def Placed (workflow : Workflow) (runner : Runner) : Prop :=
  match runner.phase with
  | .created => Rooted workflow runner.execution
  | .started => Rooted workflow runner.execution ∧ runner.execution.status = .running
  | .spinning => ∃ expanded, Ready workflow expanded runner
  | .nodeStarted node => ∃ expanded, Takes workflow expanded runner node
  | .executing node => node.type ≠ .approval ∧ ∃ expanded, Takes workflow expanded runner node
  | .nodeCompleted node => node.type ≠ .approval ∧
      node.id ∈ runner.execution.completedNodes ∧ ∃ expanded, Takes workflow expanded runner node
  | .nodeFailed node | .approvalRequested node => Unblocked workflow node.id
  | .finished | .crashed | .cancelling | .done => True

section

variable {expanded : Finset NodeId} {node : WorkflowNode}

theorem Takes.mono {other : Runner} (takes : Takes workflow expanded runner node)
    (running : other.execution.status = .running)
    (completed : runner.execution.completedNodes ⊆ other.execution.completedNodes)
    (degrees : other.inDegree = runner.inDegree) (queue : other.readyQueue = runner.readyQueue) :
    Takes workflow expanded other node :=
  ⟨takes.ready.mono running completed degrees fun _ => (queue ▸ ·), takes.found, takes.sources,
    takes.fresh⟩

theorem Takes.unblocked (takes : Takes workflow expanded runner node) :
    Unblocked workflow node.id :=
  fun gate asks below => takes.ready.plain gate
    (of_transGen takes.ready.closed takes.sources below) asks

theorem Placed.unblocked (placed : Placed workflow runner)
    (atNode : runner.phase.node? = some node) : Unblocked workflow node.id := by
  unfold Placed at placed
  cases phase : runner.phase with
  | nodeStarted other =>
    rw [phase] at placed atNode
    cases atNode
    obtain ⟨_, takes⟩ := placed
    exact takes.unblocked
  | executing other =>
    rw [phase] at placed atNode
    cases atNode
    obtain ⟨-, _, takes⟩ := placed
    exact takes.unblocked
  | nodeCompleted other =>
    rw [phase] at placed atNode
    cases atNode
    obtain ⟨-, -, _, takes⟩ := placed
    exact takes.unblocked
  | nodeFailed other | approvalRequested other =>
    rw [phase] at placed atNode
    cases atNode
    exact placed
  | created | started | spinning | finished | crashed | cancelling | done =>
    rw [phase] at atNode
    cases atNode

end

theorem placed_finalize : Placed workflow (runner.finalize store).2 := by
  rw [finalize]
  split
  · split
    · trivial
    · trivial
  · trivial

theorem placed_loop {expanded : Finset NodeId} (queue : List NodeId)
    (ready : Ready workflow expanded { runner with readyQueue := queue }) :
    Placed workflow (runner.loop workflow store queue).2 := by
  induction queue with
  | nil => exact placed_finalize
  | cons id rest ih =>
    have running : runner.execution.status = .running := ready.running
    have later : ∀ other ∈ rest, other ∈ id :: rest := fun _ => List.mem_cons_of_mem id
    rw [loop, if_neg (not_not.mpr running)]
    split
    next => trivial
    next node found =>
      split
      next => exact ih (ready.mono running subset_rfl rfl later)
      next pending =>
        split
        next =>
          refine ⟨expanded, ready.mono running subset_rfl rfl fun other => ?_⟩
          simp [or_comm]
        next =>
          obtain rfl : node.id = id := by simpa using List.find?_some found
          refine ⟨expanded, ?_, found, ready.queued _ List.mem_cons_self, ?_⟩
          · exact ready.mono running subset_rfl rfl later
          · exact fun old => pending (ready.expanded_subset old)

theorem Placed.next (placed : Placed workflow runner) (error : Option String) :
    Placed workflow (runner.next workflow error store).2 := by
  unfold Placed at placed
  cases error with
  | none =>
    rw [Runner.next, Runner.proceed]
    cases phase : runner.phase with
    | created =>
      rw [phase] at placed
      exact ⟨placed, rfl⟩
    | started =>
      rw [phase] at placed
      exact placed_loop _ (ready_entered placed.2 placed.1)
    | spinning =>
      rw [phase] at placed
      obtain ⟨_, ready⟩ := placed
      exact placed_loop runner.readyQueue ready
    | nodeStarted node =>
      rw [phase] at placed
      obtain ⟨expanded, takes⟩ := placed
      dsimp only
      split
      next => exact takes.unblocked
      next unasked => exact ⟨unasked, expanded, takes.mono takes.ready.running subset_rfl rfl rfl⟩
    | executing node =>
      rw [phase] at placed
      obtain ⟨unasked, expanded, takes⟩ := placed
      refine ⟨unasked, Finset.mem_insert_self _ _, expanded, ?_⟩
      exact takes.mono takes.ready.running (Finset.subset_insert _ _) rfl rfl
    | nodeCompleted node =>
      rw [phase] at placed
      obtain ⟨unasked, completed, expanded, takes⟩ := placed
      exact placed_loop _ (takes.ready.expand takes.fresh completed takes.sources
        (Workflow.not_needsApproval takes.found unasked))
    | nodeFailed node => exact placed_finalize
    | approvalRequested | finished | crashed | cancelling | done => trivial
  | some error =>
    rw [Runner.next, Runner.raise]
    cases phase : runner.phase with
    | created =>
      rw [phase] at placed
      exact ⟨placed, rfl⟩
    | executing node =>
      rw [phase] at placed
      obtain ⟨-, _, takes⟩ := placed
      exact takes.unblocked
    | nodeCompleted node =>
      rw [phase] at placed
      obtain ⟨-, -, _, takes⟩ := placed
      exact takes.unblocked
    | started | spinning | nodeStarted | nodeFailed | approvalRequested | finished
    | crashed | cancelling | done => trivial

theorem placed_interrupt : Placed workflow (runner.interrupt store).2 := by
  rcases interrupt_cases store runner with cancelled | ⟨ended, -⟩
  · rw [cancelled]
    trivial
  · rw [ended]
    trivial

/-! ## Runs -/

/-- A resumption starts its runner at nodes that no edge leads to. -/
def StartsAtRoots (state : ExecutionState κ) : ExecutionAction κ → Prop
  | .control .resume => ∀ definition, state.definition = some definition →
      Rooted definition.toWorkflow state.store
  | _ => True

/-- No runner takes up a node that depends on an approval node, if all begin at roots. -/
theorem unblocked_run {definition : WorkflowDefinition κ} {execution : WorkflowExecution}
    (rooted : Rooted definition.toWorkflow execution) {actions : List (ExecutionAction κ)}
    (starts : Along (step (workflowEngine κ)) StartsAtRoots
      (start (workflowEngine κ) execution definition) actions) :
    ∀ supervisee ∈ (run (step (workflowEngine κ))
        (start (workflowEngine κ) execution definition) actions).workers,
      ∀ node, supervisee.worker.phase.node? = some node →
        Unblocked supervisee.definition.toWorkflow node.id := by
  let own (definition : WorkflowDefinition κ) (worker : Runner) : Prop :=
    Placed definition.toWorkflow worker
  have preserved (state : ExecutionState κ) (action : ExecutionAction κ)
      (initially : ∀ supervisee ∈ state.workers, own supervisee.definition supervisee.worker)
      (starts : StartsAtRoots state action) :
      ∀ supervisee ∈ (state.step (workflowEngine κ) action).workers,
        own supervisee.definition supervisee.worker := by
    apply workers_step own _ _ initially
    · rintro operation after definition rfl accepted isResume present
      obtain rfl : operation = .resume := of_decide_eq_true isResume
      rw [(control_resume_eq_some_iff.mp accepted).2]
      exact starts definition present
    · exact fun definition error store worker placed => placed.next error
    · exact fun definition store worker _ => placed_interrupt
  intro supervisee member node atNode
  have placed := starts.invariant preserved (fun supervisee member => by
    rw [List.mem_singleton.mp member]
    exact rooted) supervisee member
  exact placed.unblocked atNode

/-- An approval node is approved, and this node remains behind it: it depends on the approved one
and is not completed. -/
def Remains (state : ExecutionState κ) (id : NodeId) (node : WorkflowNode) : Prop :=
  state.store.status = .awaitingApproval ∧ state.store.pendingApproval = some id ∧
    ∃ definition, state.definition = some definition ∧
      definition.toWorkflow.NeedsApproval id ∧ node ∈ definition.toWorkflow.nodes ∧
        Relation.TransGen (DependsOn definition.toWorkflow.reverseAdj) node.id id ∧
          node.id ≠ id ∧ node.id ∉ state.store.completedNodes

/-- Some runner has taken up the node. -/
def TakenUp (state : ExecutionState κ) (id : NodeId) : Prop :=
  ∃ supervisee ∈ state.workers, ∃ node, supervisee.worker.phase.node? = some node ∧ node.id = id

def Unchanging : ExecutionAction κ → Prop
  | .redefine _ => False
  | _ => True

/-- Behind a granted approval each remaining node can still be executed, without a change of the
workflow. -/
def GoesOn (state : ExecutionState κ) (action : ExecutionAction κ) : Prop :=
  ∀ id reason, action = .control (.approve id true reason) → ∀ node, Remains state id node →
    ∃ later : List (ExecutionAction κ), (∀ next ∈ later, Unchanging next) ∧
      TakenUp (run (step (workflowEngine κ)) (state.step (workflowEngine κ) action) later) node.id

/-- No node remains behind an approval node that is approved. -/
def EndsBranch (state : ExecutionState κ) (action : ExecutionAction κ) : Prop :=
  ∀ id reason, action = .control (.approve id true reason) → ∀ node, ¬ Remains state id node

/-- A stored execution that says that it runs has an active runner, throughout exactly the runs
whose actions keep one. What remains behind an approval can still be executed where nothing does;
where something does, no runner that begins at the roots ever takes it up. -/
theorem running_has_runner_iff (definition : WorkflowDefinition κ) (execution : WorkflowExecution)
    (actions : List (ExecutionAction κ)) :
    (Always (step (workflowEngine κ)) (Manned (workflowEngine κ) Runs)
        (start (workflowEngine κ) execution definition) actions ↔
      Along (step (workflowEngine κ)) KeepsRunner
        (start (workflowEngine κ) execution definition) actions) ∧
    (Along (step (workflowEngine κ)) EndsBranch
        (start (workflowEngine κ) execution definition) actions →
      Along (step (workflowEngine κ)) GoesOn
        (start (workflowEngine κ) execution definition) actions) ∧
    (Rooted definition.toWorkflow execution →
      Along (step (workflowEngine κ)) StartsAtRoots
        (start (workflowEngine κ) execution definition) actions →
      ∀ supervisee ∈ (run (step (workflowEngine κ))
          (start (workflowEngine κ) execution definition) actions).workers,
        ∀ node, supervisee.worker.phase.node? = some node →
          Unblocked supervisee.definition.toWorkflow node.id) := by
  refine ⟨?_, fun ends => ?_, fun rooted starts => unblocked_run rooted starts⟩
  · rw [always_manned_iff (workflow_manning κ)]
    exact along_congr keepsRunner_iff _ actions
  · have weaken (state : ExecutionState κ) (action : ExecutionAction κ) (_ : True)
        (ends : EndsBranch state action) : GoesOn state action :=
      fun id reason approves node remains => absurd remains (ends id reason approves node)
    exact ends.imp_of_invariant (fun _ _ _ _ => trivial) weaken trivial

def gatedWorkflow : WorkflowDefinition String where
  id := "workflow"
  name := "Workflow"
  description := ""
  nodes :=
    [{ id := "gate", type := .approval, label := "Gate", config := "", position := "" },
      { id := "close", type := .«end», label := "Close", config := "", position := "" }]
  edges := [{ id := "edge", source := "gate", target := "close" }]
  version := 1
  status := .active

/-- The gate is approved after the runner has asked for it. -/
def approvedRun : List (ExecutionAction String) :=
  [.next 0 none, .next 0 none, .next 0 none, .next 0 none, .control (.approve "gate" true none)]

/-- Behind the approval the execution says that it runs, but its runner is over, and its last
node never starts, however often the runner is continued. -/
theorem approved_without_runner :
    ¬ Always (step (workflowEngine String)) (Manned (workflowEngine String) Runs)
        (start (workflowEngine String) (executeWorkflow 1 none) gatedWorkflow) approvedRun ∧
      ∀ index error, (run (step (workflowEngine String))
            (start (workflowEngine String) (executeWorkflow 1 none) gatedWorkflow) approvedRun).step
              (workflowEngine String) (.next index error) =
          run (step (workflowEngine String))
            (start (workflowEngine String) (executeWorkflow 1 none) gatedWorkflow) approvedRun := by
  have runs : Runs (run (step (workflowEngine String))
      (start (workflowEngine String) (executeWorkflow 1 none) gatedWorkflow)
        approvedRun).store := by
    decide +kernel
  have stopped : ∀ supervisee ∈ (run (step (workflowEngine String))
      (start (workflowEngine String) (executeWorkflow 1 none) gatedWorkflow) approvedRun).workers,
        (workflowEngine String).standing supervisee.worker = .ended := by
    decide +kernel
  constructor
  · intro always
    rcases always.last runs with ⟨supervisee, member, active⟩
    have isOver := stopped supervisee member
    rcases active with working | ⟨created, -⟩
    · cases isOver.symm.trans working
    · cases isOver.symm.trans created
  · exact fun index error => next_of_all_over stopped index error

/-- The execution is paused and resumed before its first runner asks for the approval. -/
def secondRunnerRun : List (ExecutionAction String) :=
  [.next 0 none, .control .pause, .control .resume, .next 0 none, .next 0 none,
    .control (.approve "gate" true none), .next 1 none, .next 1 none]

/-- A second runner is at work throughout, and none takes up what is behind the gate. -/
theorem running_has_runner_resumed :
    Always (step (workflowEngine String)) (Manned (workflowEngine String) Runs)
        (start (workflowEngine String) (executeWorkflow 1 none) gatedWorkflow) secondRunnerRun ∧
      ∀ supervisee ∈ (run (step (workflowEngine String)) (start (workflowEngine String)
          (executeWorkflow 1 none) gatedWorkflow) secondRunnerRun).workers,
        ∀ node, supervisee.worker.phase.node? = some node →
          Unblocked supervisee.definition.toWorkflow node.id := by
  obtain ⟨manned, -, unblocked⟩ :=
    running_has_runner_iff gatedWorkflow (executeWorkflow 1 none) secondRunnerRun
  have rooted : Rooted gatedWorkflow.toWorkflow (executeWorkflow 1 none) := by
    unfold Rooted
    decide +kernel
  constructor
  · refine manned.mpr ⟨trivial, trivial, fun _ => .inl rfl, trivial, trivial, fun _ _ => ?_,
      trivial, trivial, trivial⟩
    exact ⟨_, List.mem_of_getElem? (i := 1) rfl, .inr ⟨rfl, rfl⟩⟩
  · refine unblocked rooted ⟨trivial, trivial, ?_, trivial, trivial, trivial, trivial, trivial,
      trivial⟩
    rintro definition ⟨⟩
    exact rooted

end AgenticOS.Workflows
