import AgenticOS.Pipelines.Traversal

/-!
# Pausing, resuming and the number of runners

`pause_execution` only writes to the store, which no runner reads. The next change of
the runner's snapshot overwrites it. A resume while the runner is still in its stage loop
therefore adds a second runner to the first.
-/

namespace AgenticOS.Pipelines

open AgenticOS.Transition List PipelineExecution

namespace Runner

def live (runner : Runner) : Bool :=
  match runner.phase with
  | .created | .started | .spinning | .stageStarted _ _ | .executing _ _ | .stageCompleted _ _
  | .stageFailed _ _ | .retrySleep _ => true
  | .finished | .crashed | .cancelling | .done => false

/-- A runner that may still write to the store: behind the loop, the publication of the
result may fail. -/
def writes (runner : Runner) : Bool :=
  runner.live || decide (runner.phase = .finished)

def starting (runner : Runner) : Option StageId :=
  match runner.phase with
  | .stageStarted stage _ => some stage.id
  | _ => none

def inExecution (runner : Runner) : Option StageId :=
  match runner.phase with
  | .executing stage _ => some stage.id
  | _ => none

theorem writes_of_live {runner : Runner} (live : runner.live) : runner.writes := by
  rw [writes, live]
  rfl

theorem live_of_starting {runner : Runner} {id : StageId} (starting : runner.starting = some id) :
    runner.live := by
  revert starting
  rw [Runner.starting, live]
  cases runner.phase <;> simp

structure Agrees (store : PipelineExecution) (runner : Runner) : Prop where
  completed : runner.writes → runner.execution.completedStages = store.completedStages
  settled : runner.phase = .finished → store.status ≠ .running ∧ store.status ≠ .paused
  running : ∀ id, runner.starting = some id →
    store.status ≠ .paused ∧ id ∉ runner.execution.completedStages

def Advances (store : PipelineExecution) (result : PipelineExecution × Runner) : Prop :=
  Agrees result.1 result.2 ∧ store.completedStages ⊆ result.1.completedStages

variable {pipeline : Pipeline} {store : PipelineExecution} {runner : Runner}

theorem agrees_of_not_writes (ended : ¬ runner.writes) : Agrees store runner where
  completed := fun writes => absurd writes ended
  settled := by
    intro finished
    have writes : runner.writes := by
      rw [Runner.writes, finished]
      simp
    exact absurd writes ended
  running := fun _ starting => absurd (writes_of_live (live_of_starting starting)) ended

theorem agrees_create (execution : PipelineExecution) : Agrees execution (create execution) where
  completed := fun _ => rfl
  settled := fun impossible => by cases impossible
  running := fun _ impossible => by cases impossible

/-- Nothing is stored, and the runner neither starts a stage nor is behind the loop. -/
theorem advances_of_phase (runner : Runner)
    (agree : runner.execution.completedStages = store.completedStages) {phase : Phase}
    (unfinished : phase ≠ .finished) (noStart : starting { runner with phase } = none) :
    Advances store (store, { runner with phase }) := by
  constructor
  · constructor
    · intro _
      exact agree
    · intro finished
      exact absurd finished unfinished
    · intro id starts
      rw [noStart] at starts
      cases starts
  · exact Finset.Subset.refl _

theorem advances_save {execution : PipelineExecution} {phase : Phase}
    (grows : store.completedStages ⊆ execution.completedStages)
    (settled : phase = .finished → execution.status ≠ .running ∧ execution.status ≠ .paused)
    (running : ∀ id, starting { runner with execution, phase } = some id →
      execution.status ≠ .paused ∧ id ∉ execution.completedStages) :
    Advances store (runner.save execution phase) :=
  ⟨⟨fun _ => rfl, settled, running⟩, grows⟩

theorem advances_save_quietly {execution : PipelineExecution} {phase : Phase}
    (grows : store.completedStages ⊆ execution.completedStages) (unfinished : phase ≠ .finished)
    (noStart : starting { runner with execution, phase } = none) :
    Advances store (runner.save execution phase) := by
  apply advances_save grows
  · intro finished
    exact absurd finished unfinished
  · intro id starts
    rw [noStart] at starts
    cases starts

theorem Advances.of_subset {middle : PipelineExecution} {result : PipelineExecution × Runner}
    (grows : store.completedStages ⊆ middle.completedStages) (advances : Advances middle result) :
    Advances store result :=
  ⟨advances.1, grows.trans advances.2⟩

theorem advances_crash (agree : runner.execution.completedStages = store.completedStages)
    (error : String) : Advances store (runner.crash error) :=
  advances_save_quietly (Finset.subset_of_eq agree.symm) (by decide) rfl

theorem advances_cancel (agree : runner.execution.completedStages = store.completedStages) :
    Advances store runner.cancel :=
  advances_save_quietly (Finset.subset_of_eq agree.symm) (by decide) rfl

theorem advances_finalize (agree : runner.execution.completedStages = store.completedStages) :
    Advances store (runner.finalize store) := by
  have grows : store.completedStages ⊆ runner.execution.completedStages :=
    Finset.subset_of_eq agree.symm
  rw [finalize]
  split
  · split
    · apply advances_save
      · exact grows
      · intro _
        simp [fail]
      · intro id impossible
        cases impossible
    · apply advances_save
      · exact grows
      · intro _
        simp [complete]
      · intro id impossible
        cases impossible
  · exact advances_of_phase runner agree (by decide) rfl

theorem advances_loop (agree : runner.execution.completedStages = store.completedStages)
    (queue : List StageId) : Advances store (runner.loop pipeline store queue) := by
  have grows : store.completedStages ⊆ runner.execution.completedStages :=
    Finset.subset_of_eq agree.symm
  induction queue with
  | nil =>
    apply advances_finalize
    exact agree
  | cons id rest ih =>
    rw [loop]
    split
    · apply advances_finalize
      exact agree
    · next notRunning =>
        have running : runner.execution.status = .running := not_not.mp notRunning
        split
        · exact ih
        · next pending =>
            split
            · apply advances_crash
              exact agree
            · next stage found =>
                split
                · exact advances_of_phase { runner with readyQueue := rest ++ [id] } agree
                    (by decide) rfl
                · dsimp only
                  split
                  · apply Advances.of_subset grows
                    apply advances_finalize
                    rfl
                  · apply advances_save
                    · exact grows
                    · intro finished
                      cases finished
                    · intro started starts
                      cases starts
                      rw [Pipeline.id_of_stageMap found]
                      exact ⟨by simp [setCurrentStage, running], pending⟩

theorem advances_next (agree : runner.execution.completedStages = store.completedStages)
    (outcome : Outcome) : Advances store (runner.next pipeline outcome store) := by
  have grows : store.completedStages ⊆ runner.execution.completedStages :=
    Finset.subset_of_eq agree.symm
  have begins : Advances store runner.begin := advances_save_quietly grows (by decide) rfl
  have isOver : Advances store (store, { runner with phase := .done }) :=
    advances_of_phase runner agree (by decide) rfl
  cases outcome with
  | ok =>
    change Advances store (runner.proceed pipeline store)
    rw [proceed]
    cases phase : runner.phase with
    | created => exact begins
    | started =>
      apply advances_loop
      exact agree
    | spinning => exact advances_loop agree runner.readyQueue
    | stageStarted stage retryCount => exact advances_of_phase runner agree (by simp) rfl
    | executing stage retryCount =>
      apply advances_save_quietly
      · exact grows.trans (Finset.subset_insert stage.id _)
      · simp
      · rfl
    | stageCompleted stage retryCount =>
      apply advances_loop
      have unchanged : (runner.expand pipeline stage.id).execution = runner.execution :=
        runner.foldl_release_execution _
      rw [unchanged]
      exact agree
    | stageFailed stage retryCount =>
      dsimp only
      split
      · exact advances_of_phase runner agree (by simp) rfl
      · exact advances_finalize agree
    | retrySleep stage =>
      apply Advances.of_subset grows
      apply advances_loop
      rfl
    | finished | crashed | cancelling | done => exact advances_of_phase runner agree (by decide) rfl
  | raised error =>
    change Advances store (runner.raise store error)
    rw [raise]
    cases phase : runner.phase with
    | created => exact begins
    | executing stage retryCount | stageCompleted stage retryCount =>
      exact advances_save_quietly grows (by simp) rfl
    | started | spinning | stageStarted | stageFailed | retrySleep | finished =>
      exact advances_crash agree error
    | crashed | cancelling | done => exact advances_of_phase runner agree (by decide) rfl
  | cancelled =>
    change Advances store (runner.interrupt store)
    rw [interrupt]
    split
    · exact isOver
    · exact isOver
    · exact isOver
    · exact isOver
    · exact advances_cancel agree

theorem next_of_not_writes (ended : ¬ runner.writes) (outcome : Outcome) :
    runner.next pipeline outcome store = (store, { runner with phase := .done }) := by
  revert ended
  rw [writes, live]
  cases outcome with
  | ok =>
    change _ → runner.proceed pipeline store = _
    rw [proceed]
    cases runner.phase <;> simp
  | raised error =>
    change _ → runner.raise store error = _
    rw [raise]
    cases runner.phase <;> simp
  | cancelled =>
    change _ → runner.interrupt store = _
    rw [interrupt]
    cases runner.phase <;> simp

end Runner

namespace ExecutionPool

def begins (state : ExecutionPool) : Action → Option StageId
  | .next index .ok => state.processes[index]?.bind Runner.starting
  | _ => none

def completes (state : ExecutionPool) : Action → Option StageId
  | .next index .ok => state.processes[index]?.bind Runner.inExecution
  | _ => none

/-- No stage begins executing while the stored status is `paused`, at most one runner is in
its stage loop, and no stage is executed again after it has completed. -/
structure Exclusive (pipeline : Pipeline) (actions : List Action) : Prop where
  pauses : Along (step pipeline)
    (fun state action => state.store.status = .paused → begins state action = none)
    executePipeline actions
  alone : Always (step pipeline) (fun state => state.count Runner.live ≤ 1) executePipeline actions
  once : ∀ before after id, actions = before ++ after →
    Occurs (step pipeline) (fun state action => completes state action = some id)
      executePipeline before →
    ¬ Occurs (step pipeline) (fun state action => begins state action = some id)
      (run (step pipeline) executePipeline before) after

/-- Control operations that meet the runner where they do no harm: no pause is accepted
while a runner publishes that a stage starts, and no resume while a runner is in its
stage loop. -/
def Harmless (state : ExecutionPool) : Action → Prop
  | .next _ _ => True
  | .pause => state.store.status = .running → ∀ runner ∈ state.processes, runner.starting = none
  | .resume => state.store.status = .paused → state.count Runner.live = 0

instance (state : ExecutionPool) : (action : Action) → Decidable (Harmless state action)
  | .next _ _ => .isTrue trivial
  | .pause => inferInstanceAs (Decidable (_ → _))
  | .resume => inferInstanceAs (Decidable (_ → _))

structure SingleWriter (state : ExecutionPool) : Prop where
  few : state.count Runner.writes ≤ 1
  agrees : ∀ runner ∈ state.processes, runner.Agrees state.store

variable {pipeline : Pipeline} {state : ExecutionPool} {action : Action}

theorem singleWriter_executePipeline : SingleWriter executePipeline := by
  constructor
  · decide
  · intro runner member
    rw [mem_singleton.mp member]
    exact Runner.agrees_create {}

theorem SingleWriter.next (single : SingleWriter state) (index : Nat) (outcome : Outcome) :
    SingleWriter (step pipeline state (.next index outcome)) := by
  have passive : ∀ store runner, ¬ Runner.writes runner →
      (Runner.next pipeline outcome store runner).1 = store ∧
        ¬ Runner.writes (Runner.next pipeline outcome store runner).2 := by
    intro store runner ended
    rw [Runner.next_of_not_writes ended]
    constructor
    · rfl
    · simp [Runner.writes, Runner.live]
  have preserved : ∀ store runner, Runner.writes runner → Runner.Agrees store runner →
      Runner.Agrees (Runner.next pipeline outcome store runner).1
        (Runner.next pipeline outcome store runner).2 :=
    fun _ _ writes agrees => (Runner.advances_next (agrees.completed writes) outcome).1
  have free : ∀ store runner, ¬ Runner.writes runner → Runner.Agrees store runner :=
    fun _ _ ended => Runner.agrees_of_not_writes ended
  have together := Pool.resume_alone free passive preserved index single.few single.agrees
  exact ⟨together.1, together.2⟩

theorem SingleWriter.step (single : SingleWriter state) (harmless : Harmless state action) :
    SingleWriter (step pipeline state action) := by
  cases action with
  | next index outcome => exact single.next index outcome
  | pause =>
    by_cases running : state.store.status = .running
    · rw [step_pause_of_running running]
      constructor
      · exact single.few
      · intro runner member
        have agrees := single.agrees runner member
        constructor
        · exact agrees.completed
        · intro finished
          exact absurd running (agrees.settled finished).1
        · intro id starts
          rw [harmless running runner member] at starts
          cases starts
    · rw [step_pause_of_not_running running]
      exact single
  | resume =>
    by_cases paused : state.store.status = .paused
    · rw [step_resume_of_paused paused]
      -- Behind its loop a runner has stored a result, which is not paused.
      have ended : ∀ runner ∈ state.processes, ¬ runner.writes := by
        intro runner member writes
        rcases Bool.or_eq_true _ _ ▸ writes with live | finished
        · have noneLive := countP_eq_zero.mp (harmless paused) runner member
          exact noneLive live
        · have settled := (single.agrees runner member).settled (of_decide_eq_true finished)
          exact settled.2 paused
      have none : state.count Runner.writes = 0 := countP_eq_zero.mpr ended
      constructor
      · rw [Pool.count_spawn, none]
        exact Nat.le_refl 1
      · intro runner member
        rcases mem_append.mp member with old | new
        · exact Runner.agrees_of_not_writes (ended runner old)
        · rw [mem_singleton.mp new]
          exact Runner.agrees_create state.store.start
    · rw [step_resume_of_not_paused paused]
      exact single

theorem SingleWriter.count_live (single : SingleWriter state) : state.count Runner.live ≤ 1 :=
  Nat.le_trans (countP_mono_left fun _ _ live => Runner.writes_of_live live) single.few

/-- A stage only begins while the stored status is not `paused`, and only if the stored
record does not list it as completed. -/
theorem SingleWriter.of_begins (single : SingleWriter state) {id : StageId}
    (begun : begins state action = some id) :
    state.store.status ≠ .paused ∧ id ∉ state.store.completedStages := by
  unfold begins at begun
  split at begun
  · rcases Option.bind_eq_some_iff.mp begun with ⟨runner, present, starting⟩
    have agrees := single.agrees runner (mem_of_getElem? present)
    have writes := Runner.writes_of_live (Runner.live_of_starting starting)
    rw [← agrees.completed writes]
    exact agrees.running id starting
  · cases begun

theorem SingleWriter.completed_subset (single : SingleWriter state) (action : Action) :
    state.store.completedStages ⊆
      (ExecutionPool.step pipeline state action).store.completedStages := by
  cases action with
  | next index outcome =>
    change _ ⊆ (state.resume (Runner.next pipeline outcome) index).store.completedStages
    cases lookup : state.processes[index]? with
    | none => rw [Pool.resume_of_none lookup]
    | some runner =>
      rw [Pool.resume_of_some lookup]
      by_cases writes : runner.writes
      · have agrees := single.agrees runner (mem_of_getElem? lookup)
        exact (Runner.advances_next (agrees.completed writes) outcome).2
      · rw [Runner.next_of_not_writes writes]
  | pause =>
    by_cases running : state.store.status = .running
    · rw [step_pause_of_running running]
      exact Finset.Subset.refl _
    · rw [step_pause_of_not_running running]
  | resume =>
    by_cases paused : state.store.status = .paused
    · rw [step_resume_of_paused paused]
      exact Finset.Subset.refl _
    · rw [step_resume_of_not_paused paused]

theorem completed_of_completes {id : StageId} (done : completes state action = some id) :
    id ∈ (step pipeline state action).store.completedStages := by
  unfold completes at done
  split at done
  · next index =>
      rcases Option.bind_eq_some_iff.mp done with ⟨runner, present, inExecution⟩
      have stored : (step pipeline state (.next index .ok)).store =
          (runner.proceed pipeline state.store).1 :=
        congrArg Pool.store (Pool.resume_of_some present)
      rw [stored]
      rw [Runner.inExecution] at inExecution
      rw [Runner.proceed]
      split at inExecution
      · next stage retryCount phase =>
          rw [phase]
          cases inExecution
          exact Finset.mem_insert_self stage.id runner.execution.completedStages
      · cases inExecution
  · cases done

/-- In every run whose control operations are harmless, pauses, resumes and the runner
exclude each other. -/
theorem exclusive_of_harmless (pipeline : Pipeline) (actions : List Action)
    (along : Along (step pipeline) Harmless executePipeline actions) :
    Exclusive pipeline actions := by
  have preserved : ∀ state action, SingleWriter state → Harmless state action →
      SingleWriter (step pipeline state action) :=
    fun _ _ single harmless => single.step harmless
  constructor
  · apply along.imp_of_invariant preserved _ singleWriter_executePipeline
    intro state action single _ paused
    cases begun : begins state action with
    | none => rfl
    | some id => exact absurd paused (single.of_begins begun).1
  · intro done earlier
    have single := (along.of_prefix earlier).invariant preserved singleWriter_executePipeline
    exact single.count_live
  · rintro before after id rfl occurred
    have parts := (along_append executePipeline before after).mp along
    have single := parts.1.invariant preserved singleWriter_executePipeline
    have completed : id ∈ (run (step pipeline) executePipeline before).store.completedStages :=
      occurred.establishes (fun state => id ∈ state.store.completedStages) preserved
        (fun _ _ _ _ done => completed_of_completes done)
        (fun _ action single _ member => single.completed_subset action member)
        parts.1 singleWriter_executePipeline
    have keeps : ∀ state action, SingleWriter state ∧ id ∈ state.store.completedStages →
        Harmless state action → SingleWriter (step pipeline state action) ∧
          id ∈ (step pipeline state action).store.completedStages :=
      fun _ action holds harmless =>
        ⟨holds.1.step harmless, holds.1.completed_subset action holds.2⟩
    apply parts.2.not_occurs keeps _ ⟨single, completed⟩
    intro state action holds begun
    exact (holds.1.of_begins begun).2 holds.2

/-! ## One stage -/

def singleStage : Pipeline where
  stages := [{ id := "a" }]
  edges := []

/-- A pause that meets the runner inside the stage is overwritten when the stage ends. -/
theorem pausedInside_exclusive : Exclusive singleStage
      [.next 0 .ok, .next 0 .ok, .next 0 .ok, .pause, .next 0 .ok, .next 0 .ok] := by
  apply exclusive_of_harmless
  decide +kernel

/-- The execution is paused while the first runner publishes that the stage starts, and
resumed when it executes the stage. -/
def pausedAtStart : List Action :=
  [.next 0 .ok, .next 0 .ok, .pause, .next 0 .ok, .resume, .next 1 .ok, .next 1 .ok, .next 0 .ok,
    .next 1 .ok]

/-- The stage begins while the stored status is `paused`, two runners are in their stage
loops, and the second one executes the stage again after the first has completed it. -/
theorem pausedAtStart_not_exclusive : (∃ done, done ++ [.next 0 .ok] <+: pausedAtStart ∧
      (run (step singleStage) executePipeline done).store.status = .paused ∧
      begins (run (step singleStage) executePipeline done) (.next 0 .ok) = some "a") ∧
    (∃ done, done <+: pausedAtStart ∧
      (run (step singleStage) executePipeline done).count Runner.live = 2) ∧
    ∃ before after, pausedAtStart = before ++ after ∧
      Occurs (step singleStage) (fun state action => completes state action = some "a")
        executePipeline before ∧
      Occurs (step singleStage) (fun state action => begins state action = some "a")
        (run (step singleStage) executePipeline before) after := by
  constructor
  · exact ⟨pausedAtStart.take 3, by decide +kernel, by decide +kernel, by decide +kernel⟩
  · constructor
    · exact ⟨pausedAtStart.take 7, by decide +kernel, by decide +kernel⟩
    · exact ⟨pausedAtStart.take 8, pausedAtStart.drop 8, by decide +kernel, by decide +kernel,
        by decide +kernel⟩

end ExecutionPool

end AgenticOS.Pipelines
