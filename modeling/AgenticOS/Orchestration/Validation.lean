import Mathlib.Algebra.Order.Ring.Rat
import AgenticOS.Data.DepthFirst
import AgenticOS.Orchestration.Plan

/-!
# The validation of a plan

`validate_plan` reports unknown dependencies and searches for a circle, depth first and
with two sets: the tasks that are settled and those on the path to the present one.
-/

namespace AgenticOS.Orchestration

open AgenticOS.Dependencies List

inductive ValidationStatus
  | passed | failed | skipped | error
  deriving DecidableEq

structure ValidationResult where
  targetId : String
  targetType : String
  status : ValidationStatus
  errors : List String
  warnings : List String
  score : ℚ
  validatorName : String

/-- The sets of the depth-first search. -/
structure Search where
  visited : Finset TaskId
  inStack : Finset TaskId

namespace Search

/-- Visit one task after the other until a circle is found. -/
def visitAll (visit : Search → TaskId → Option (Bool × Search)) :
    Search → List TaskId → Option (Bool × Search)
  | search, [] => some (false, search)
  | search, id :: rest =>
    match visit search id with
    | none => none
    | some (true, search) => some (true, search)
    | some (false, search) => visitAll visit search rest

/-- Is there a circle behind a task? The first argument bounds the depth of the search. -/
def visit (plan : OrchestrationPlan) : Nat → Search → TaskId → Option (Bool × Search)
  | 0, _, _ => none
  | depth + 1, search, id =>
    if id ∈ search.inStack then some (true, search)
    else if id ∈ search.visited then some (false, search)
    else if plan.dependencies id = [] then
      some (false, { search with visited := insert id search.visited })
    else
      match visitAll (visit plan depth) { search with inStack := insert id search.inStack }
          (plan.dependencies id) with
      | none => none
      | some (true, search) => some (true, search)
      | some (false, search) =>
        some (false,
          { visited := insert id search.visited, inStack := search.inStack.erase id })

/-- Before the first task. -/
def begin : Search where
  visited := ∅
  inStack := ∅

end Search

/-- Detect circular dependencies. The tasks on the path are distinct, so that the search is
never deeper than there are tasks, and one more for what is no task. -/
def hasCircularDeps (plan : OrchestrationPlan) : Option Bool :=
  (Search.visitAll (Search.visit plan (plan.subtasks.length + 1)) .begin plan.taskIds).map Prod.fst

/-- The errors about dependencies that are no tasks. -/
def unknownDeps (plan : OrchestrationPlan) : List String :=
  plan.subtasks.flatMap fun task =>
    (task.dependsOn.filter fun dep => dep ∉ plan.taskIds).map fun dep =>
      "Task '" ++ task.id ++ "' depends on unknown task '" ++ dep ++ "'"

def planErrors (plan : OrchestrationPlan) : List String :=
  (if plan.subtasks = [] then ["Plan has no subtasks"] else []) ++
  unknownDeps plan ++
  (if hasCircularDeps plan = some true then ["Plan contains circular dependencies"] else [])

def validatePlan (plan : OrchestrationPlan) : ValidationResult where
  targetId := plan.id
  targetType := "plan"
  status := if planErrors plan = [] then .passed else .failed
  errors := planErrors plan
  warnings := []
  score := max 0 (1 - (planErrors plan).length / 4)
  validatorName := "plan_validator"

open DepthFirst (Marks Explored Doomed)

namespace Search

variable {plan : OrchestrationPlan}

def ofMarks (marks : Marks TaskId) : Search where
  visited := marks.finished.toFinset
  inStack := marks.begun

theorem visitAll_ofMarks {visit : Search → TaskId → Option (Bool × Search)}
    {general : Marks TaskId → TaskId → Option (Option TaskId × Marks TaskId)}
    (same : ∀ marks id, visit (ofMarks marks) id =
      (general marks id).map (Prod.map Option.isSome ofMarks)) (marks : Marks TaskId)
    (ids : List TaskId) : visitAll visit (ofMarks marks) ids =
      (DepthFirst.visitAll general marks ids).map (Prod.map Option.isSome ofMarks) := by
  induction ids generalizing marks with
  | nil => rfl
  | cons id rest ih =>
    rw [visitAll, DepthFirst.visitAll, same]
    rcases general marks id with _ | ⟨_ | met, after⟩
    · rfl
    · exact ih after
    · rfl

theorem visit_ofMarks (plan : OrchestrationPlan) (depth : Nat) (marks : Marks TaskId)
    (id : TaskId) : visit plan depth (ofMarks marks) id =
      (DepthFirst.visit plan.dependencies depth marks id).map (Prod.map Option.isSome ofMarks) := by
  induction depth generalizing marks id with
  | zero => rfl
  | succ depth ih =>
    rw [visit, DepthFirst.visit]
    split
    next begun => simp [if_pos (show id ∈ marks.begun from begun)]
    next fresh =>
      rw [if_neg (show id ∉ marks.begun from fresh)]
      split
      next seen => simp [if_pos (mem_toFinset.mp seen)]
      next unseen =>
        have all := visitAll_ofMarks ih { marks with begun := insert id marks.begun }
          (plan.dependencies id)
        change visitAll (visit plan depth)
          { ofMarks marks with inStack := insert id marks.begun } _ = _ at all
        rw [if_neg fun member => unseen (mem_toFinset.mpr member)]
        split
        next leaf =>
          simpa [leaf, DepthFirst.visitAll, ofMarks] using (Finset.erase_eq_of_notMem fresh).symm
        next named =>
          change (match visitAll (visit plan depth)
            { ofMarks marks with inStack := insert id marks.begun } (plan.dependencies id) with
            | none => none
            | some (true, search) => some (true, search)
            | some (false, search) => _) = _
          rw [all]
          rcases DepthFirst.visitAll (DepthFirst.visit plan.dependencies depth)
            { marks with begun := insert id marks.begun } (plan.dependencies id)
            with _ | ⟨_ | met, after⟩
          · rfl
          · simp [ofMarks]
          · rfl

end Search

variable {plan : OrchestrationPlan}

open OrchestrationPlan

theorem mem_taskIds_of_dependencies {id : TaskId} (named : plan.dependencies id ≠ []) :
    id ∈ plan.taskIds := by
  rw [dependencies] at named
  cases found : plan.taskMap id with
  | none => simp [found] at named
  | some task =>
    rw [← id_of_taskMap found]
    exact mem_map_of_mem (mem_of_taskMap found)

theorem card_taskIds_le (plan : OrchestrationPlan) :
    plan.taskIds.toFinset.card ≤ plan.subtasks.length := by
  simpa [taskIds] using toFinset_card_le plan.taskIds

theorem hasCircularDeps_cases (plan : OrchestrationPlan) :
    (hasCircularDeps plan = some true ∧ ∃ id, Doomed plan.dependencies id) ∨
      (hasCircularDeps plan = some false ∧ ∀ id ∈ plan.taskIds, ¬ Doomed plan.dependencies id) := by
  have explored : Explored plan.dependencies {} plan.taskIds
      (DepthFirst.visitAll (DepthFirst.visit plan.dependencies (plan.subtasks.length + 1)) {}
        plan.taskIds) := by
    refine Explored.visitAll (fun id _ after nodup topological begun => ?_) .nil .nil
    have complete : ∀ id, plan.dependencies id ≠ [] → id ∈ plan.taskIds.toFinset :=
      fun id named => mem_toFinset.mpr (mem_taskIds_of_dependencies named)
    refine .visit complete _ nodup topological (by simp [begun]) ?_
    rw [begun, Finset.sdiff_empty]
    exact Nat.lt_succ_of_le (card_taskIds_le plan)
  have same := Search.visitAll_ofMarks (Search.visit_ofMarks plan (plan.subtasks.length + 1)) {}
    plan.taskIds
  rw [hasCircularDeps, show Search.begin = .ofMarks {} from rfl, same]
  rcases result : DepthFirst.visitAll
      (DepthFirst.visit plan.dependencies (plan.subtasks.length + 1)) {} plan.taskIds
    with _ | ⟨_ | met, after⟩
  · rw [result] at explored
    exact explored.elim
  · rw [result] at explored
    obtain ⟨-, topological, -, -, -, -, seen⟩ := explored
    exact .inr ⟨rfl, fun id member => DepthFirst.not_doomed_of_mem topological (seen member)⟩
  · rw [result] at explored
    obtain ⟨-, -, -, -, -, -, -, -, id, -, -, doomed⟩ := explored
    exact .inl ⟨rfl, id, doomed⟩

theorem unknownDeps_eq_nil_iff :
    unknownDeps plan = [] ↔ ∀ task ∈ plan.subtasks, ∀ dep ∈ task.dependsOn, dep ∈ plan.taskIds := by
  simp [unknownDeps]

theorem validatePlan_passed_iff (distinct : plan.taskIds.Nodup) (nonempty : plan.subtasks ≠ []) :
    (validatePlan plan).status = .passed ↔
      ∀ id ∈ plan.taskIds, Resolvable plan.taskIds plan.dependencies id := by
  have noErrors : (validatePlan plan).status = .passed ↔
      unknownDeps plan = [] ∧ hasCircularDeps plan ≠ some true := by
    simp [validatePlan, planErrors, nonempty]
  rw [noErrors, unknownDeps_eq_nil_iff]
  constructor
  · rintro ⟨known, noCircle⟩ id member
    rcases hasCircularDeps_cases plan with ⟨found, -⟩ | ⟨-, grounded⟩
    · exact absurd found noCircle
    · refine .of_acyclic fun other reachable =>
        ⟨?_, fun circle => grounded id member ⟨other, reachable, circle⟩⟩
      induction reachable with
      | refl => exact member
      | tail _ edge ih =>
        obtain ⟨task, lookup⟩ := exists_taskMap ih
        rw [Dependencies.DependsOn, dependencies, lookup] at edge
        exact known task (mem_of_taskMap lookup) _ edge
  · intro resolvable
    constructor
    · intro task member dep edge
      have listed : task.id ∈ plan.taskIds := mem_map_of_mem member
      rw [← dependencies_eq distinct member] at edge
      exact ((resolvable task.id listed).of_mem_deps edge).mem
    · rcases hasCircularDeps_cases plan with ⟨-, id, other, below, circle⟩ | ⟨none, -⟩
      · obtain ⟨dep, first, -⟩ := Relation.TransGen.head'_iff.mp circle
        have listed := mem_taskIds_of_dependencies (ne_nil_of_mem first)
        exact absurd circle (resolvable other listed).acyclic
      · simp [none]

/-!
## The supervisor

`detect_deadlocks` searches a plan for circles of tasks that wait for each other. A dependency on
a completed task holds nothing up.
-/

open AgenticOS.DepthFirst (Doomed)

def openDependencies (plan : OrchestrationPlan) (id : TaskId) : List TaskId :=
  (plan.dependencies id).filter fun dep =>
    !plan.subtasks.any fun task => task.id = dep && task.status = .completed

/-- Detect deadlocked dependency chains. A task is visited from its place in the plan and from
every task that waits for it; it is deadlocked when the search stops behind it, and then it
remains in progress. What is in progress are tasks, so that the search is never deeper than there
are tasks, and one more. -/
def detectDeadlocks (plan : OrchestrationPlan) : Option (Finset TaskId) :=
  (DepthFirst.searchAll (openDependencies plan) (plan.subtasks.length + 1) {} plan.taskIds).map
    fun marks => marks.hits.toFinset

theorem mem_taskIds_of_openDependencies {plan : OrchestrationPlan} {id : TaskId}
    (waits : openDependencies plan id ≠ []) : id ∈ plan.taskIds := by
  apply mem_taskIds_of_dependencies
  intro none
  exact waits (by rw [openDependencies, none, filter_nil])

/-- The deadlocked tasks are those from which dependencies that are not completed lead to a
circle of such dependencies. -/
theorem detectDeadlocks_exact (plan : OrchestrationPlan) :
    ∃ deadlocked, detectDeadlocks plan = some deadlocked ∧
      ∀ id, id ∈ deadlocked ↔ Doomed (openDependencies plan) id := by
  obtain ⟨marks, found, -, sound, complete⟩ :=
    @DepthFirst.searchAll_spec _ (openDependencies plan) {} plan.taskIds _ _
      (fun id waits => mem_toFinset.mpr (mem_taskIds_of_openDependencies waits)) _
      (Nat.lt_succ_of_le (card_taskIds_le plan)) .nil .nil rfl nofun
  refine ⟨marks.hits.toFinset, by rw [detectDeadlocks, found, Option.map_some], fun id => ?_⟩
  rw [mem_toFinset]
  constructor
  · exact sound id
  · intro doomed
    obtain ⟨other, below, circle⟩ := doomed
    have waits : ∃ dep, dep ∈ openDependencies plan id := by
      rcases Relation.ReflTransGen.cases_head below with rfl | ⟨dep, edge, -⟩
      · obtain ⟨dep, edge, -⟩ := Relation.TransGen.head'_iff.mp circle
        exact ⟨dep, edge⟩
      · exact ⟨dep, edge⟩
    obtain ⟨dep, edge⟩ := waits
    exact complete id (mem_taskIds_of_openDependencies (ne_nil_of_mem edge))
      ⟨other, below, circle⟩

end AgenticOS.Orchestration
