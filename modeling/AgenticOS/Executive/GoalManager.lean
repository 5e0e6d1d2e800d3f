import AgenticOS.Data.Dict
import AgenticOS.Data.SetOrder
import AgenticOS.Transition.Run

/-!
# The goal manager

A goal is a record with a status, which the operations of the manager write; only archiving
looks at it first. Ids are new ones for every goal, and numbers here. The planner is outside:
what is known of it is the mission that it has made of a goal, if any.
-/

namespace AgenticOS.Executive

inductive GoalStatus
  | draft | pending | active | paused | completed | failed | cancelled | merged | split | archived
  deriving DecidableEq

inductive GoalPriority
  | critical | high | normal | low | background
  deriving DecidableEq

namespace GoalPriority

def value : GoalPriority → String
  | critical => "critical"
  | high => "high"
  | normal => "normal"
  | low => "low"
  | background => "background"

def weight : GoalPriority → Nat
  | critical => 100
  | high => 75
  | normal => 50
  | low => 25
  | background => 10

def max (first : GoalPriority) (others : List GoalPriority) : GoalPriority :=
  others.foldl (fun best priority => if best.value < priority.value then priority else best) first

end GoalPriority

abbrev GoalId := Nat

structure Goal where
  id : GoalId
  title : String
  description : String
  priority : GoalPriority := .normal
  status : GoalStatus := .draft
  missionId : String := ""
  dependencies : List GoalId := []
  tags : List String := []
  createdAt : String
  updatedAt : String
  completedAt : String := ""
  reflection : String := ""
  deriving DecidableEq

structure GoalManager where
  goals : Dict GoalId Goal := .empty
  made : Nat := 0
  published : List (String × Goal) := []

namespace GoalManager

variable (manager : GoalManager) (now : String)

def publish (topic : String) (goal : Goal) : GoalManager :=
  { manager with published := manager.published ++ [(topic, goal)] }

/-- `Goal(...)`, which is then kept. -/
def add (title description : String) (priority : GoalPriority) (dependencies : List GoalId)
    (tags : List String) : Goal × GoalManager :=
  let goal : Goal := {
    id := manager.made
    title := title
    description := description
    priority := priority
    dependencies := dependencies
    tags := tags
    createdAt := now
    updatedAt := now }
  (goal, { manager with
    goals := manager.goals.set manager.made goal
    made := manager.made + 1 })

def createGoal (title description : String) (priority : GoalPriority)
    (dependencies : List GoalId) (tags : List String) : Goal × GoalManager :=
  let (goal, kept) := manager.add now title (if description = "" then title else description)
    priority dependencies tags
  (goal, kept.publish "executive.goal.created" goal)

def update (topic : String) (goalId : GoalId) (change : Goal → Goal) : Option Goal × GoalManager :=
  match manager.goals.get? goalId with
  | none => (none, manager)
  | some goal =>
    let changed := { manager with goals := manager.goals.set goalId (change goal) }
    (some (change goal), changed.publish topic (change goal))

variable (goalId : GoalId)

def cancelGoal : Option Goal × GoalManager :=
  manager.update "executive.goal.cancelled" goalId fun goal =>
    { goal with status := .cancelled, updatedAt := now }

def suspend : Option Goal × GoalManager :=
  manager.update "executive.goal.suspended" goalId fun goal =>
    { goal with status := .paused, updatedAt := now }

def resume : Option Goal × GoalManager :=
  manager.update "executive.goal.resumed" goalId fun goal =>
    { goal with status := .pending, updatedAt := now }

def reprioritize (priority : GoalPriority) : Option Goal × GoalManager :=
  manager.update "executive.goal.reprioritized" goalId fun goal =>
    { goal with priority := priority, updatedAt := now }

def complete (reflection : String) : Option Goal × GoalManager :=
  manager.update "executive.goal.completed" goalId fun goal =>
    { goal with
      status := .completed
      reflection := reflection
      completedAt := now
      updatedAt := now }

def fail (reason : String) : Option Goal × GoalManager :=
  manager.update "executive.goal.failed" goalId fun goal =>
    { goal with status := .failed, reflection := reason, updatedAt := now }

/-- `activate`, with the mission that the planner makes of the goal, if it does. -/
def activate (mission : Option String) : Option Goal × GoalManager :=
  let (goal, started) := manager.update "executive.goal.started" goalId fun goal =>
    { goal with status := .active, updatedAt := now }
  match goal, mission with
  | some _, some missionId =>
    started.update "executive.goal.planned" goalId fun goal =>
      { goal with missionId := missionId, updatedAt := now }
  | _, _ => (goal, started)

/-- The statuses of the goals that `archive` takes. -/
def archivable : List GoalStatus :=
  [.completed, .failed, .cancelled, .merged, .split]

def archive : Option Goal × GoalManager :=
  match manager.goals.get? goalId with
  | none => (none, manager)
  | some goal =>
    if goal.status ∈ archivable then
      manager.update "executive.goal.archived" goalId fun goal =>
        { goal with status := .archived, updatedAt := now }
    else (none, manager)

/-- A goal is marked without being published. -/
def mark (status : GoalStatus) (manager : GoalManager) (goalId : GoalId) : GoalManager :=
  match manager.goals.get? goalId with
  | none => manager
  | some goal =>
    { manager with
      goals := manager.goals.set goalId { goal with status := status, updatedAt := now } }

def mergeGoals (order : SetOrder GoalId) (goalIds : List GoalId) (newTitle : String) :
    Option Goal × GoalManager :=
  match goalIds.filterMap manager.goals.get? with
  | first :: second :: rest =>
    let mergedGoals := first :: second :: rest
    let marked := goalIds.foldl (mark now .merged) manager
    let dependencies := (mergedGoals.flatMap Goal.dependencies).filter (· ∉ goalIds)
    let (goal, kept) := marked.add now newTitle
      (" | ".intercalate (mergedGoals.map Goal.title))
      (GoalPriority.max first.priority ((second :: rest).map Goal.priority))
      (order.list dependencies.toFinset) []
    (some goal, kept.publish "executive.goal.merged" goal)
  | _ => (none, manager)

/-- The loop of `split_goal` that makes the children. -/
def addChildren (parent : Goal) : List String → GoalManager → List Goal × GoalManager
  | [], manager => ([], manager)
  | title :: titles, manager =>
    let (child, kept) := manager.add now title
      ("Sub-goal of " ++ parent.title ++ ": " ++ title) parent.priority [parent.id] []
    let (children, final) := addChildren parent titles kept
    (child :: children, final)

def splitGoal (subTitles : List String) : List Goal × GoalManager :=
  match manager.goals.get? goalId with
  | none => ([], manager)
  | some parent =>
    if subTitles.length < 2 then ([], manager)
    else
      let (children, kept) := addChildren now parent subTitles (mark now .split manager goalId)
      let announced := children.foldl
        (fun manager child => manager.publish "executive.goal.created" child) kept
      (children, announced.publish "executive.goal.split"
        { parent with status := .split, updatedAt := now })

inductive Call
  | createGoal (title description : String) (priority : GoalPriority)
      (dependencies : List GoalId) (tags : List String)
  | cancelGoal (goalId : GoalId)
  | suspend (goalId : GoalId)
  | resume (goalId : GoalId)
  | reprioritize (goalId : GoalId) (priority : GoalPriority)
  | complete (goalId : GoalId) (reflection : String)
  | fail (goalId : GoalId) (reason : String)
  | activate (goalId : GoalId) (mission : Option String)
  | archive (goalId : GoalId)
  | mergeGoals (order : SetOrder GoalId) (goalIds : List GoalId) (newTitle : String)
  | splitGoal (goalId : GoalId) (subTitles : List String)

/-- What a call leaves, made at some time. -/
def step (manager : GoalManager) : String × Call → GoalManager
  | (now, .createGoal title description priority dependencies tags) =>
    (manager.createGoal now title description priority dependencies tags).2
  | (now, .cancelGoal goalId) => (manager.cancelGoal now goalId).2
  | (now, .suspend goalId) => (manager.suspend now goalId).2
  | (now, .resume goalId) => (manager.resume now goalId).2
  | (now, .reprioritize goalId priority) => (manager.reprioritize now goalId priority).2
  | (now, .complete goalId reflection) => (manager.complete now goalId reflection).2
  | (now, .fail goalId reason) => (manager.fail now goalId reason).2
  | (now, .activate goalId mission) => (manager.activate now goalId mission).2
  | (now, .archive goalId) => (manager.archive now goalId).2
  | (now, .mergeGoals order goalIds newTitle) => (manager.mergeGoals now order goalIds newTitle).2
  | (now, .splitGoal goalId subTitles) => (manager.splitGoal now goalId subTitles).2

end GoalManager

/-!
## The life cycle of goals

A goal whose end is written may be given any other status afterwards, as only archiving asks
for the status before. A run keeps the ends of its goals exactly if none of its calls writes
another status to a goal at its end. Merging takes the last priority of the alphabet, which is
the weightiest exactly if no critical or high goal is merged with one that comes later in the
alphabet and weighs less.
-/

open Transition List Function

namespace GoalPriority

def place : GoalPriority → Nat
  | background => 0
  | critical => 1
  | high => 2
  | low => 3
  | normal => 4

variable (first : GoalPriority)

theorem value_lt_iff (second : GoalPriority) :
    first.value < second.value ↔ first.place < second.place := by
  cases first
  all_goals cases second
  all_goals decide +kernel

theorem max_cons (second : GoalPriority) (others : List GoalPriority) :
    max first (second :: others) =
      max (if first.place < second.place then second else first) others := by
  unfold max
  rw [foldl_cons]
  simp only [value_lt_iff]

theorem max_spec (others : List GoalPriority) : max first others ∈ first :: others ∧
      ∀ priority ∈ first :: others, priority.place ≤ (max first others).place := by
  induction others generalizing first with
  | nil => simp [max]
  | cons second others hypothesis =>
    rw [max_cons]
    obtain ⟨among, last⟩ := hypothesis (if first.place < second.place then second else first)
    rw [forall_mem_cons] at last
    constructor
    · rcases mem_cons.mp among with here | later
      · rw [here]
        split
        · exact mem_cons_of_mem _ mem_cons_self
        · exact mem_cons_self
      · exact mem_cons_of_mem _ (mem_cons_of_mem _ later)
    · simp only [forall_mem_cons]
      refine ⟨?_, ?_, last.2⟩
      · refine le_trans ?_ last.1
        split
        next below => exact below.le
        next => exact le_rfl
      · refine le_trans ?_ last.1
        split
        next => exact le_rfl
        next notBelow => exact Nat.le_of_not_lt notBelow

/-- No priority weighs more than one that comes after it in the alphabet. -/
def Comparable (priorities : List GoalPriority) : Prop :=
  ∀ first ∈ priorities, ∀ second ∈ priorities, first.value < second.value →
    first.weight ≤ second.weight

theorem place_injective {first second : GoalPriority} (same : first.place = second.place) :
    first = second := by
  cases first
  all_goals cases second
  all_goals first | rfl | cases same

theorem not_outweighed {first second last : GoalPriority} (before : first.place < second.place)
    (heavier : second.weight < first.weight) (later : second.place ≤ last.place) :
    last.weight < first.weight := by
  cases first
  all_goals cases second
  all_goals cases last
  all_goals simp [place, weight] at before heavier later ⊢

/-- The last one of the alphabet has the greatest weight exactly if the priorities can be
compared by their values. -/
theorem weightiest_iff {priorities : List GoalPriority} {last : GoalPriority}
    (among : last ∈ priorities) (isLast : ∀ priority ∈ priorities, priority.place ≤ last.place) :
    (∀ priority ∈ priorities, priority.weight ≤ last.weight) ↔ Comparable priorities := by
  constructor
  · intro weightiest first firstAmong second secondAmong before
    rw [value_lt_iff] at before
    by_contra heavier
    have outweighed := not_outweighed before (Nat.lt_of_not_le heavier) (isLast second secondAmong)
    exact absurd (weightiest first firstAmong) (Nat.not_le_of_lt outweighed)
  · intro comparable priority member
    rcases (isLast priority member).lt_or_eq with before | same
    · exact comparable priority member last among ((value_lt_iff _ _).mpr before)
    · rw [place_injective same]

end GoalPriority

def GoalStatus.Terminal (status : GoalStatus) : Prop :=
  status ∈ [cancelled, completed, failed, merged, split, archived]
deriving Decidable

namespace GoalManager

def statusOf (manager : GoalManager) (goalId : GoalId) : Option GoalStatus :=
  (manager.goals.get? goalId).map Goal.status

def written (manager : GoalManager) (goalId : GoalId) : Call → Option GoalStatus
  | .cancelGoal target => if goalId = target then some .cancelled else none
  | .suspend target => if goalId = target then some .paused else none
  | .resume target => if goalId = target then some .pending else none
  | .complete target _ => if goalId = target then some .completed else none
  | .fail target _ => if goalId = target then some .failed else none
  | .activate target _ => if goalId = target then some .active else none
  | .archive target =>
    if goalId = target ∧ ∃ status ∈ manager.statusOf goalId, status ∈ archivable then
      some .archived
    else none
  | .mergeGoals _ goalIds _ =>
    if goalId ∈ goalIds ∧ 2 ≤ (goalIds.filterMap manager.goals.get?).length then some .merged
    else none
  | .splitGoal target subTitles =>
    if goalId = target ∧ 2 ≤ subTitles.length then some .split else none
  | .createGoal .. => none
  | .reprioritize .. => none

def Below (manager : GoalManager) : Prop :=
  ∀ goalId goal, manager.goals.get? goalId = some goal → goalId < manager.made

variable (manager : GoalManager) (now : String)

theorem statusOf_update (topic : String) (target : GoalId) (change : Goal → Goal)
    (goalId : GoalId) :
    (manager.update topic target change).2.statusOf goalId =
      if goalId = target then (manager.goals.get? goalId).map fun goal => (change goal).status
      else manager.statusOf goalId := by
  unfold update statusOf
  cases found : manager.goals.get? target with
  | none =>
    dsimp only
    split
    next same => rw [same, found]; rfl
    next => rfl
  | some goal =>
    unfold publish
    rw [Dict.get?_set]
    split
    next same => rw [same, found]; rfl
    next => rfl

theorem statusOf_update_of_const {topic : String} {target : GoalId} {change : Goal → Goal}
    {status : GoalStatus} (writes : ∀ goal, (change goal).status = status) (goalId : GoalId) :
    (manager.update topic target change).2.statusOf goalId =
      (manager.statusOf goalId).map fun before =>
        (if goalId = target then some status else none).getD before := by
  rw [statusOf_update]
  unfold statusOf
  split
  next => simp [writes, comp_def]
  next => simp [comp_def]

theorem statusOf_update_of_same {topic : String} {target : GoalId} {change : Goal → Goal}
    (same : ∀ goal, (change goal).status = goal.status) (goalId : GoalId) :
    (manager.update topic target change).2.statusOf goalId = manager.statusOf goalId := by
  rw [statusOf_update]
  unfold statusOf
  split
  next => simp only [same]
  next => rfl

variable (status : GoalStatus)

theorem statusOf_mark (target goalId : GoalId) : (mark now status manager target).statusOf goalId =
      (manager.statusOf goalId).map fun before => if goalId = target then status else before := by
  unfold mark statusOf
  cases found : manager.goals.get? target with
  | none =>
    dsimp only
    split
    next same => rw [same, found]; rfl
    next => simp [comp_def]
  | some goal =>
    rw [Dict.get?_set]
    split
    next same => rw [same, found]; rfl
    next => simp [comp_def]

theorem statusOf_foldl_mark (targets : List GoalId) (goalId : GoalId) :
    (targets.foldl (mark now status) manager).statusOf goalId =
      (manager.statusOf goalId).map fun before =>
        if goalId ∈ targets then status else before := by
  induction targets generalizing manager with
  | nil => simp
  | cons target targets hypothesis =>
    rw [foldl_cons, hypothesis, statusOf_mark, Option.map_map]
    congr 1
    funext before
    by_cases here : goalId = target
    · simp [here]
    · simp [here]

variable {goalId : GoalId}

theorem statusOf_add (earlier : goalId < manager.made) (title description : String)
    (priority : GoalPriority) (dependencies : List GoalId) (tags : List String) :
    (manager.add now title description priority dependencies tags).2.statusOf goalId =
      manager.statusOf goalId := by
  exact congrArg (Option.map Goal.status) (Dict.get?_set_ne _ earlier.ne _)

theorem statusOf_addChildren (earlier : goalId < manager.made) (parent : Goal)
    (titles : List String) :
    (addChildren now parent titles manager).2.statusOf goalId = manager.statusOf goalId := by
  induction titles generalizing manager with
  | nil => rfl
  | cons title titles hypothesis =>
    unfold addChildren
    rw [hypothesis _ (Nat.lt_succ_of_lt earlier), statusOf_add manager now earlier]

theorem statusOf_foldl_publish (topic : String) (goals : List Goal) (goalId : GoalId) :
    (goals.foldl (fun manager goal => manager.publish topic goal) manager).statusOf goalId =
      manager.statusOf goalId := by
  induction goals generalizing manager with
  | nil => rfl
  | cons goal goals hypothesis =>
    rw [foldl_cons, hypothesis]
    rfl

theorem made_foldl_mark (targets : List GoalId) :
    (targets.foldl (mark now status) manager).made = manager.made := by
  induction targets generalizing manager with
  | nil => rfl
  | cons target targets hypothesis =>
    rw [foldl_cons, hypothesis]
    unfold mark
    split
    · rfl
    · rfl

theorem statusOf_activate (target : GoalId) (mission : Option String) (goalId : GoalId) :
    (manager.activate now target mission).2.statusOf goalId =
      (manager.statusOf goalId).map fun before =>
        (if goalId = target then some .active else none).getD before := by
  unfold activate
  dsimp only
  split
  · rw [statusOf_update_of_same _ (by intro goal; rfl)]
    exact manager.statusOf_update_of_const (by intro goal; rfl) goalId
  · exact manager.statusOf_update_of_const (by intro goal; rfl) goalId

theorem statusOf_archive (target goalId : GoalId) :
    (manager.archive now target).2.statusOf goalId =
      (manager.statusOf goalId).map fun before =>
        (manager.written goalId (.archive target)).getD before := by
  have unwritten (other : goalId ≠ target) : manager.written goalId (.archive target) = none :=
    if_neg fun both => other both.1
  unfold archive
  cases found : manager.goals.get? target with
  | none =>
    by_cases here : goalId = target
    · unfold statusOf
      rw [here, found]
      rfl
    · simp [unwritten here]
  | some goal =>
    dsimp only
    have status : manager.statusOf target = some goal.status := by
      unfold statusOf
      rw [found]
      rfl
    by_cases archived : goal.status ∈ archivable
    · rw [if_pos archived]
      refine (manager.statusOf_update_of_const (by intro goal; rfl) goalId).trans ?_
      by_cases here : goalId = target
      · rw [here]
        simp [written, status, archived]
      · simp [unwritten here, here]
    · rw [if_neg archived]
      by_cases here : goalId = target
      · rw [here]
        simp [written, status, archived]
      · simp [unwritten here]

section

variable (earlier : goalId < manager.made)
include earlier

theorem statusOf_mergeGoals (order : SetOrder GoalId) (goalIds : List GoalId) (newTitle : String) :
    (manager.mergeGoals now order goalIds newTitle).2.statusOf goalId =
      (manager.statusOf goalId).map fun before =>
        (manager.written goalId (.mergeGoals order goalIds newTitle)).getD before := by
  unfold mergeGoals
  split
  next first second rest shape =>
    refine (statusOf_add _ now (by rw [made_foldl_mark]; exact earlier) _ _ _ _ _).trans ?_
    rw [statusOf_foldl_mark]
    congr 1
    funext before
    by_cases among : goalId ∈ goalIds
    · simp [written, shape, among]
    · simp [written, among]
  next few =>
    have tooFew : ¬ 2 ≤ (goalIds.filterMap manager.goals.get?).length := by
      intro enough
      match shape : goalIds.filterMap manager.goals.get? with
      | [] => simp [shape] at enough
      | [_] => simp [shape] at enough
      | first :: second :: rest => exact few first second rest shape
    simp [written, tooFew]

theorem statusOf_splitGoal (target : GoalId) (subTitles : List String) :
    (manager.splitGoal now target subTitles).2.statusOf goalId =
      (manager.statusOf goalId).map fun before =>
        (manager.written goalId (.splitGoal target subTitles)).getD before := by
  unfold splitGoal written
  cases found : manager.goals.get? target with
  | none =>
    by_cases here : goalId = target
    · unfold statusOf
      rw [here, found]
      rfl
    · simp [here]
  | some parent =>
    dsimp only
    by_cases few : subTitles.length < 2
    · simp [few, Nat.not_le_of_lt few]
    · rw [if_neg few]
      have kept : goalId < (mark now .split manager target).made := by
        have made := manager.made_foldl_mark now .split [target]
        rw [foldl_cons, foldl_nil] at made
        rw [made]
        exact earlier
      refine (statusOf_foldl_publish _ _ _ goalId).trans ?_
      rw [statusOf_addChildren _ now kept, statusOf_mark]
      congr 1
      funext before
      by_cases here : goalId = target
      · simp [here, Nat.le_of_not_lt few]
      · simp [here]

theorem statusOf_step (call : Call) :
    (manager.step (now, call)).statusOf goalId =
      (manager.statusOf goalId).map fun before =>
        (manager.written goalId call).getD before := by
  cases call with
  | createGoal title description priority dependencies tags =>
    refine (statusOf_add manager now earlier _ _ _ _ _).trans ?_
    exact Option.map_id'.symm
  | reprioritize target priority =>
    refine (manager.statusOf_update_of_same (by intro goal; rfl) goalId).trans ?_
    exact Option.map_id'.symm
  | activate target mission => exact manager.statusOf_activate now target mission goalId
  | archive target => exact manager.statusOf_archive now target goalId
  | mergeGoals order goalIds newTitle =>
    exact manager.statusOf_mergeGoals now earlier order goalIds newTitle
  | splitGoal target subTitles => exact manager.statusOf_splitGoal now earlier target subTitles
  | _ => exact manager.statusOf_update_of_const (by intro goal; rfl) goalId

end

/-! ## The ids stay below the number of goals -/

section

variable {manager now}

section

variable (below : manager.Below)
include below

theorem Below.set {target : GoalId} {goal : Goal} (found : manager.goals.get? target = some goal)
    (changed : Goal) (made : Nat) (enough : manager.made ≤ made)
    (published : List (String × Goal)) :
    Below ⟨manager.goals.set target changed, made, published⟩ := by
  intro goalId other kept
  refine Nat.lt_of_lt_of_le ?_ enough
  rw [Dict.get?_set] at kept
  split at kept
  next same =>
    rw [same]
    exact below target goal found
  next => exact below goalId other kept

theorem Below.update (topic : String) (target : GoalId) (change : Goal → Goal) :
    (manager.update topic target change).2.Below := by
  unfold GoalManager.update
  cases found : manager.goals.get? target with
  | none => exact below
  | some goal => exact below.set found _ _ le_rfl _

theorem Below.mark (status : GoalStatus) (target : GoalId) :
    (mark now status manager target).Below := by
  unfold GoalManager.mark
  cases found : manager.goals.get? target with
  | none => exact below
  | some goal => exact below.set found _ _ le_rfl _

theorem Below.foldl_mark (status : GoalStatus) (targets : List GoalId) :
    (targets.foldl (GoalManager.mark now status) manager).Below := by
  induction targets generalizing manager with
  | nil => exact below
  | cons target targets hypothesis => exact hypothesis (below.mark status target)

theorem Below.add (title description : String) (priority : GoalPriority)
    (dependencies : List GoalId) (tags : List String) :
    (manager.add now title description priority dependencies tags).2.Below := by
  intro goalId goal kept
  unfold GoalManager.add at kept ⊢
  rw [Dict.get?_set] at kept
  split at kept
  next same =>
    rw [same]
    exact Nat.lt_succ_self _
  next => exact Nat.lt_succ_of_lt (below goalId goal kept)

theorem Below.addChildren (parent : Goal) (titles : List String) :
    (addChildren now parent titles manager).2.Below := by
  induction titles generalizing manager with
  | nil => exact below
  | cons title titles hypothesis => exact hypothesis (below.add _ _ _ _ _)

theorem Below.foldl_publish (topic : String) (goals : List Goal) :
    (goals.foldl (fun manager goal => manager.publish topic goal) manager).Below := by
  induction goals generalizing manager with
  | nil => exact below
  | cons goal goals hypothesis => exact hypothesis below

theorem Below.step (call : String × Call) : (manager.step call).Below := by
  obtain ⟨now, call⟩ := call
  cases call with
  | createGoal title description priority dependencies tags => exact below.add _ _ _ _ _
  | activate target mission =>
    unfold GoalManager.step activate
    dsimp only
    split
    · exact (below.update _ _ _).update _ _ _
    · exact below.update _ _ _
  | archive target =>
    unfold GoalManager.step archive
    dsimp only
    split
    · exact below
    · split
      · exact below.update _ _ _
      · exact below
  | mergeGoals order goalIds newTitle =>
    unfold GoalManager.step mergeGoals
    dsimp only
    split
    · exact (below.foldl_mark _ _).add _ _ _ _ _
    · exact below
  | splitGoal target subTitles =>
    unfold GoalManager.step splitGoal
    dsimp only
    split
    · exact below
    · split
      · exact below
      · exact ((below.mark _ _).addChildren _ _).foldl_publish _ _
  | _ => exact below.update _ _ _

end

end

def Settled (before after : GoalManager) : Prop :=
  ∀ goalId status, before.statusOf goalId = some status → status.Terminal →
    after.statusOf goalId = some status ∨ after.statusOf goalId = some .archived

/-- A goal that is made by merging has the priority of the greatest weight among the merged
goals. -/
def MergesByWeight (manager : GoalManager) : String × Call → Prop
  | (now, .mergeGoals order goalIds newTitle) =>
    ∀ goal, (manager.mergeGoals now order goalIds newTitle).1 = some goal →
      goal.priority ∈ (goalIds.filterMap manager.goals.get?).map Goal.priority ∧
        ∀ priority ∈ (goalIds.filterMap manager.goals.get?).map Goal.priority,
          priority.weight ≤ goal.priority.weight
  | _ => True

structure LifeCycle (start : GoalManager) (calls : List (String × Call)) : Prop where
  settled : ∀ earlier later, earlier <+: later → later <+: calls →
    Settled (run step start earlier) (run step start later)
  merged : ∀ done call, done ++ [call] <+: calls → MergesByWeight (run step start done) call

def KeepsEnds (manager : GoalManager) (call : String × Call) : Prop :=
  ∀ goalId status target, manager.statusOf goalId = some status → status.Terminal →
    manager.written goalId call.2 = some target → target = status ∨ target = .archived

/-- The priorities that are merged, if a goal is made, can be compared by their values. -/
def MergesComparable (manager : GoalManager) : String × Call → Prop
  | (_, .mergeGoals _ goalIds _) =>
    2 ≤ (goalIds.filterMap manager.goals.get?).length →
      GoalPriority.Comparable ((goalIds.filterMap manager.goals.get?).map Goal.priority)
  | _ => True

section

variable {manager}

theorem settled_step_iff (below : manager.Below) (call : String × Call) :
    Settled manager (manager.step call) ↔ manager.KeepsEnds call := by
  obtain ⟨now, call⟩ := call
  have after {goalId : GoalId} {status : GoalStatus}
      (found : manager.statusOf goalId = some status) :
      (manager.step (now, call)).statusOf goalId =
        some ((manager.written goalId call).getD status) := by
    obtain ⟨goal, kept, -⟩ := Option.map_eq_some_iff.mp found
    rw [manager.statusOf_step now (below goalId goal kept), found]
    rfl
  constructor
  · intro settled goalId status target found terminal writes
    have ends := settled goalId status found terminal
    rw [after found, writes] at ends
    simpa using ends
  · intro keeps goalId status found terminal
    rw [after found]
    cases writes : manager.written goalId call with
    | none => exact .inl rfl
    | some target =>
      rcases keeps goalId status target found terminal writes with rfl | rfl
      · exact .inl rfl
      · exact .inr rfl

theorem mergesByWeight_iff (call : String × Call) :
    manager.MergesByWeight call ↔ manager.MergesComparable call := by
  obtain ⟨now, call⟩ := call
  cases call with
  | mergeGoals order goalIds newTitle =>
    unfold MergesByWeight MergesComparable mergeGoals
    dsimp only
    match shape : goalIds.filterMap manager.goals.get? with
    | [] => simp
    | [_] => simp
    | first :: second :: rest =>
      obtain ⟨among, isLast⟩ :=
        GoalPriority.max_spec first.priority ((second :: rest).map Goal.priority)
      have exact := GoalPriority.weightiest_iff among isLast
      constructor
      · intro weightiest _
        exact exact.mp (weightiest _ rfl).2
      · rintro comparable goal made
        obtain rfl := Option.some.inj made
        exact ⟨among, exact.mpr (comparable (by simp))⟩
  | _ => exact .rfl

end

theorem Settled.refl (manager : GoalManager) : Settled manager manager :=
  fun _ _ found _ => .inl found

theorem Settled.trans {first second third : GoalManager} (before : Settled first second)
    (after : Settled second third) : Settled first third := by
  intro goalId status found terminal
  rcases before goalId status found terminal with same | archived
  · exact after goalId status same terminal
  · rcases after goalId .archived archived (by decide) with kept | kept
    · exact .inr kept
    · exact .inr kept

theorem below_new : Below {} :=
  fun _ _ found => nomatch found

/-- A run keeps the life cycle of its goals exactly if no call writes to the end of a goal, and
all priorities that are merged can be compared by their values. -/
theorem lifeCycle_iff (calls : List (String × Call)) : LifeCycle {} calls ↔
      Along step (fun manager call => manager.KeepsEnds call ∧ manager.MergesComparable call) {}
        calls := by
  have agree (manager : GoalManager) (call : String × Call) (below : manager.Below) :
      (Settled manager (manager.step call) ∧ manager.MergesByWeight call) ↔
        manager.KeepsEnds call ∧ manager.MergesComparable call :=
    and_congr (settled_step_iff below call) (mergesByWeight_iff call)
  rw [← along_iff_of_invariant Below (fun manager call below => below.step call) agree below_new,
    along_and, ← along_related_iff Settled.refl (fun _ _ _ => .trans),
    along_iff_forall_at]
  exact ⟨fun cycle => ⟨cycle.settled, cycle.merged⟩, fun both => ⟨both.1, both.2⟩⟩

def revived : List (String × Call) :=
  [("", .createGoal "release" "" .normal [] []), ("", .cancelGoal 0), ("", .resume 0)]

def unequal : List (String × Call) :=
  [("", .createGoal "hotfix" "" .critical [] []), ("", .createGoal "cleanup" "" .normal [] [])]

/-- The cancelled goal is pending again, and the critical goal makes a normal one. -/
theorem revived_not_lifeCycle : ¬ LifeCycle {} revived ∧
    ∀ order, ¬ LifeCycle {} (unequal ++ [("", .mergeGoals order [0, 1] "both")]) := by
  constructor
  · intro cycle
    have cancelled : (run step {} (revived.take 2)).statusOf 0 = some .cancelled := by
      decide +kernel
    have pending : (run step {} revived).statusOf 0 = some .pending := by decide +kernel
    have settled := cycle.settled (revived.take 2) revived (List.take_prefix _ _)
      prefix_rfl 0 .cancelled cancelled (by decide)
    rcases settled with same | same
    · cases same
    · cases same
  · intro order cycle
    have weighs := cycle.merged unequal _ prefix_rfl
    rw [mergesByWeight_iff] at weighs
    have merged : [0, 1].filterMap (run step {} unequal).goals.get? =
        [⟨0, "hotfix", "hotfix", .critical, .draft, "", [], [], "", "", "", ""⟩,
          ⟨1, "cleanup", "cleanup", .normal, .draft, "", [], [], "", "", "", ""⟩] := by
      decide +kernel
    have comparable := weighs (by rw [merged]; decide)
    rw [merged] at comparable
    have heavier := comparable .critical (by simp) .normal (by simp) (by decide +kernel)
    exact absurd heavier (by decide)

end GoalManager

end AgenticOS.Executive
