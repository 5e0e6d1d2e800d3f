import Mathlib.Data.List.Infix

/-!
# Runs of a deterministic transition function

A component is given by a total function `step : σ → α → σ`: one action is one
uninterrupted piece of the component's code, and a run is a finite list of
actions performed from left to right. Two ways of speaking about a whole run are
kept apart. `Along` constrains the actions, each one in the state it is taken
from; `Always` constrains the states, every one that the run passes through.

The rules for invariants connect the two: an invariant preserved by guarded steps
holds throughout every guarded run, and a guard that is exact for one step is exact
for all runs. At the end of the file events are counted, and actions that nobody
notices are taken out of a run.
-/

namespace AgenticOS.Transition

open List

universe u v

variable {σ : Type u} {α : Type v}

/-- Perform a list of actions from left to right. -/
def run (step : σ → α → σ) (state : σ) (actions : List α) : σ :=
  actions.foldl step state

section

variable (step : σ → α → σ)

@[simp]
theorem run_nil (state : σ) : run step state [] = state :=
  rfl

@[simp]
theorem run_cons (state : σ) (action : α) (actions : List α) :
    run step state (action :: actions) = run step (step state action) actions :=
  rfl

theorem run_append (state : σ) (first second : List α) :
    run step state (first ++ second) = run step (run step state first) second :=
  foldl_append

end

/-- Every action of the run satisfies `guard` in the state it is taken from. -/
def Along (step : σ → α → σ) (guard : σ → α → Prop) : σ → List α → Prop
  | _, [] => True
  | state, action :: actions => guard state action ∧ Along step guard (step state action) actions

/-- Some action of the run satisfies `event` in the state it is taken from. -/
def Occurs (step : σ → α → σ) (event : σ → α → Prop) : σ → List α → Prop
  | _, [] => False
  | state, action :: actions => event state action ∨ Occurs step event (step state action) actions

/-- Every state the run passes through, the first and the last included,
satisfies `inv`. -/
def Always (step : σ → α → σ) (inv : σ → Prop) (state : σ) (actions : List α) : Prop :=
  ∀ done, done <+: actions → inv (run step state done)

section

variable {step : σ → α → σ} {guard guard' : σ → α → Prop}

variable (state : σ)

@[simp]
theorem along_nil : Along step guard state [] :=
  trivial

@[simp]
theorem along_cons (action : α) (actions : List α) : Along step guard state (action :: actions) ↔
      guard state action ∧ Along step guard (step state action) actions :=
  Iff.rfl

instance Along.decidable [∀ state action, Decidable (guard state action)] :
    (state : σ) → (actions : List α) → Decidable (Along step guard state actions)
  | _, [] => .isTrue trivial
  | state, action :: actions =>
    have := Along.decidable (step state action) actions
    inferInstanceAs (Decidable (guard state action ∧ Along step guard (step state action) actions))

theorem Along.of_forall (all : ∀ state action, guard state action) (state : σ)
    (actions : List α) : Along step guard state actions := by
  induction actions generalizing state with
  | nil => trivial
  | cons action actions ih => exact ⟨all state action, ih (step state action)⟩

theorem Along.of_forall_mem {actions : List α}
    (all : ∀ action ∈ actions, ∀ state, guard state action) (state : σ) :
    Along step guard state actions := by
  induction actions generalizing state with
  | nil => trivial
  | cons action actions ih =>
    refine ⟨all action mem_cons_self state, ?_⟩
    exact ih (fun later member => all later (mem_cons_of_mem _ member)) (step state action)

theorem along_congr (agree : ∀ state action, guard state action ↔ guard' state action)
    (state : σ) (actions : List α) :
    Along step guard state actions ↔ Along step guard' state actions := by
  induction actions generalizing state with
  | nil => exact Iff.rfl
  | cons action actions ih => exact and_congr (agree state action) (ih (step state action))

theorem along_append (first second : List α) : Along step guard state (first ++ second) ↔
      Along step guard state first ∧ Along step guard (run step state first) second := by
  induction first generalizing state with
  | nil => simp
  | cons action first ih => simp [ih, and_assoc]

theorem along_and (actions : List α) :
    Along step (fun current action => guard current action ∧ guard' current action) state actions ↔
      Along step guard state actions ∧ Along step guard' state actions := by
  induction actions generalizing state with
  | nil => simp
  | cons action actions ih =>
    simp only [along_cons, ih]
    exact and_and_and_comm

theorem Along.of_prefix {state : σ} {done actions : List α}
    (along : Along step guard state actions) (earlier : done <+: actions) :
    Along step guard state done := by
  rcases earlier with ⟨rest, rfl⟩
  exact ((along_append state done rest).mp along).1

theorem Along.at {state : σ} {done rest : List α} {action : α}
    (along : Along step guard state (done ++ action :: rest)) :
    guard (run step state done) action :=
  ((along_append state done (action :: rest)).mp along).2.1

/-- A run is guarded exactly if it is so at each of its actions. -/
theorem along_iff_forall_at (actions : List α) : Along step guard state actions ↔
      ∀ done action, done ++ [action] <+: actions → guard (run step state done) action := by
  constructor
  · intro along done action earlier
    exact (along.of_prefix earlier).at
  · intro all
    induction actions generalizing state with
    | nil => trivial
    | cons action actions ih =>
      refine ⟨all [] action (prefix_append [action] actions), ?_⟩
      exact ih (step state action) fun done next earlier =>
        all (action :: done) next (cons_prefix_cons.mpr ⟨rfl, earlier⟩)

end

section

variable {step : σ → α → σ} {event event' : σ → α → Prop}

instance Occurs.decidable [∀ state action, Decidable (event state action)] :
    (state : σ) → (actions : List α) → Decidable (Occurs step event state actions)
  | _, [] => .isFalse id
  | state, action :: actions =>
    have := Occurs.decidable (step state action) actions
    inferInstanceAs (Decidable (event state action ∨ Occurs step event (step state action) actions))

theorem occurs_append (state : σ) (first second : List α) :
    Occurs step event state (first ++ second) ↔
      Occurs step event state first ∨ Occurs step event (run step state first) second := by
  induction first generalizing state with
  | nil => simp [Occurs]
  | cons action first ih => simp [Occurs, ih, or_assoc]

/-- The last action of a run is the event, or it occurred before. -/
theorem occurs_concat (state : σ) (actions : List α) (action : α) :
    Occurs step event state (actions ++ [action]) ↔
      Occurs step event state actions ∨ event (run step state actions) action := by
  simp [occurs_append, Occurs]

/-- An event occurs at one of the actions of a run. -/
theorem occurs_iff_exists (state : σ) (actions : List α) :
    Occurs step event state actions ↔ ∃ before action after,
      actions = before ++ action :: after ∧ event (run step state before) action := by
  constructor
  · intro occurs
    induction actions generalizing state with
    | nil => exact occurs.elim
    | cons first actions ih =>
      rcases occurs with now | later
      · exact ⟨[], first, actions, rfl, now⟩
      · rcases ih _ later with ⟨before, action, after, rfl, happens⟩
        exact ⟨first :: before, action, after, rfl, happens⟩
  · rintro ⟨before, action, after, rfl, happens⟩
    exact (occurs_append state before (action :: after)).mpr (.inr (.inl happens))

/-- An invariant that only one event may break holds when this event occurs first. -/
theorem Occurs.of_first (inv : σ → Prop)
    (preserved : ∀ state action, inv state → ¬ event state action → inv (step state action))
    (implies : ∀ state action, inv state → event state action → event' state action)
    {state : σ} {actions : List α} (occurs : Occurs step event state actions)
    (initially : inv state) : Occurs step event' state actions := by
  induction actions generalizing state with
  | nil => exact occurs
  | cons action actions ih =>
    by_cases now : event state action
    · exact .inl (implies state action initially now)
    · have later := occurs.resolve_left now
      exact .inr (ih later (preserved state action initially now))

theorem occurs_iff_of_invariant (inv : σ → Prop)
    (preserved : ∀ state action, inv state → inv (step state action))
    (agree : ∀ state action, inv state → (event state action ↔ event' state action))
    {state : σ} (initially : inv state) (actions : List α) :
    Occurs step event state actions ↔ Occurs step event' state actions := by
  induction actions generalizing state with
  | nil => exact Iff.rfl
  | cons action actions ih =>
    exact or_congr (agree state action initially) (ih (preserved state action initially))

end

section

variable {step : σ → α → σ} {inv : σ → Prop}

@[simp]
theorem always_nil (state : σ) : Always step inv state [] ↔ inv state := by
  simp [Always]

theorem always_cons (state : σ) (action : α) (actions : List α) :
    Always step inv state (action :: actions) ↔
      inv state ∧ Always step inv (step state action) actions := by
  constructor
  · intro always
    refine ⟨always [] nil_prefix, fun done earlier => ?_⟩
    exact always (action :: done) (cons_prefix_cons.mpr ⟨rfl, earlier⟩)
  · rintro ⟨now, later⟩ done earlier
    cases done with
    | nil => exact now
    | cons head done =>
      rcases cons_prefix_cons.mp earlier with ⟨rfl, tailEarlier⟩
      exact later done tailEarlier

theorem Always.last {state : σ} {actions : List α}
    (always : Always step inv state actions) : inv (run step state actions) :=
  always actions prefix_rfl

end

/-! ## Rules for invariants -/

section

variable {step : σ → α → σ} {guard guard' : σ → α → Prop} {inv : σ → Prop}

/-- The run rule: what guarded steps preserve, a guarded run preserves. -/
theorem Along.invariant
    (preserved : ∀ state action, inv state → guard state action → inv (step state action))
    {state : σ} {actions : List α} (along : Along step guard state actions)
    (initially : inv state) : inv (run step state actions) := by
  induction actions generalizing state with
  | nil => exact initially
  | cons action actions ih => exact ih along.2 (preserved state action initially along.1)

variable {state : σ} {actions : List α}

theorem Along.always
    (preserved : ∀ state action, inv state → guard state action → inv (step state action))
    (along : Along step guard state actions) (initially : inv state) :
    Always step inv state actions :=
  fun _ earlier => (along.of_prefix earlier).invariant preserved initially

theorem run_invariant (inv : σ → Prop)
    (preserved : ∀ state action, inv state → inv (step state action)) (initially : inv state)
    (actions : List α) : inv (run step state actions) := by
  induction actions generalizing state with
  | nil => exact initially
  | cons action actions ih => exact ih (preserved state action initially)

section

variable (preserved : ∀ state action, inv state → guard state action → inv (step state action))
include preserved

/-- Under an invariant that the first guard preserves, a guard may be replaced by
one that follows from it. -/
theorem Along.imp_of_invariant
    (weaken : ∀ state action, inv state → guard state action → guard' state action)
    (along : Along step guard state actions) (initially : inv state) :
    Along step guard' state actions := by
  induction actions generalizing state with
  | nil => trivial
  | cons action actions ih =>
    exact ⟨weaken state action initially along.1,
      ih along.2 (preserved state action initially along.1)⟩

theorem Along.not_occurs {event : σ → α → Prop}
    (never : ∀ state action, inv state → ¬ event state action)
    (along : Along step guard state actions) (initially : inv state) :
    ¬ Occurs step event state actions := by
  induction actions generalizing state with
  | nil => exact id
  | cons action actions ih =>
    rintro (now | later)
    · exact never state action initially now
    · exact ih along.2 (preserved state action initially along.1) later

end

/-- A guard that decides, step by step, whether `good` survives decides it for
whole runs. `inv` collects further facts that guarded steps preserve. -/
theorem always_iff_along (inv : σ → Prop) {good : σ → Prop}
    (preserved : ∀ state action, inv state → good state → guard state action →
      inv (step state action)) (exact : ∀ state action, inv state → good state →
      (good (step state action) ↔ guard state action)) (initially : inv state)
    (goodInitially : good state) (actions : List α) :
    Always step good state actions ↔ Along step guard state actions := by
  induction actions generalizing state with
  | nil => simpa using goodInitially
  | cons action actions ih =>
    rw [always_cons, along_cons]
    have stepExact := exact state action initially goodInitially
    constructor
    · rintro ⟨-, later⟩
      have goodNext : good (step state action) := later [] nil_prefix
      have allowed := stepExact.mp goodNext
      have invNext := preserved state action initially goodInitially allowed
      exact ⟨allowed, (ih invNext goodNext).mp later⟩
    · rintro ⟨allowed, later⟩
      have goodNext := stepExact.mpr allowed
      have invNext := preserved state action initially goodInitially allowed
      exact ⟨goodInitially, (ih invNext goodNext).mpr later⟩

section

variable {relation : σ → σ → Prop} (reflexive : ∀ state, relation state state)
  (transitive : ∀ first second third, relation first second → relation second third →
    relation first third)
  (kept : ∀ state action, inv state → guard state action → relation state (step state action))
  (preserved : ∀ state action, inv state → guard state action → inv (step state action))

include reflexive transitive kept preserved

theorem Along.related_run {state : σ} {actions : List α} (along : Along step guard state actions)
    (initially : inv state) : relation state (run step state actions) := by
  induction actions generalizing state with
  | nil => exact reflexive state
  | cons action actions ih =>
    have now := kept state action initially along.1
    have next := preserved state action initially along.1
    exact transitive _ _ _ now (ih along.2 next)

theorem Along.related {state : σ} {actions : List α} (along : Along step guard state actions)
    (initially : inv state) {earlier later : List α} (first : earlier <+: later)
    (second : later <+: actions) : relation (run step state earlier) (run step state later) := by
  obtain ⟨between, rfl⟩ := first
  obtain ⟨upToEarlier, afterwards⟩ :=
    (along_append state earlier between).mp (along.of_prefix second)
  rw [run_append]
  exact afterwards.related_run reflexive transitive kept preserved
    (upToEarlier.invariant preserved initially)

end

theorem along_related_iff {relation : σ → σ → Prop} (reflexive : ∀ state, relation state state)
    (transitive : ∀ first second third, relation first second → relation second third →
      relation first third) (state : σ) (actions : List α) :
    (∀ earlier later, earlier <+: later → later <+: actions →
      relation (run step state earlier) (run step state later)) ↔
      Along step (fun current action => relation current (step current action)) state actions := by
  constructor
  · intro all
    rw [along_iff_forall_at]
    intro done action earlier
    have next := all done (done ++ [action]) (prefix_append _ _) earlier
    rw [run_append] at next
    exact next
  · intro along earlier later first second
    exact @Along.related σ α step _ (fun _ => True) relation reflexive transitive
      (fun _ _ _ related => related) (fun _ _ _ _ => trivial) state actions along trivial
      earlier later first second

theorem along_iff_of_invariant (inv : σ → Prop)
    (preserved : ∀ state action, inv state → inv (step state action))
    (agree : ∀ state action, inv state → (guard state action ↔ guard' state action))
    (initially : inv state) (actions : List α) :
    Along step guard state actions ↔ Along step guard' state actions :=
  ⟨fun along => along.imp_of_invariant (fun current action holds _ =>
      preserved current action holds) (fun current action holds => (agree current action holds).mp)
      initially,
    fun along => along.imp_of_invariant (fun current action holds _ =>
      preserved current action holds)
      (fun current action holds => (agree current action holds).mpr) initially⟩

/-- What an event establishes and guarded steps keep, holds after every guarded run in
which the event occurred. -/
theorem Occurs.establishes {event : σ → α → Prop} (effect : σ → Prop)
    (preserved : ∀ state action, inv state → guard state action → inv (step state action))
    (establish : ∀ state action, inv state → guard state action → event state action →
      effect (step state action))
    (keep : ∀ state action, inv state → guard state action → effect state →
      effect (step state action)) (occurs : Occurs step event state actions)
    (along : Along step guard state actions) (initially : inv state) :
    effect (run step state actions) := by
  induction actions generalizing state with
  | nil => exact occurs.elim
  | cons action actions ih =>
    have invNext := preserved state action initially along.1
    rcases occurs with now | later
    · have keepBoth : ∀ current next, inv current ∧ effect current → guard current next →
          inv (step current next) ∧ effect (step current next) :=
        fun current next holds allowed =>
          ⟨preserved current next holds.1 allowed, keep current next holds.1 allowed holds.2⟩
      have established := establish state action initially along.1 now
      exact (along.2.invariant keepBoth ⟨invNext, established⟩).2
    · exact ih later along.2 invNext

end

/-!
## Counting what happens in a run

How often an event happens in a run is related to what the states show of it: a count that is
right at first and that each action keeps right is right at the end.
-/

section

variable (step : σ → α → σ) (event : σ → α → Prop)
variable [∀ state action, Decidable (event state action)]

/-- How many actions of the run are such an event. -/
def occurrences : σ → List α → ℕ
  | _, [] => 0
  | state, action :: actions =>
    (if event state action then 1 else 0) + occurrences (step state action) actions

variable (state : σ)

@[simp]
theorem occurrences_nil : occurrences step event state [] = 0 :=
  rfl

theorem occurrences_cons (action : α) (actions : List α) :
    occurrences step event state (action :: actions) =
      (if event state action then 1 else 0) +
        occurrences step event (step state action) actions :=
  rfl

theorem occurrences_eq_zero_iff (actions : List α) :
    occurrences step event state actions = 0 ↔ ¬ Occurs step event state actions := by
  induction actions generalizing state with
  | nil => simp [Occurs]
  | cons action actions ih => simp [occurrences_cons, Occurs, ih]

variable {step}

/-- The rule of counting: each event adds one to the count that the states show, and other
actions leave it. -/
theorem Along.counted {guard : σ → α → Prop} (shows : σ → ℕ → Prop)
    (counts : ∀ {state action count}, shows state count → guard state action →
      shows (step state action) (count + if event state action then 1 else 0))
    {state : σ} {actions : List α} {count : ℕ} (along : Along step guard state actions)
    (start : shows state count) :
    shows (run step state actions) (count + occurrences step event state actions) := by
  induction actions generalizing state count with
  | nil => exact start
  | cons action actions ih =>
    rw [run_cons, occurrences_cons, ← Nat.add_assoc]
    exact ih along.2 (counts start along.1)

end

/-!
## Actions that nobody notices

Some actions of a run are kept and their answers are looked at; the others are taken out. The
answers stay the same if there is a relation between the states of the two runs that an action
which is taken out preserves on one side alone, and one that is kept on both sides, where it
gives the same answer. This is the unwinding rule of noninterference.
-/

universe w

variable {β : Type w}

section

variable (step : σ → α → σ) (answer : σ → α → β) (kept : α → Bool)

def answers : σ → List α → List β
  | _, [] => []
  | state, action :: actions =>
    (if kept action then [answer state action] else []) ++ answers (step state action) actions

@[simp]
theorem answers_nil (state : σ) : answers step answer kept state [] = [] :=
  rfl

theorem answers_cons (state : σ) (action : α) (actions : List α) :
    answers step answer kept state (action :: actions) =
      (if kept action then [answer state action] else []) ++
        answers step answer kept (step state action) actions :=
  rfl

theorem answers_append (state : σ) (first second : List α) :
    answers step answer kept state (first ++ second) =
      answers step answer kept state first ++
        answers step answer kept (run step state first) second := by
  induction first generalizing state with
  | nil => simp
  | cons action first ih => simp [answers_cons, ih, append_assoc]

end

section

variable {step : σ → α → σ} {answer : σ → α → β} {kept : α → Bool}
variable {guard : σ → α → Prop} {related : σ → σ → Prop}

theorem answers_filter (quiet : ∀ {left right action}, related left right → guard left action →
      kept action = false → related (step left action) right)
    (loud : ∀ {left right action}, related left right → guard left action →
      kept action = true → answer left action = answer right action ∧
        related (step left action) (step right action))
    {left right : σ} {actions : List α} (start : related left right)
    (along : Along step guard left actions) : answers step answer kept left actions =
      answers step answer kept right (actions.filter kept) := by
  induction actions generalizing left right with
  | nil => rfl
  | cons action actions ih =>
    rcases along with ⟨met, rest⟩
    cases isKept : kept action with
    | true =>
      rcases loud start met isKept with ⟨same, next⟩
      simp [answers_cons, isKept, same, ih next rest]
    | false =>
      have next := quiet start met isKept
      simp [answers_cons, isKept, ih next rest]

end

end AgenticOS.Transition
