import Mathlib.Algebra.GroupWithZero.Nat
import Mathlib.Data.List.Basic

/-!
# Processes over a shared store

A pool is a store together with the processes that work on it. A process runs
without interruption from one suspension to the next: `next` takes the store and
the suspended process to the store and the process at its next suspension. Processes
are addressed by their position and never removed, so a process that is over is one
whose continuation changes nothing.

What a process knows about itself survives the continuations of all others. What it
knows about the store is only kept while it is alone; the counting rule at the end
bounds the number of processes of a kind.
-/

namespace AgenticOS.Transition

open List

universe u v

variable {σ : Type u} {π : Type v}

structure Pool (σ : Type u) (π : Type v) where
  store : σ
  processes : List π

namespace Pool

/-- Continue the process at a position; there may be none. -/
def resume (next : σ → π → σ × π) (pool : Pool σ π) (index : Nat) : Pool σ π :=
  match pool.processes[index]? with
  | none => pool
  | some process =>
    let (store, process) := next pool.store process
    { store, processes := pool.processes.set index process }

def spawn (pool : Pool σ π) (store : σ) (process : π) : Pool σ π where
  store := store
  processes := pool.processes ++ [process]

variable {next : σ → π → σ × π}

variable {index : Nat} {pool : Pool σ π}

theorem resume_of_none (absent : pool.processes[index]? = none) :
    pool.resume next index = pool := by
  unfold resume
  rw [absent]

variable {process : π}

theorem resume_of_some (present : pool.processes[index]? = some process) :
    pool.resume next index =
      { store := (next pool.store process).1
        processes := pool.processes.set index (next pool.store process).2 } := by
  unfold resume
  rw [present]

theorem resume_of_over (finished : ∀ process, pool.processes[index]? = some process →
      next pool.store process = (pool.store, process)) : pool.resume next index = pool := by
  cases lookup : pool.processes[index]? with
  | none => exact resume_of_none lookup
  | some process =>
    rw [resume_of_some lookup, finished process lookup]
    obtain ⟨inside, rfl⟩ := List.getElem?_eq_some_iff.mp lookup
    simp

theorem over_of_resume_eq (unchanged : pool.resume next index = pool)
    (present : pool.processes[index]? = some process) :
    next pool.store process = (pool.store, process) := by
  rw [resume_of_some present] at unchanged
  have store : (next pool.store process).1 = pool.store := congrArg Pool.store unchanged
  have processes : pool.processes.set index (next pool.store process).2 = pool.processes :=
    congrArg Pool.processes unchanged
  have inside : index < pool.processes.length := (List.getElem?_eq_some_iff.mp present).1
  rw [← processes, getElem?_set_self inside] at present
  exact Prod.ext store (Option.some.inj present)

/-- The rule for facts about the store and about each process by itself. -/
theorem resume_invariant {inv : σ → Prop} {own : π → Prop}
    (preserved : ∀ store process, inv store → own process →
      inv (next store process).1 ∧ own (next store process).2) (index : Nat)
    (initially : inv pool.store ∧ ∀ process ∈ pool.processes, own process) :
    inv (pool.resume next index).store ∧
      ∀ process ∈ (pool.resume next index).processes, own process := by
  cases lookup : pool.processes[index]? with
  | none =>
    rw [resume_of_none lookup]
    exact initially
  | some process =>
    rw [resume_of_some lookup]
    have holds := preserved pool.store process initially.1
      (initially.2 process (mem_of_getElem? lookup))
    constructor
    · exact holds.1
    · intro other member
      rcases mem_or_eq_of_mem_set member with old | rfl
      · exact initially.2 other old
      · exact holds.2

theorem spawn_invariant {own : π → Prop} (store : σ)
    (initially : ∀ process ∈ pool.processes, own process) (started : own process) :
    ∀ other ∈ (pool.spawn store process).processes, own other := by
  intro other member
  rcases mem_append.mp member with old | new
  · exact initially other old
  · have same : other = process := mem_singleton.mp new
    rw [same]
    exact started

def count (kind : π → Bool) (pool : Pool σ π) : Nat :=
  pool.processes.countP kind

@[simp]
theorem count_spawn (kind : π → Bool) (pool : Pool σ π) (store : σ) (process : π) :
    (pool.spawn store process).count kind =
      pool.count kind + if kind process then 1 else 0 := by
  unfold count spawn
  rw [countP_append, countP_singleton]

theorem count_resume_add (next : σ → π → σ × π) (kind : π → Bool)
    (present : pool.processes[index]? = some process) :
    (pool.resume next index).count kind + (if kind process then 1 else 0) =
      pool.count kind + if kind (next pool.store process).2 then 1 else 0 := by
  rw [resume_of_some present]
  unfold count
  obtain ⟨inside, rfl⟩ := List.getElem?_eq_some_iff.mp present
  rw [countP_set inside]
  have counted : (if kind pool.processes[index] then 1 else 0) ≤ pool.processes.countP kind := by
    by_cases isKind : kind pool.processes[index]
    · rw [if_pos isKind]
      exact countP_pos_iff.mpr ⟨_, getElem_mem inside, isKind⟩
    · rw [if_neg isKind]
      exact Nat.zero_le _
  omega

variable {kind : π → Bool}

theorem count_resume_le (index : Nat)
    (closed : ∀ store process, kind (next store process).2 → kind process) :
    (pool.resume next index).count kind ≤ pool.count kind := by
  cases lookup : pool.processes[index]? with
  | none => exact Nat.le_of_eq (congrArg (count kind) (resume_of_none lookup))
  | some process =>
    have counted := count_resume_add next kind lookup
    by_cases after : kind (next pool.store process).2
    · rw [if_pos after, if_pos (closed pool.store process after)] at counted
      exact Nat.le_of_eq (Nat.add_right_cancel counted)
    · rw [if_neg after] at counted
      exact Nat.le_of_add_right_le (Nat.le_of_eq counted)

/-- Where each continuation changes a measure of the store by as much as the number of
processes of a kind, the two stay equal. -/
theorem count_resume {measure : σ → Nat} (index : Nat) (balanced : ∀ process ∈ pool.processes,
      measure (next pool.store process).1 + (if kind process then 1 else 0) =
        measure pool.store + if kind (next pool.store process).2 then 1 else 0)
    (initially : pool.count kind = measure pool.store) :
    (pool.resume next index).count kind = measure (pool.resume next index).store := by
  cases lookup : pool.processes[index]? with
  | none =>
    rw [resume_of_none lookup]
    exact initially
  | some process =>
    have counted := count_resume_add next kind lookup
    have balance := balanced process (mem_of_getElem? lookup)
    have store : (pool.resume next index).store = (next pool.store process).1 :=
      congrArg Pool.store (resume_of_some lookup)
    rw [store]
    omega

/-- The rule for facts that relate each process to the store, where the continuation of one
keeps the facts about the others. -/
theorem resume_framed {own : σ → π → Prop} (index : Nat)
    (preserved : ∀ process, pool.processes[index]? = some process → own pool.store process →
      own (next pool.store process).1 (next pool.store process).2)
    (frame : ∀ position process other, pool.processes[index]? = some process →
      pool.processes[position]? = some other → index ≠ position → own pool.store other →
      own (next pool.store process).1 other)
    (initially : ∀ process ∈ pool.processes, own pool.store process) :
    ∀ process ∈ (pool.resume next index).processes, own (pool.resume next index).store process := by
  cases lookup : pool.processes[index]? with
  | none =>
    rw [resume_of_none lookup]
    exact initially
  | some process =>
    rw [resume_of_some lookup]
    intro other member
    obtain ⟨position, present⟩ := mem_iff_getElem?.mp member
    rw [getElem?_set] at present
    by_cases same : index = position
    · have inside : index < pool.processes.length := (List.getElem?_eq_some_iff.mp lookup).1
      rw [if_pos same, if_pos inside] at present
      cases present
      exact preserved process lookup (initially process (mem_of_getElem? lookup))
    · rw [if_neg same] at present
      exact frame position process other lookup present same
        (initially other (mem_of_getElem? present))

def total (weight : π → Nat) (pool : Pool σ π) : Nat :=
  (pool.processes.map weight).sum

@[simp]
theorem total_spawn (weight : π → Nat) (pool : Pool σ π) (store : σ) (process : π) :
    (pool.spawn store process).total weight = pool.total weight + weight process := by
  simp [total, spawn]

theorem total_resume (weight : π → Nat) (present : pool.processes[index]? = some process) :
    (pool.resume next index).total weight + weight process =
      pool.total weight + weight (next pool.store process).2 := by
  rw [resume_of_some present]
  unfold total
  generalize pool.processes = processes at present
  induction processes generalizing index with
  | nil => simp at present
  | cons head processes ih =>
    cases index with
    | zero =>
      obtain rfl : head = process := by simpa using present
      simp only [set_cons_zero, map_cons, sum_cons]
      omega
    | succ index =>
      have tail := ih (by simpa using present)
      simp only [set_cons_succ, map_cons, sum_cons] at tail ⊢
      omega

theorem eq_of_count_le_one (few : pool.count kind ≤ 1) {first second : Nat} {left right : π}
    (atFirst : pool.processes[first]? = some left)
    (atSecond : pool.processes[second]? = some right) (isLeft : kind left) (isRight : kind right) :
    first = second := by
  unfold count at few
  generalize pool.processes = processes at few atFirst atSecond
  induction processes generalizing first second with
  | nil => simp at atFirst
  | cons head processes ih =>
    have noneLater : kind head → ∀ (index : Nat) (process : π),
        processes[index]? = some process → ¬ kind process := by
      intro isHead index process present isKind
      rw [countP_cons_of_pos isHead] at few
      have positive : 0 < processes.countP kind :=
        countP_pos_iff.mpr ⟨process, mem_of_getElem? present, isKind⟩
      omega
    have fewLater : processes.countP kind ≤ 1 :=
      Nat.le_trans (List.Sublist.countP_le (sublist_cons_self head processes)) few
    cases first with
    | zero =>
      cases second with
      | zero => rfl
      | succ second =>
        obtain rfl : head = left := by simpa using atFirst
        exact absurd isRight (noneLater isLeft second right (by simpa using atSecond))
    | succ first =>
      cases second with
      | zero =>
        obtain rfl : head = right := by simpa using atSecond
        exact absurd isLeft (noneLater isRight first left (by simpa using atFirst))
      | succ second =>
        have same : first = second := ih fewLater (by simpa using atFirst) (by simpa using atSecond)
        rw [same]

/-- The rule for facts that relate a process to the store, where at most one process is of
a kind: processes of other kinds need no such fact and do not write to the store. -/
theorem resume_alone {own : σ → π → Prop}
    (free : ∀ store process, ¬ kind process → own store process)
    (passive : ∀ store process, ¬ kind process →
      (next store process).1 = store ∧ ¬ kind (next store process).2)
    (preserved : ∀ store process, kind process → own store process →
      own (next store process).1 (next store process).2) (index : Nat) (few : pool.count kind ≤ 1)
    (initially : ∀ process ∈ pool.processes, own pool.store process) :
    (pool.resume next index).count kind ≤ 1 ∧
      ∀ process ∈ (pool.resume next index).processes,
        own (pool.resume next index).store process := by
  have closed : ∀ store process, kind (next store process).2 → kind process := by
    intro store process after
    by_contra before
    exact (passive store process before).2 after
  constructor
  · exact Nat.le_trans (count_resume_le index closed) few
  refine resume_framed index ?_ ?_ initially
  · intro process _ holds
    by_cases isKind : kind process
    · exact preserved pool.store process isKind holds
    · exact free _ _ (passive pool.store process isKind).2
  · intro position process other lookup present apart holds
    by_cases isKind : kind process
    · have otherKind : ¬ kind other := fun isOther =>
        apart (eq_of_count_le_one few lookup present isKind isOther)
      exact free _ other otherKind
    · rw [(passive pool.store process isKind).1]
      exact holds

end Pool

end AgenticOS.Transition
