import Mathlib.Algebra.Order.Ring.Int
import Mathlib.Data.Finset.Card

/-!
# Breadth-first search

A search for a path with a queue of paths, each with its last item. Items are put into the
queue at most once, paths of more than `limit` items are not extended, and the search ends with
the first path to the target.

The queue holds paths of at most two lengths, the shorter ones first. What is nearer than
these has been visited, so that the path that is found is a shortest one.
-/

namespace AgenticOS.BreadthFirst

open List

universe u

variable {α : Type u} [DecidableEq α]

/-- The search among the successors of the last item of a path: the path to the target, or
else what has been visited and what is in the queue by then. -/
def expand (target : α) (path : List α) :
    List α → Finset α → List (α × List α) → List α ⊕ Finset α × List (α × List α)
  | [], visited, queue => .inr (visited, queue)
  | item :: rest, visited, queue =>
    if item = target then .inl (path ++ [item])
    else if item ∈ visited then expand target path rest visited queue
    else expand target path rest (insert item visited) (queue ++ [(item, path ++ [item])])

def search (next : α → List α) (target : α) (limit : ℤ) :
    Nat → Finset α → List (α × List α) → Option (List α)
  | _, _, [] => some []
  | 0, _, _ :: _ => none
  | fuel + 1, visited, (current, path) :: queue =>
    if limit < path.length then search next target limit fuel visited queue
    else
      match expand target path (next current) visited queue with
      | .inl found => some found
      | .inr (visited, queue) => search next target limit fuel visited queue

section

variable (edge : α → α → Prop) (source : α)

def Steps : Nat → α → Prop
  | 0, item => item = source
  | count + 1, item => ∃ before, Steps count before ∧ edge before item

inductive Path : List α → α → Prop
  | start : Path [source] source
  | step {path : List α} {before item : α} (earlier : Path path before)
      (joined : edge before item) : Path (path ++ [item]) item

variable {edge source} {item : α}

omit [DecidableEq α] in
theorem Path.steps {path : List α} (isPath : Path edge source path item) :
    ∃ count, path.length = count + 1 ∧ Steps edge source count item := by
  induction isPath with
  | start => exact ⟨0, rfl, rfl⟩
  | step earlier joined hypothesis =>
    obtain ⟨count, length, steps⟩ := hypothesis
    exact ⟨count + 1, by simp [length], _, steps, joined⟩

end

abbrev Successor (next : α → List α) (before item : α) : Prop :=
  item ∈ next before

section

variable {target : α} {path items : List α} {visited : Finset α} {queue : List (α × List α)}

theorem expand_of_mem (member : target ∈ items) :
    expand target path items visited queue = .inl (path ++ [target]) := by
  induction items generalizing visited queue with
  | nil => cases member
  | cons item rest hypothesis =>
    unfold expand
    split
    next same => rw [same]
    next distinct =>
      have later := (mem_cons.mp member).resolve_left (Ne.symm distinct)
      split
      next => exact hypothesis later
      next => exact hypothesis later

theorem expand_of_not_mem (absent : target ∉ items) : ∃ added : List α,
      expand target path items visited queue =
        .inr (visited ∪ added.toFinset, queue ++ added.map fun item => (item, path ++ [item])) ∧
      added.Nodup ∧ ∀ item, item ∈ added ↔ item ∈ items ∧ item ∉ visited := by
  induction items generalizing visited queue with
  | nil => exact ⟨[], by simp [expand], nodup_nil, by simp⟩
  | cons item rest hypothesis =>
    have distinct : target ≠ item := fun same => absent (same ▸ mem_cons_self)
    replace absent : target ∉ rest := fun member => absent (mem_cons_of_mem item member)
    unfold expand
    rw [if_neg (Ne.symm distinct)]
    split
    next seen =>
      obtain ⟨added, expanded, nodup, members⟩ := @hypothesis visited queue absent
      refine ⟨added, expanded, nodup, fun other => ?_⟩
      rw [members, mem_cons]
      constructor
      · exact fun isNew => ⟨.inr isNew.1, isNew.2⟩
      · rintro ⟨rfl | later, isNew⟩
        · exact absurd seen isNew
        · exact ⟨later, isNew⟩
    next unseen =>
      obtain ⟨added, expanded, nodup, members⟩ :=
        @hypothesis (insert item visited) (queue ++ [(item, path ++ [item])]) absent
      refine ⟨item :: added, ?_, ?_, fun other => ?_⟩
      · rw [expanded]
        simp
      · refine nodup_cons.mpr ⟨fun member => ?_, nodup⟩
        exact ((members item).mp member).2 (Finset.mem_insert_self item visited)
      · rw [mem_cons, members, mem_cons, Finset.mem_insert]
        constructor
        · rintro (rfl | ⟨later, isNew⟩)
          · exact ⟨.inl rfl, unseen⟩
          · exact ⟨.inr later, fun before => isNew (.inr before)⟩
        · rintro ⟨rfl | later, isNew⟩
          · exact .inl rfl
          · by_cases same : other = item
            · exact .inl same
            · exact .inr ⟨later, fun before => before.elim same isNew⟩

end

variable {next : α → List α} {source target : α} {limit : ℤ}

structure Frontier (next : α → List α) (source target : α) (length : Nat) (visited : Finset α)
    (queue : List (α × List α)) : Prop where
  positive : 0 < length
  unfound : target ∉ visited
  paths : ∀ entry ∈ queue, entry.1 ∈ visited ∧ Path (Successor next) source entry.2 entry.1
  lengths : ∃ now later, queue = now ++ later ∧ (∀ entry ∈ now, entry.2.length = length) ∧
    ∀ entry ∈ later, entry.2.length = length + 1
  shortest : ∀ entry ∈ queue, ∀ count, Steps (Successor next) source count entry.1 →
    entry.2.length ≤ count + 1
  near : ∀ count item, count < length → Steps (Successor next) source count item → item ∈ visited
  expanded : ∀ item ∈ visited, (∃ path, (item, path) ∈ queue) ∨ ∀ other ∈ next item, other ∈ visited

variable {length : Nat} {visited : Finset α} {queue : List (α × List α)}

omit [DecidableEq α] in
theorem frontier_start (distinct : target ≠ source) :
    Frontier next source target 1 {source} [(source, [source])] where
  positive := Nat.one_pos
  unfound := by simpa using distinct
  paths := by simpa using Path.start
  lengths := ⟨[(source, [source])], [], by simp⟩
  shortest := by simp
  near := by
    rintro count item few steps
    obtain rfl := Nat.lt_one_iff.mp few
    simpa using (show item = source from steps)
  expanded := by
    intro item member
    rw [Finset.mem_singleton.mp member]
    exact .inl ⟨[source], mem_cons_self⟩

theorem Frontier.advance (frontier : Frontier next source target length visited queue)
    (longer : ∀ entry ∈ queue, entry.2.length = length + 1) :
    Frontier next source target (length + 1) visited queue where
  positive := Nat.succ_pos length
  unfound := frontier.unfound
  paths := frontier.paths
  lengths := ⟨queue, [], (append_nil queue).symm, longer, fun _ member => nomatch member⟩
  shortest := frontier.shortest
  near := by
    intro count item few steps
    by_cases nearer : count < length
    · exact frontier.near count item nearer steps
    · obtain rfl : count = length := by omega
      obtain ⟨count, rfl⟩ := Nat.exists_eq_succ_of_ne_zero frontier.positive.ne'
      obtain ⟨before, steps, edge⟩ := steps
      have visitedBefore := frontier.near count before (Nat.lt_succ_self count) steps
      rcases frontier.expanded before visitedBefore with ⟨path, queued⟩ | all
      · have atMost := frontier.shortest _ queued count steps
        have isLonger := longer _ queued
        omega
      · exact all item edge
  expanded := frontier.expanded

omit [DecidableEq α] in
theorem Frontier.visited_of_empty (frontier : Frontier next source target length visited [])
    {count : Nat} {item : α} (steps : Steps (Successor next) source count item) :
    item ∈ visited := by
  induction count generalizing item with
  | zero => exact frontier.near 0 item frontier.positive steps
  | succ count hypothesis =>
    obtain ⟨before, steps, edge⟩ := steps
    rcases frontier.expanded before (hypothesis steps) with ⟨path, queued⟩ | all
    · cases queued
    · exact all item edge

section

variable {current : α} {path : List α}
  (frontier : Frontier next source target length visited ((current, path) :: queue))
include frontier

omit [DecidableEq α] in
theorem Frontier.lengths_tail (first : path.length = length) :
    ∃ now later, queue = now ++ later ∧ (∀ entry ∈ now, entry.2.length = length) ∧
      ∀ entry ∈ later, entry.2.length = length + 1 := by
  obtain ⟨now, later, queued, short, long⟩ := frontier.lengths
  cases now with
  | nil =>
    rw [nil_append] at queued
    have longer := long (current, path) (queued ▸ mem_cons_self)
    exact absurd (longer.symm.trans first) (Nat.succ_ne_self length)
  | cons head now =>
    obtain ⟨-, rfl⟩ := List.cons.inj queued
    exact ⟨now, later, rfl, fun entry member => short entry (mem_cons_of_mem _ member), long⟩

theorem Frontier.expand {added : List α} (first : path.length = length)
    (absent : target ∉ next current)
    (members : ∀ item, item ∈ added ↔ item ∈ next current ∧ item ∉ visited) :
    Frontier next source target length (visited ∪ added.toFinset)
      (queue ++ added.map fun item => (item, path ++ [item])) := by
  obtain ⟨-, isPath⟩ := frontier.paths (current, path) mem_cons_self
  have fresh : ∀ entry ∈ added.map fun item => (item, path ++ [item]),
      entry.1 ∈ next current ∧ entry.1 ∉ visited ∧ entry.2 = path ++ [entry.1] := by
    intro entry member
    obtain ⟨item, isAdded, rfl⟩ := mem_map.mp member
    exact ⟨((members item).mp isAdded).1, ((members item).mp isAdded).2, rfl⟩
  have successors : ∀ item ∈ next current, item ∈ visited ∪ added.toFinset := by
    intro item edge
    by_cases seen : item ∈ visited
    · exact Finset.mem_union_left _ seen
    · exact Finset.mem_union_right _ (mem_toFinset.mpr ((members item).mpr ⟨edge, seen⟩))
  refine ⟨frontier.positive, ?_, ?_, ?_, ?_, ?_, ?_⟩
  · rw [Finset.mem_union, mem_toFinset, members]
    rintro (seen | ⟨edge, -⟩)
    · exact frontier.unfound seen
    · exact absent edge
  · intro entry member
    rcases mem_append.mp member with queued | isNew
    · obtain ⟨seen, isPathTo⟩ := frontier.paths entry (mem_cons_of_mem _ queued)
      exact ⟨Finset.mem_union_left _ seen, isPathTo⟩
    · obtain ⟨edge, -, same⟩ := fresh entry isNew
      refine ⟨successors entry.1 edge, ?_⟩
      rw [same]
      exact isPath.step edge
  · obtain ⟨now, later, rfl, short, long⟩ := frontier.lengths_tail first
    refine ⟨now, later ++ added.map fun item => (item, path ++ [item]), append_assoc .., short, ?_⟩
    intro entry member
    rcases mem_append.mp member with isLater | isNew
    · exact long entry isLater
    · rw [(fresh entry isNew).2.2, length_append, length_singleton, first]
  · intro entry member count steps
    rcases mem_append.mp member with queued | isNew
    · exact frontier.shortest entry (mem_cons_of_mem _ queued) count steps
    · obtain ⟨-, unseen, same⟩ := fresh entry isNew
      have far : ¬ count < length := fun few => unseen (frontier.near count entry.1 few steps)
      rw [same, length_append, length_singleton, first]
      omega
  · exact fun count item few steps =>
      Finset.mem_union_left _ (frontier.near count item few steps)
  · intro item member
    rcases Finset.mem_union.mp member with seen | isNew
    · rcases frontier.expanded item seen with ⟨other, queued⟩ | all
      · rcases mem_cons.mp queued with same | later
        · cases same
          exact .inr successors
        · exact .inl ⟨other, mem_append_left _ later⟩
      · exact .inr fun other edge => Finset.mem_union_left _ (all other edge)
    · refine .inl ⟨path ++ [item], mem_append_right _ ?_⟩
      exact mem_map_of_mem (mem_toFinset.mp isNew)

theorem Frontier.at_first :
    Frontier next source target path.length visited ((current, path) :: queue) ∧
      ∀ entry ∈ queue, path.length ≤ entry.2.length := by
  obtain ⟨now, later, queued, short, long⟩ := frontier.lengths
  cases now with
  | nil =>
    have longer : ∀ entry ∈ (current, path) :: queue, entry.2.length = length + 1 := by
      rw [queued]
      exact long
    have first := longer (current, path) mem_cons_self
    refine ⟨?_, fun entry member => ?_⟩
    · rw [show path.length = length + 1 from first]
      exact frontier.advance longer
    · exact (first.trans (longer entry (mem_cons_of_mem _ member)).symm).le
  | cons head now =>
    obtain ⟨rfl, rfl⟩ := List.cons.inj queued
    have first : path.length = length := short (current, path) mem_cons_self
    refine ⟨first ▸ frontier, fun entry member => ?_⟩
    rcases mem_append.mp member with isNow | isLater
    · exact (first.trans (short entry (mem_cons_of_mem _ isNow)).symm).le
    · rw [first, long entry isLater]
      exact Nat.le_succ length

end

variable {result : List α}

theorem search_of_long {fuel : Nat} (long : ∀ entry ∈ queue, limit < entry.2.length)
    (searched : search next target limit fuel visited queue = some result) : result = [] := by
  induction fuel generalizing queue with
  | zero =>
    cases queue with
    | nil => exact (Option.some.inj searched).symm
    | cons entry queue => cases searched
  | succ fuel hypothesis =>
    cases queue with
    | nil => exact (Option.some.inj searched).symm
    | cons entry queue =>
      unfold search at searched
      rw [if_pos (long entry mem_cons_self)] at searched
      exact hypothesis (fun other member => long other (mem_cons_of_mem _ member)) searched

/-- What the search finds is a shortest path within the limit; without a result there is no path
within the limit. -/
theorem Frontier.search {fuel : Nat} (frontier : Frontier next source target length visited queue)
    (searched : BreadthFirst.search next target limit fuel visited queue = some result) :
    (result = [] ∧ ∀ count : Nat, count ≤ limit → ¬ Steps (Successor next) source count target) ∨
    (Path (Successor next) source result target ∧ result.length ≤ limit + 1 ∧
      ∀ count, Steps (Successor next) source count target → result.length ≤ count + 1) := by
  induction fuel generalizing length visited queue with
  | zero =>
    cases queue with
    | nil =>
      refine .inl ⟨(Option.some.inj searched).symm, fun count _ steps => ?_⟩
      exact frontier.unfound (frontier.visited_of_empty steps)
    | cons entry queue => cases searched
  | succ fuel hypothesis =>
    cases queue with
    | nil =>
      refine .inl ⟨(Option.some.inj searched).symm, fun count _ steps => ?_⟩
      exact frontier.unfound (frontier.visited_of_empty steps)
    | cons entry queue =>
      obtain ⟨current, path⟩ := entry
      obtain ⟨atFirst, shorter⟩ := frontier.at_first
      have far : ∀ count, Steps (Successor next) source count target → path.length ≤ count := by
        intro count steps
        by_contra few
        exact atFirst.unfound (atFirst.near count target (Nat.lt_of_not_le few) steps)
      unfold BreadthFirst.search at searched
      split at searched
      next long =>
        refine .inl ⟨search_of_long (fun entry member => ?_) searched, ?_⟩
        · have := shorter entry member
          omega
        · intro count within steps
          have := far count steps
          omega
      next short =>
        by_cases found : target ∈ next current
        · rw [expand_of_mem found] at searched
          obtain rfl := Option.some.inj searched
          refine .inr ⟨(atFirst.paths _ mem_cons_self).2.step found, ?_, ?_⟩
          · rw [length_append, length_singleton]
            omega
          · intro count steps
            rw [length_append, length_singleton]
            exact Nat.succ_le_succ (far count steps)
        · obtain ⟨added, expanded, -, members⟩ :=
            @expand_of_not_mem α _ target path (next current) visited queue found
          rw [expanded] at searched
          exact hypothesis (atFirst.expand rfl found members) searched

/-- The search from a source finds a shortest path within the limit, if there is a path within
the limit. -/
theorem search_spec {fuel : Nat} (distinct : target ≠ source)
    (searched : search next target limit fuel {source} [(source, [source])] = some result) :
    (result = [] ∧ ∀ path, Path (Successor next) source path target → limit + 1 < path.length) ∨
    (Path (Successor next) source result target ∧ result.length ≤ limit + 1 ∧
      ∀ path, Path (Successor next) source path target → result.length ≤ path.length) := by
  rcases (frontier_start distinct).search searched with ⟨empty, none⟩ | ⟨isPath, within, shortest⟩
  · refine .inl ⟨empty, fun path isPath => ?_⟩
    obtain ⟨count, length, steps⟩ := isPath.steps
    by_contra near
    exact none count (by omega) steps
  · refine .inr ⟨isPath, within, fun path other => ?_⟩
    obtain ⟨count, length, steps⟩ := other.steps
    exact length ▸ shortest count steps

theorem isSome_search {fuel : Nat} {items : Finset α}
    (closed : ∀ item, ∀ other ∈ next item, other ∈ items)
    (enough : queue.length + (items \ visited).card ≤ fuel) :
    (search next target limit fuel visited queue).isSome := by
  induction fuel generalizing visited queue with
  | zero =>
    cases queue with
    | nil => rfl
    | cons entry queue => simp at enough
  | succ fuel hypothesis =>
    cases queue with
    | nil => rfl
    | cons entry queue =>
      obtain ⟨current, path⟩ := entry
      rw [length_cons] at enough
      unfold search
      split
      next => exact hypothesis (by omega)
      next =>
        by_cases found : target ∈ next current
        · rw [expand_of_mem found]
          rfl
        · obtain ⟨added, expanded, nodup, members⟩ :=
            @expand_of_not_mem α _ target path (next current) visited queue found
          rw [expanded]
          have fewer : (items \ (visited ∪ added.toFinset)).card + added.length =
              (items \ visited).card := by
            have subset : added.toFinset ⊆ items \ visited := by
              intro item isAdded
              obtain ⟨edge, unseen⟩ := (members item).mp (mem_toFinset.mp isAdded)
              exact Finset.mem_sdiff.mpr ⟨closed current item edge, unseen⟩
            have counted := Finset.card_sdiff_add_card_eq_card subset
            rw [toFinset_card_of_nodup nodup] at counted
            rw [← counted]
            exact congrArg (fun left : Finset α => left.card + added.length) sdiff_sdiff_left.symm
          refine hypothesis ?_
          rw [length_append, length_map]
          omega

end AgenticOS.BreadthFirst
