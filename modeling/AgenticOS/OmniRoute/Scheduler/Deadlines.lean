import Mathlib.Data.Prod.Lex
import AgenticOS.OmniRoute.Scheduler
import AgenticOS.Transition.Run

/-!
# Earliest deadline first

What the heap by deadline is for: a list of entries in the order in which they were pushed,
from which the first one with the earliest deadline is taken. The heap answers like this
list as long as it is a heap. Removing an item closes the gap in the array without sifting,
and the entries behind it get other parents.
-/

namespace AgenticOS.OmniRoute

open AgenticOS.Transition List Heapq

def QueueEntry.due (entry : QueueEntry) : WithTop ℚ :=
  match entry.deadlineMs with
  | some deadline => (deadline : WithTop ℚ)
  | none => ⊤

inductive DeadlineCall
  | push (entry : QueueEntry)
  | pop
  | remove (id : Nat)
  | expired (now : ℚ)

inductive DeadlineAnswer
  | pushed
  | popped (entry : Option QueueEntry)
  | removed (found : Bool)
  | expired (entries : List QueueEntry)
  deriving DecidableEq

inductive DeadlineAnswer.Equivalent : DeadlineAnswer → DeadlineAnswer → Prop
  | refl (answer : DeadlineAnswer) : Equivalent answer answer
  | expired {left right : List QueueEntry} (same : left.Perm right) :
      Equivalent (.expired left) (.expired right)

/-- The first entry with the earliest deadline, and the entries left without it. -/
def takeEarliest : List QueueEntry → Option (QueueEntry × List QueueEntry)
  | [] => none
  | entry :: entries =>
    match takeEarliest entries with
    | none => some (entry, [])
    | some (earliest, rest) =>
      if earliest.due < entry.due then some (earliest, entry :: rest)
      else some (entry, entries)

def answerInOrder (present : List QueueEntry) : DeadlineCall → DeadlineAnswer × List QueueEntry
  | .push entry => (.pushed, present ++ [entry])
  | .pop =>
    match takeEarliest present with
    | none => (.popped none, present)
    | some (entry, rest) => (.popped (some entry), rest)
  | .remove id =>
    (.removed (present.any fun entry => entry.item.id = id),
      present.filter fun entry => entry.item.id ≠ id)
  | .expired now =>
    (.expired (present.filter fun entry => entry.due ≤ now),
      present.filter fun entry => ¬ entry.due ≤ now)

theorem takeEarliest_eq_none_iff {entries : List QueueEntry} :
    takeEarliest entries = none ↔ entries = [] := by
  cases entries with
  | nil => simp [takeEarliest]
  | cons entry entries =>
    rw [takeEarliest]
    split
    · simp
    · split
      · simp
      · simp

theorem takeEarliest_minimal {entries rest : List QueueEntry} {earliest : QueueEntry}
    (taken : takeEarliest entries = some (earliest, rest)) :
    ∃ before behind, entries = before ++ earliest :: behind ∧ rest = before ++ behind ∧
      (∀ entry ∈ before, earliest.due < entry.due) ∧
      ∀ entry ∈ behind, earliest.due ≤ entry.due := by
  induction entries generalizing earliest rest with
  | nil => cases taken
  | cons entry entries ih =>
    rw [takeEarliest] at taken
    cases later : takeEarliest entries with
    | none =>
      have empty := takeEarliest_eq_none_iff.mp later
      rw [later] at taken
      cases taken
      exact ⟨[], [], by rw [empty]; rfl, rfl, by simp, by simp⟩
    | some found =>
      rcases found with ⟨candidate, others⟩
      rcases ih later with ⟨before, behind, split_, kept, earlier, notLater⟩
      rw [later] at taken
      dsimp only at taken
      split at taken
      next sooner =>
        cases taken
        refine ⟨entry :: before, behind, by rw [split_]; rfl, by rw [kept]; rfl, ?_, notLater⟩
        intro other member
        rcases mem_cons.mp member with rfl | inside
        · exact sooner
        · exact earlier other inside
      next notSooner =>
        cases taken
        refine ⟨[], entries, rfl, rfl, by simp, ?_⟩
        intro other member
        have bound : entry.due ≤ candidate.due := not_lt.mp notSooner
        rw [split_] at member
        rcases mem_append.mp member with inside | at_
        · exact bound.trans (earlier other inside).le
        · rcases mem_cons.mp at_ with rfl | inside
          · exact bound
          · exact bound.trans (notLater other inside)

namespace EDFQueue

/-- The place of a heap entry: its deadline, then its number. -/
def key (slot : WithTop ℚ × Nat × QueueEntry) : WithTop ℚ ×ₗ ℕ :=
  toLex (slot.1, slot.2.1)

def answer (queue : EDFQueue) : DeadlineCall → DeadlineAnswer × EDFQueue
  | .push entry => (.pushed, queue.push entry)
  | .pop =>
    let (entry, queue) := queue.pop
    (.popped entry, queue)
  | .remove id =>
    let (found, queue) := queue.remove id
    (.removed found, queue)
  | .expired now =>
    let (entries, queue) := queue.expired now
    (.expired entries, queue)

def lockstep (state : EDFQueue × List QueueEntry) (call : DeadlineCall) :
    EDFQueue × List QueueEntry :=
  ((state.1.answer call).2, (answerInOrder state.2 call).2)

/-- Where an item is removed, the entries of the others form a heap in the order in which
they stand in the array. -/
def KeepsOrder (state : EDFQueue × List QueueEntry) (call : DeadlineCall) : Prop :=
  match call with
  | .remove id => Heapq.IsHeap key (state.1.heap.filter fun slot => slot.2.2.item.id ≠ id)
  | .push _ | .pop | .expired _ => True

instance (state : EDFQueue × List QueueEntry) (call : DeadlineCall) :
    Decidable (KeepsOrder state call) :=
  match call with
  | .remove id => inferInstanceAs (Decidable (Heapq.IsHeap key
      (state.1.heap.filter fun slot => slot.2.2.item.id ≠ id)))
  | .push _ | .pop | .expired _ => inferInstanceAs (Decidable True)

variable {left right : WithTop ℚ × Nat × QueueEntry}

theorem key_lt_iff :
    key left < key right ↔ left.1 < right.1 ∨ (left.1 = right.1 ∧ left.2.1 < right.2.1) :=
  Prod.Lex.toLex_lt_toLex

theorem before_eq_true_iff (left right : WithTop ℚ × Nat × QueueEntry) :
    before left right = true ↔ key left < key right := by
  rw [key_lt_iff]
  exact decide_eq_true_iff

theorem fst_le_of_key_le (places : key left ≤ key right) : left.1 ≤ right.1 := by
  rcases lt_or_eq_of_le places with sooner | same
  · rcases key_lt_iff.mp sooner with earlier | ⟨equal, -⟩
    · exact earlier.le
    · exact equal.le
  · exact le_of_eq (congrArg (fun place => (ofLex place).1) same)

structure Represents (queue : EDFQueue) (present : List QueueEntry)
    (slots : List (WithTop ℚ × Nat × QueueEntry)) : Prop where
  perm : queue.heap.toList.Perm slots
  sorted : slots.Pairwise fun left right => left.2.1 < right.2.1
  numbered : ∀ slot ∈ slots, slot.2.1 ≤ queue.counter
  due : ∀ slot ∈ slots, slot.1 = slot.2.2.due
  entries : slots.map (fun slot => slot.2.2) = present

def Refines (state : EDFQueue × List QueueEntry) : Prop :=
  Heapq.IsHeap key state.1.heap ∧ ∃ slots, state.1.Represents state.2 slots

variable {queue : EDFQueue} {present : List QueueEntry}
  {slots : List (WithTop ℚ × Nat × QueueEntry)}

theorem refines_empty : Refines ({}, []) := by
  constructor
  · apply isHeap_iff.mpr
    intro child impossible
    exact absurd impossible (Nat.not_lt_zero child)
  · exact ⟨[], .nil, .nil, by simp, by simp, rfl⟩

theorem Represents.push (represents : queue.Represents present slots) (entry : QueueEntry) :
    (queue.push entry).Represents (present ++ [entry])
      (slots ++ [(entry.due, queue.counter + 1, entry)]) where
  perm := by
    have pushed := toList_heappush_perm before queue.heap
      (entry.due, queue.counter + 1, entry)
    have added := (represents.perm.cons (entry.due, queue.counter + 1, entry)).trans
      (perm_append_singleton _ slots).symm
    exact pushed.trans added
  sorted := by
    apply pairwise_append.mpr
    refine ⟨represents.sorted, pairwise_singleton _ _, ?_⟩
    intro slot member new last
    rw [mem_singleton.mp last]
    exact Nat.lt_succ_of_le (represents.numbered slot member)
  numbered := by
    intro slot member
    rcases mem_append.mp member with old | new
    · exact (represents.numbered slot old).trans (Nat.le_succ _)
    · rw [mem_singleton.mp new]
      exact Nat.le_refl _
  due := by
    intro slot member
    rcases mem_append.mp member with old | new
    · exact represents.due slot old
    · rw [mem_singleton.mp new]
  entries := by
    rw [map_append, represents.entries]
    rfl

variable {heap : Array (WithTop ℚ × Nat × QueueEntry)}

section

variable (represents : queue.Represents present slots)
include represents

theorem Represents.sublist {fewer : List (WithTop ℚ × Nat × QueueEntry)}
    (perm : heap.toList.Perm fewer) (sublist : fewer.Sublist slots) :
    ({ queue with heap } : EDFQueue).Represents (fewer.map fun slot => slot.2.2) fewer where
  perm := perm
  sorted := represents.sorted.sublist sublist
  numbered := fun slot member => represents.numbered slot (sublist.subset member)
  due := fun slot member => represents.due slot (sublist.subset member)
  entries := rfl

theorem Represents.map_filter {onSlot : WithTop ℚ × Nat × QueueEntry → Bool}
    {onEntry : QueueEntry → Bool} (agrees : ∀ slot ∈ slots, onSlot slot = onEntry slot.2.2) :
    (slots.filter onSlot).map (fun slot => slot.2.2) = present.filter onEntry := by
  rw [← represents.entries, filter_map]
  exact congrArg (List.map _) (filter_congr agrees)

theorem Represents.eq_nil (popped : heappop before queue.heap = none) : present = [] := by
  have perm := represents.perm
  rw [(heappop_eq_none_iff before).mp popped] at perm
  rw [← represents.entries, perm.nil_eq.symm]
  rfl

theorem Represents.eq_of_key (leftMem : left ∈ slots) (rightMem : right ∈ slots)
    (same : key left = key right) : left = right := by
  have numbers : left.2.1 = right.2.1 := congrArg (fun place => (ofLex place).2) same
  have distinct : (slots.map fun slot => slot.2.1).Nodup :=
    pairwise_map.mpr (represents.sorted.imp Nat.ne_of_lt)
  exact inj_on_of_nodup_map distinct leftMem rightMem numbers

theorem Represents.pop (order : Heapq.IsHeap key queue.heap) {slot : WithTop ℚ × Nat × QueueEntry}
    (popped : heappop before queue.heap = some (slot, heap)) :
    ∃ rest, takeEarliest present = some (slot.2.2, rest) ∧
      ∃ fewer, ({ queue with heap } : EDFQueue).Represents rest fewer := by
  have smallest := (isHeap_heappop before_eq_true_iff order popped).2
  have removed := (toList_perm_of_heappop before popped).2
  have slotMem : slot ∈ slots := represents.perm.mem_iff.mp (removed.mem_iff.mpr mem_cons_self)
  cases taken : takeEarliest present with
  | none =>
    have empty := takeEarliest_eq_none_iff.mp taken
    rw [← represents.entries, map_eq_nil_iff] at empty
    rw [empty] at slotMem
    exact absurd slotMem not_mem_nil
  | some found =>
    rcases found with ⟨earliest, rest⟩
    rcases takeEarliest_minimal taken with ⟨front, behind, split_, rfl, earlier, notLater⟩
    have decomposed := represents.entries.trans split_
    rcases map_eq_append_iff.mp decomposed with ⟨slotsFront, slotsRest, rfl, rfl, atRest⟩
    rcases map_eq_cons_iff.mp atRest with ⟨first, slotsBehind, rfl, rfl, rfl⟩
    have firstMem : first ∈ slotsFront ++ first :: slotsBehind := mem_append_right _ mem_cons_self
    -- The first slot with the earliest deadline comes before all others.
    have least : ∀ other ∈ slotsFront ++ first :: slotsBehind, key first ≤ key other := by
      intro other member
      have firstDue := represents.due first firstMem
      have otherDue := represents.due other member
      rcases mem_append.mp member with inFront | inRest
      · have sooner := earlier other.2.2 (mem_map_of_mem inFront)
        rw [← firstDue, ← otherDue] at sooner
        exact (key_lt_iff.mpr (.inl sooner)).le
      · rcases mem_cons.mp inRest with rfl | inBehind
        · exact le_refl _
        · have bound := notLater other.2.2 (mem_map_of_mem inBehind)
          rw [← firstDue, ← otherDue] at bound
          have number := (pairwise_cons.mp
            (pairwise_append.mp represents.sorted).2.1).1 other inBehind
          rcases lt_or_eq_of_le bound with sooner | same
          · exact (key_lt_iff.mpr (.inl sooner)).le
          · exact (key_lt_iff.mpr (.inr ⟨same, number⟩)).le
    have inHeap : first ∈ queue.heap :=
      Array.mem_toList_iff.mp (represents.perm.mem_iff.mpr firstMem)
    have same : slot = first := represents.eq_of_key slotMem firstMem
      (le_antisymm (smallest first inHeap) (least slot slotMem))
    subst same
    refine ⟨_, rfl, slotsFront ++ slotsBehind, ?_⟩
    have perm : heap.toList.Perm (slotsFront ++ slotsBehind) :=
      ((removed.symm.trans represents.perm).trans perm_middle).cons_inv
    have sublist : (slotsFront ++ slotsBehind).Sublist (slotsFront ++ slot :: slotsBehind) :=
      (sublist_cons_self slot slotsBehind).append_left slotsFront
    have fewer := represents.sublist perm sublist
    rw [map_append] at fewer
    exact fewer

theorem Represents.remove (id : Nat) :
    (queue.remove id).2.Represents (present.filter fun entry => entry.item.id ≠ id)
      (slots.filter fun slot => slot.2.2.item.id ≠ id) := by
  have perm : (queue.heap.filter fun slot => slot.2.2.item.id ≠ id).toList.Perm
      (slots.filter fun slot => slot.2.2.item.id ≠ id) := by
    rw [Array.toList_filter]
    exact represents.perm.filter _
  have fewer := represents.sublist perm filter_sublist
  have same : (slots.filter fun slot => slot.2.2.item.id ≠ id).map (fun slot => slot.2.2) =
      present.filter fun entry => entry.item.id ≠ id :=
    represents.map_filter fun _ _ => rfl
  rw [same] at fewer
  exact fewer

end

theorem Represents.found (represents : queue.Represents present slots) (id : Nat) :
    (queue.remove id).1 = present.any fun entry => entry.item.id = id := by
  rw [EDFQueue.remove, ← Array.any_toList, represents.perm.any_eq, ← represents.entries, any_map]
  rfl

theorem expireLoop_perm (now : ℚ) (turns : Nat) (queue : EDFQueue)
    (enough : queue.heap.size ≤ turns) (order : Heapq.IsHeap key queue.heap) :
    Heapq.IsHeap key (expireLoop now turns queue).2.heap ∧
      (expireLoop now turns queue).2.counter = queue.counter ∧
      (expireLoop now turns queue).1.Perm
        ((queue.heap.toList.filter fun slot => slot.1 ≤ (now : WithTop ℚ)).map
          fun slot => slot.2.2) ∧
      (expireLoop now turns queue).2.heap.toList.Perm
        (queue.heap.toList.filter fun slot => ¬ slot.1 ≤ (now : WithTop ℚ)) := by
  induction turns generalizing queue with
  | zero =>
    have empty : queue.heap = #[] := Array.size_eq_zero_iff.mp (Nat.le_zero.mp enough)
    refine ⟨order, rfl, ?_, ?_⟩
    · rw [empty]
      exact .nil
    · rw [expireLoop, empty]
      exact .nil
  | succ turns ih =>
    rw [expireLoop]
    cases popped : heappop before queue.heap with
    | none =>
      have empty := (heappop_eq_none_iff before).mp popped
      refine ⟨order, rfl, ?_, ?_⟩
      · rw [empty]
        exact .nil
      · rw [empty]
        exact .nil
    | some found =>
      rcases found with ⟨slot, heap⟩
      have removed := (toList_perm_of_heappop before popped).2
      rcases isHeap_heappop before_eq_true_iff order popped with ⟨rest, smallest⟩
      have size : queue.heap.size = heap.size + 1 := by
        have lengths := removed.length_eq
        simpa using lengths
      dsimp only
      split
      next expired =>
        rcases ih { queue with heap } (by dsimp only; omega) rest with
          ⟨stillHeap, counter, entries, left⟩
        refine ⟨stillHeap, counter, ?_, ?_⟩
        · have split_ := (removed.filter fun slot => slot.1 ≤ (now : WithTop ℚ)).map
            fun slot => slot.2.2
          rw [filter_cons_of_pos (by simpa using expired), map_cons] at split_
          exact (entries.cons slot.2.2).trans split_.symm
        · have split_ := removed.filter fun slot => ¬ slot.1 ≤ (now : WithTop ℚ)
          rw [filter_cons_of_neg (by simpa using expired)] at split_
          exact left.trans split_.symm
      next current =>
        have none : ∀ other ∈ queue.heap.toList, ¬ other.1 ≤ (now : WithTop ℚ) := by
          intro other member expired
          have places := smallest other (Array.mem_toList_iff.mp member)
          exact current ((fst_le_of_key_le places).trans expired)
        refine ⟨order, rfl, ?_, ?_⟩
        · rw [filter_eq_nil_iff.mpr (by simpa using none)]
          exact .nil
        · rw [filter_eq_self.mpr (by simpa using none)]

theorem Represents.expired (represents : queue.Represents present slots)
    (order : Heapq.IsHeap key queue.heap) (now : ℚ) :
    (queue.expired now).1.Perm (present.filter fun entry => entry.due ≤ (now : WithTop ℚ)) ∧
      Heapq.IsHeap key (queue.expired now).2.heap ∧
      ∃ fewer, (queue.expired now).2.Represents
        (present.filter fun entry => ¬ entry.due ≤ (now : WithTop ℚ)) fewer := by
  rcases expireLoop_perm now queue.heap.size queue (Nat.le_refl _) order with
    ⟨stillHeap, counter, entries, left⟩
  have duePart : (slots.filter fun slot => slot.1 ≤ (now : WithTop ℚ)).map
      (fun slot => slot.2.2) = present.filter fun entry => entry.due ≤ (now : WithTop ℚ) :=
    represents.map_filter fun slot member => by rw [represents.due slot member]
  have rest : (slots.filter fun slot => ¬ slot.1 ≤ (now : WithTop ℚ)).map
      (fun slot => slot.2.2) = present.filter fun entry => ¬ entry.due ≤ (now : WithTop ℚ) :=
    represents.map_filter fun slot member => by rw [represents.due slot member]
  refine ⟨?_, stillHeap, slots.filter fun slot => ¬ slot.1 ≤ (now : WithTop ℚ), ?_⟩
  · rw [← duePart]
    exact entries.trans ((represents.perm.filter _).map _)
  · have fewer := represents.sublist (left.trans (represents.perm.filter _)) filter_sublist
    rw [rest] at fewer
    rw [EDFQueue.expired]
    constructor
    · exact fewer.perm
    · exact fewer.sorted
    · rw [counter]
      exact fewer.numbered
    · exact fewer.due
    · exact fewer.entries

variable {state : EDFQueue × List QueueEntry}

theorem Refines.answer (refines : Refines state) (call : DeadlineCall) :
    (state.1.answer call).1.Equivalent (answerInOrder state.2 call).1 := by
  rcases refines with ⟨order, slots, represents⟩
  cases call with
  | push entry => exact .refl _
  | pop =>
    rw [EDFQueue.answer, EDFQueue.pop, answerInOrder]
    cases popped : heappop before state.1.heap with
    | none =>
      rw [represents.eq_nil popped]
      exact .refl _
    | some found =>
      rcases represents.pop order popped with ⟨rest, taken, -⟩
      rw [taken]
      exact .refl _
  | remove id =>
    rw [EDFQueue.answer, answerInOrder]
    dsimp only
    rw [represents.found id]
    exact .refl _
  | expired now => exact .expired (represents.expired order now).1

theorem Refines.lockstep {call : DeadlineCall} (refines : Refines state)
    (keeps : KeepsOrder state call) : Refines (EDFQueue.lockstep state call) := by
  rcases refines with ⟨order, slots, represents⟩
  cases call with
  | push entry => exact ⟨isHeap_heappush before_eq_true_iff order _, _, represents.push entry⟩
  | pop =>
    rw [EDFQueue.lockstep, EDFQueue.answer, EDFQueue.pop, answerInOrder]
    cases popped : heappop before state.1.heap with
    | none =>
      cases taken : takeEarliest state.2 with
      | none => exact ⟨order, slots, represents⟩
      | some found =>
        rw [takeEarliest_eq_none_iff.mpr (represents.eq_nil popped)] at taken
        cases taken
    | some found =>
      rcases represents.pop order popped with ⟨rest, taken, fewer⟩
      rw [taken]
      exact ⟨(isHeap_heappop before_eq_true_iff order popped).1, fewer⟩
  | remove id => exact ⟨keeps, _, represents.remove id⟩
  | expired now => exact (represents.expired order now).2

/-- In every run from the empty queue in which every removal leaves a heap in the array,
every pop takes the first entry with the earliest deadline among those present, and
exactly the expired entries are returned as expired. -/
theorem answers_in_order (calls : List DeadlineCall)
    (along : Along lockstep KeepsOrder ({}, []) calls) : Always lockstep (fun state => ∀ call,
        (state.1.answer call).1.Equivalent (answerInOrder state.2 call).1) ({}, []) calls := by
  intro done earlier call
  have refines : Refines (run lockstep ({}, []) done) :=
    (along.of_prefix earlier).invariant (fun _ _ refines keeps => refines.lockstep keeps)
      refines_empty
  exact refines.answer call

/-- An entry for the item `id` with a deadline. -/
def sampleEntry (id : Nat) (deadlineMs : ℚ) : QueueEntry where
  item := { id, createdAt := 0 }
  priorityLevel := .normal
  enqueuedMs := 0
  deadlineMs := some deadlineMs

/-- The second removal takes an inner entry of the heap. -/
def orderlyCalls : List DeadlineCall :=
  [.push (sampleEntry 1 10), .push (sampleEntry 2 30), .push (sampleEntry 3 20), .remove 3,
    .push (sampleEntry 4 30), .push (sampleEntry 5 5), .remove 2]

theorem orderlyCalls_in_order : (((run lockstep ({}, []) orderlyCalls).1.answer .pop).1.Equivalent
      (.popped (some (sampleEntry 5 5)))) := by
  have always := answers_in_order orderlyCalls (by decide +kernel)
  exact always.last .pop

/-- Removing the root of three entries leaves the later of the two others at the root. -/
theorem remove_breaks_order :
    let state := run lockstep ({}, [])
      [.push (sampleEntry 1 10), .push (sampleEntry 2 30), .push (sampleEntry 3 20), .remove 1]
    (state.1.answer .pop).1 = .popped (some (sampleEntry 2 30)) ∧
      (answerInOrder state.2 .pop).1 = .popped (some (sampleEntry 3 20)) ∧
      (state.1.answer (.expired 20)).1 = .expired [] ∧
      (answerInOrder state.2 (.expired 20)).1 = .expired [sampleEntry 3 20] := by
  decide +kernel

end EDFQueue

end AgenticOS.OmniRoute
