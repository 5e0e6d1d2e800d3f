import AgenticOS.OmniRoute.Scheduler.Dispatch

/-!
# What the queues hold

Each operation on one of the three structures is described by what it takes out: the
entries held before are held afterwards or taken, and nothing else is. The counters of the
structures agree with what they hold.
-/

namespace AgenticOS.OmniRoute

open List Dict Nat Heapq Function

/-- Nothing is held that was not held before, and what is held no more is in `lost`. -/
structure Loses {α : Type*} (before after lost : α → Prop) : Prop where
  subset : ∀ entry, after entry → before entry
  kept : ∀ entry, before entry → after entry ∨ lost entry

namespace Loses

variable {α : Type*} {before middle after lost lost' : α → Prop}

theorem refl (held : α → Prop) : Loses held held lost :=
  ⟨fun _ holds => holds, fun _ holds => .inl holds⟩

theorem trans (first : Loses before middle lost) (second : Loses middle after lost) :
    Loses before after lost where
  subset := fun entry holds => first.subset entry (second.subset entry holds)
  kept := by
    intro entry holds
    rcases first.kept entry holds with still | gone
    · exact second.kept entry still
    · exact .inr gone

theorem mono (loses : Loses before after lost) (weaker : ∀ entry, lost entry → lost' entry) :
    Loses before after lost' where
  subset := loses.subset
  kept := fun entry holds => (loses.kept entry holds).imp_right (weaker entry)

end Loses

/-- What is asked of a structure that holds entries: what it holds, how many entries it
counts, and what its operations keep. -/
structure Container (σ : Type*) where
  holds : σ → QueueEntry → Prop
  total : σ → ℤ
  sound : σ → Prop

structure Pops {σ : Type*} (container : Container σ) (queue : σ)
    (result : Option QueueEntry × σ) : Prop where
  sound : container.sound result.2
  empty : result.1 = none →
    (∀ entry, ¬ container.holds queue entry) ∧ (∀ entry, ¬ container.holds result.2 entry) ∧
      container.total result.2 = container.total queue
  taken : ∀ entry, result.1 = some entry → container.holds queue entry ∧
    Loses (container.holds queue) (container.holds result.2) (fun other => other = entry) ∧
    container.total result.2 = container.total queue - 1

section

variable {σ : Type*} {container : Container σ} {queue : σ} {result : Option QueueEntry × σ}
  (pops : Pops container queue result)
include pops

theorem Pops.loses : Loses (container.holds queue) (container.holds result.2)
      (fun entry => result.1 = some entry) := by
  cases popped : result.1 with
  | none =>
    rcases pops.empty popped with ⟨nothing, nothingAfter, -⟩
    constructor
    · intro entry impossible
      exact absurd impossible (nothingAfter entry)
    · intro entry impossible
      exact absurd impossible (nothing entry)
  | some taken =>
    apply (pops.taken taken popped).2.1.mono
    rintro entry rfl
    rfl

theorem Pops.total : container.total result.2 =
      container.total queue - if result.1.isSome then 1 else 0 := by
  cases popped : result.1 with
  | none => simpa using (pops.empty popped).2.2
  | some taken => simpa using (pops.taken taken popped).2.2

end

namespace PriorityQueueManager

variable {manager : PriorityQueueManager} {level : PriorityLevel} {entries : List QueueEntry}

def Counted (manager : PriorityQueueManager) : Prop :=
  manager.total = (PriorityLevel.all.map fun level => ((manager.queues level).length : ℤ)).sum

theorem Counted.shorten (counted : manager.Counted)
    (length : (manager.queues level).length = entries.length + 1) :
    (manager.shorten level entries).Counted := by
  unfold Counted PriorityLevel.all at counted ⊢
  rw [PriorityQueueManager.shorten]
  cases level
  all_goals
    simp [Function.update, length] at counted ⊢
    omega

theorem Counted.push (counted : manager.Counted) (entry : QueueEntry) :
    (manager.push entry).2.Counted := by
  rw [PriorityQueueManager.push]
  split
  · exact counted
  · unfold Counted PriorityLevel.all at counted ⊢
    cases level : entry.priorityLevel
    all_goals
      simp at counted ⊢
      omega

theorem Counted.nonneg (counted : manager.Counted) : 0 ≤ manager.total := by
  rw [Counted, PriorityLevel.all] at counted
  simp at counted
  omega

theorem loses_shorten {lost : QueueEntry → Prop} (subset : entries ⊆ manager.queues level)
    (kept : ∀ entry ∈ manager.queues level, entry ∈ entries ∨ lost entry) :
    Loses manager.Holds (manager.shorten level entries).Holds lost := by
  constructor
  · rintro entry ⟨asked, member⟩
    rw [shorten] at member
    by_cases same : asked = level
    · subst same
      dsimp only at member
      rw [update_self] at member
      exact ⟨asked, subset member⟩
    · dsimp only at member
      rw [update_of_ne same] at member
      exact ⟨asked, member⟩
  · rintro entry ⟨asked, member⟩
    by_cases same : asked = level
    · subst same
      rcases kept entry member with still | gone
      · refine .inl ⟨asked, ?_⟩
        rw [shorten]
        dsimp only
        rw [update_self]
        exact still
      · exact .inr gone
    · refine .inl ⟨asked, ?_⟩
      rw [shorten]
      dsimp only
      rw [update_of_ne same]
      exact member

theorem popFrom_cases (manager : PriorityQueueManager) (levels : List PriorityLevel) :
    (manager.popFrom levels = (none, manager) ∧ ∀ level ∈ levels, manager.queues level = []) ∨
      ∃ level entry rest, manager.queues level = entry :: rest ∧
        manager.popFrom levels = (some entry, manager.shorten level rest) := by
  induction levels with
  | nil => exact .inl ⟨rfl, fun _ impossible => absurd impossible not_mem_nil⟩
  | cons level levels ih =>
    rw [popFrom]
    cases queue : manager.queues level with
    | nil =>
      rcases ih with ⟨popped, empty⟩ | popped
      · refine .inl ⟨popped, ?_⟩
        intro asked member
        rcases mem_cons.mp member with rfl | later
        · exact queue
        · exact empty asked later
      · exact .inr popped
    | cons entry rest => exact .inr ⟨level, entry, rest, queue, rfl⟩

def container : Container PriorityQueueManager where
  holds := Holds
  total := PriorityQueueManager.total
  sound := Counted

theorem pops_pop (counted : manager.Counted) : Pops container manager manager.pop := by
  rw [pop]
  rcases popFrom_cases manager PriorityLevel.all with
    ⟨popped, empty⟩ | ⟨level, entry, rest, queue, popped⟩
  · rw [popped]
    refine ⟨counted, ?_, fun _ impossible => by cases impossible⟩
    intro _
    have nothing : ∀ entry, ¬ manager.Holds entry := by
      rintro entry ⟨level, member⟩
      rw [empty level level.mem_all] at member
      exact not_mem_nil member
    exact ⟨nothing, nothing, rfl⟩
  · rw [popped]
    refine ⟨counted.shorten (by rw [queue, length_cons]), ?_, ?_⟩
    · intro impossible
      cases impossible
    · rintro other ⟨⟩
      refine ⟨⟨level, ?_⟩, ?_, rfl⟩
      · rw [queue]
        exact mem_cons_self
      · apply loses_shorten
        · rw [queue]
          exact subset_cons_self entry rest
        · intro other member
          rw [queue] at member
          exact (mem_cons.mp member).symm

theorem maxSize_pop (manager : PriorityQueueManager) : manager.pop.2.maxSize = manager.maxSize := by
  rw [pop]
  rcases popFrom_cases manager PriorityLevel.all with ⟨popped, -⟩ | ⟨_, _, _, -, popped⟩
  · rw [popped]
  · rw [popped]
    rfl

theorem removeFrom_cases (manager : PriorityQueueManager) (id : Nat) (levels : List PriorityLevel) :
    manager.removeFrom id levels = (false, manager) ∨
      ∃ level, ((manager.queues level).any fun entry => entry.item.id = id) = true ∧
        manager.removeFrom id levels = (true, manager.shorten level
          ((manager.queues level).eraseP fun entry => entry.item.id = id)) := by
  induction levels with
  | nil => exact .inl rfl
  | cons level levels ih =>
    rw [removeFrom]
    split
    next found => exact .inr ⟨level, found, rfl⟩
    · exact ih

end PriorityQueueManager

/-! ## Entries that are erased -/

theorem eraseP_item {entries : List QueueEntry} {id : Nat}
    (found : (entries.any fun entry => entry.item.id = id) = true) :
    entries.length = (entries.eraseP fun entry => entry.item.id = id).length + 1 ∧
      entries.eraseP (fun entry => entry.item.id = id) ⊆ entries ∧
      ∀ entry ∈ entries, entry ∈ entries.eraseP (fun entry => entry.item.id = id) ∨
        entry.item.id = id := by
  rcases any_eq_true.mp found with ⟨witness, member, same⟩
  refine ⟨?_, eraseP_subset, ?_⟩
  · rw [length_eraseP_of_mem member same]
    have positive := length_pos_of_mem member
    omega
  · intro entry inside
    by_cases other : entry.item.id = id
    · exact .inr other
    · exact .inl ((mem_eraseP_of_neg (by simpa using other)).mpr inside)

namespace EDFQueue

variable {queue : EDFQueue}

/-- Each entry stands in the heap under its deadline. -/
def Dated (queue : EDFQueue) : Prop :=
  ∀ slot ∈ queue.heap.toList, slot.1 = slot.2.2.due

variable {heap : Array (WithTop ℚ × Nat × QueueEntry)}

theorem Dated.of_subset (dated : queue.Dated) (subset : heap.toList ⊆ queue.heap.toList) :
    ({ queue with heap } : EDFQueue).Dated :=
  fun slot member => dated slot (subset member)

theorem Dated.push (dated : queue.Dated) (entry : QueueEntry) : (queue.push entry).Dated := by
  intro slot member
  have pushed := toList_heappush_perm before queue.heap (entry.due, queue.counter + 1, entry)
  rcases mem_cons.mp (pushed.mem_iff.mp member) with rfl | old
  · rfl
  · exact dated slot old

theorem pop_cases (queue : EDFQueue) : (queue.pop = (none, queue) ∧ queue.heap = #[]) ∨
      ∃ slot heap, queue.heap.toList.Perm (slot :: heap.toList) ∧
        queue.pop = (some slot.2.2, { queue with heap }) := by
  rw [EDFQueue.pop]
  cases popped : heappop before queue.heap with
  | none => exact .inl ⟨rfl, (heappop_eq_none_iff before).mp popped⟩
  | some found => exact .inr ⟨found.1, found.2, (toList_perm_of_heappop before popped).2, rfl⟩

theorem loses_of_perm {slot : WithTop ℚ × Nat × QueueEntry}
    (perm : queue.heap.toList.Perm (slot :: heap.toList)) :
    Loses queue.Holds ({ queue with heap } : EDFQueue).Holds (fun entry => entry = slot.2.2) := by
  constructor
  · rintro entry ⟨other, member, rfl⟩
    exact ⟨other, perm.mem_iff.mpr (mem_cons_of_mem slot member), rfl⟩
  · rintro entry ⟨other, member, rfl⟩
    rcases mem_cons.mp (perm.mem_iff.mp member) with rfl | rest
    · exact .inr rfl
    · exact .inl ⟨other, rest, rfl⟩

def container : Container EDFQueue where
  holds := Holds
  total := fun queue => queue.heap.size
  sound := Dated

theorem pops_pop (dated : queue.Dated) : Pops container queue queue.pop := by
  rcases pop_cases queue with ⟨popped, empty⟩ | ⟨slot, heap, perm, popped⟩
  · rw [popped]
    refine ⟨dated, ?_, fun _ impossible => by cases impossible⟩
    intro _
    have nothing : ∀ entry, ¬ queue.Holds entry := by
      rintro entry ⟨slot, member, -⟩
      rw [empty] at member
      exact not_mem_nil member
    exact ⟨nothing, nothing, rfl⟩
  · have size : queue.heap.size = heap.size + 1 := by simpa using perm.length_eq
    rw [popped]
    refine ⟨dated.of_subset ?_, ?_, ?_⟩
    · intro other member
      exact perm.mem_iff.mpr (mem_cons_of_mem slot member)
    · intro impossible
      cases impossible
    · rintro other ⟨⟩
      refine ⟨⟨slot, perm.mem_iff.mpr mem_cons_self, rfl⟩, loses_of_perm perm, ?_⟩
      change (heap.size : ℤ) = queue.heap.size - 1
      omega

theorem expireLoop_loses (now : ℚ) (turns : Nat) (queue : EDFQueue) (dated : queue.Dated) :
    Loses queue.Holds (expireLoop now turns queue).2.Holds
        (fun entry => entry.due ≤ (now : WithTop ℚ)) ∧
      (expireLoop now turns queue).2.Dated ∧
      (expireLoop now turns queue).2.heap.size ≤ queue.heap.size := by
  induction turns generalizing queue with
  | zero => exact ⟨Loses.refl _, dated, Nat.le_refl _⟩
  | succ turns ih =>
    rw [expireLoop]
    cases popped : heappop before queue.heap with
    | none => exact ⟨Loses.refl _, dated, Nat.le_refl _⟩
    | some found =>
      rcases found with ⟨slot, heap⟩
      have perm := (toList_perm_of_heappop before popped).2
      have size : queue.heap.size = heap.size + 1 := by simpa using perm.length_eq
      have subset : heap.toList ⊆ queue.heap.toList := fun other member =>
        perm.mem_iff.mpr (mem_cons_of_mem slot member)
      dsimp only
      split
      next expired =>
        rcases ih { queue with heap } (dated.of_subset subset) with
          ⟨loses, stillDated, smaller⟩
        refine ⟨(loses_of_perm perm).mono ?_ |>.trans loses, stillDated, ?_⟩
        · rintro entry rfl
          rw [← dated slot (perm.mem_iff.mpr mem_cons_self)]
          exact expired
        · dsimp only at smaller ⊢
          omega
      · exact ⟨Loses.refl _, dated, Nat.le_refl _⟩

theorem expired_loses (dated : queue.Dated) (now : ℚ) :
    Loses queue.Holds (queue.expired now).2.Holds (fun entry => entry.due ≤ (now : WithTop ℚ)) ∧
      (queue.expired now).2.Dated ∧ (queue.expired now).2.heap.size ≤ queue.heap.size :=
  expireLoop_loses now queue.heap.size queue dated

theorem remove_loses (queue : EDFQueue) (id : Nat) : Loses queue.Holds (queue.remove id).2.Holds
      (fun entry => (queue.remove id).1 = true ∧ entry.item.id = id) := by
  constructor
  · rintro entry ⟨slot, member, rfl⟩
    rw [EDFQueue.remove] at member
    rw [Array.toList_filter] at member
    exact ⟨slot, (mem_filter.mp member).1, rfl⟩
  · rintro entry ⟨slot, member, rfl⟩
    rw [EDFQueue.remove]
    by_cases same : slot.2.2.item.id = id
    · refine .inr ⟨?_, same⟩
      rw [← Array.any_toList]
      exact any_eq_true.mpr ⟨slot, member, by simpa using same⟩
    · refine .inl ⟨slot, ?_, rfl⟩
      rw [Array.toList_filter]
      exact mem_filter.mpr ⟨member, by simpa using same⟩

theorem Dated.remove (dated : queue.Dated) (id : Nat) : (queue.remove id).2.Dated := by
  apply dated.of_subset
  rw [Array.toList_filter]
  exact filter_sublist.subset

end EDFQueue

namespace WeightedFairQueue

variable {fair : WeightedFairQueue} {group : String} {entries : List QueueEntry}

/-- The counter agrees with the lengths of the queues, and the round passes every group
with entries. -/
structure Sound (fair : WeightedFairQueue) : Prop where
  counted : fair.total = fair.queues.sumBy fun _ entries => (entries.length : ℤ)
  tracked : ∀ group, (fair.fairness.get? group).isSome → group ∈ fair.roundRobin
  covered : ∀ group, fair.queueOf group ≠ [] → group ∈ fair.roundRobin
  inside : fair.rrIndex = 0 ∨ fair.rrIndex < fair.roundRobin.length

theorem Sound.nonneg (sound : fair.Sound) : 0 ≤ fair.total := by
  rw [sound.counted]
  apply sumBy_nonneg
  intro _ entries _
  exact Int.natCast_nonneg _

theorem holds_iff_queueOf {entry : QueueEntry} :
    fair.Holds entry ↔ ∃ group, entry ∈ fair.queueOf group :=
  holds_iff

theorem queueOf_shorten (fair : WeightedFairQueue) (group other : String)
    (entries : List QueueEntry) : (fair.shorten group entries).queueOf other =
      if other = group then entries else fair.queueOf other := by
  rw [queueOf, shorten]
  rw [get?_set]
  split
  · rfl
  · rfl

theorem get?_of_queueOf_ne_nil (nonempty : fair.queueOf group ≠ []) :
    fair.queues.get? group = some (fair.queueOf group) := by
  unfold queueOf at nonempty ⊢
  cases stored : fair.queues.get? group with
  | none =>
    rw [stored] at nonempty
    exact absurd rfl nonempty
  | some entries => rfl

theorem Sound.shorten (sound : fair.Sound)
    (length : (fair.queueOf group).length = entries.length + 1) :
    (fair.shorten group entries).Sound where
  counted := by
    have nonempty : fair.queueOf group ≠ [] := by
      intro empty
      rw [empty] at length
      simp at length
    have stored := get?_of_queueOf_ne_nil nonempty
    rw [WeightedFairQueue.shorten, sumBy_set_of_some stored, ← sound.counted, length]
    push_cast
    ring
  tracked := sound.tracked
  covered := by
    intro other nonempty
    rw [queueOf_shorten] at nonempty
    split at nonempty
    next same =>
      rw [same]
      apply sound.covered
      intro empty
      rw [empty] at length
      simp at length
    · exact sound.covered other nonempty
  inside := sound.inside

theorem loses_shorten {lost : QueueEntry → Prop} (subset : entries ⊆ fair.queueOf group)
    (kept : ∀ entry ∈ fair.queueOf group, entry ∈ entries ∨ lost entry) :
    Loses fair.Holds (fair.shorten group entries).Holds lost := by
  constructor
  · intro entry holds
    rcases holds_iff_queueOf.mp holds with ⟨asked, member⟩
    rw [queueOf_shorten] at member
    split at member
    · exact holds_iff_queueOf.mpr ⟨group, subset member⟩
    · exact holds_iff_queueOf.mpr ⟨asked, member⟩
  · intro entry holds
    rcases holds_iff_queueOf.mp holds with ⟨asked, member⟩
    by_cases same : asked = group
    · subst same
      rcases kept entry member with still | gone
      · refine .inl (holds_iff_queueOf.mpr ⟨asked, ?_⟩)
        rw [queueOf_shorten, if_pos rfl]
        exact still
      · exact .inr gone
    · refine .inl (holds_iff_queueOf.mpr ⟨asked, ?_⟩)
      rw [queueOf_shorten, if_neg same]
      exact member

/-- The round has been turned; groups without a deque may have got an empty one. -/
structure Turned (fair turned : WeightedFairQueue) : Prop where
  rest : turned = { fair with queues := turned.queues, rrIndex := turned.rrIndex }
  queueOf : turned.queueOf = fair.queueOf
  counted : (turned.queues.sumBy fun _ entries => (entries.length : ℤ)) =
    fair.queues.sumBy fun _ entries => (entries.length : ℤ)
  inside : turned.rrIndex < turned.roundRobin.length

theorem Turned.sound {turned : WeightedFairQueue} (turns : Turned fair turned)
    (sound : fair.Sound) : turned.Sound := by
  obtain ⟨rest, queueOf, counted, inside⟩ := turns
  have covered := sound.covered
  rw [← queueOf] at covered
  rw [rest] at covered ⊢
  exact ⟨sound.counted.trans counted.symm, sound.tracked, covered, .inr (rest ▸ inside)⟩

theorem Turned.trans {middle turned : WeightedFairQueue} (turns : Turned fair middle)
    (after : Turned middle turned) : Turned fair turned where
  rest := by
    rw [after.rest, turns.rest]
  queueOf := after.queueOf.trans turns.queueOf
  counted := after.counted.trans turns.counted
  inside := after.inside

theorem turned_look (inside : fair.rrIndex < fair.roundRobin.length) (group : String) :
    Turned fair (fair.look group) where
  rest := rfl
  queueOf := by
    funext other
    rw [WeightedFairQueue.queueOf, look, get?_set]
    split
    next same =>
      rw [same]
      rfl
    · rfl
  counted := by
    rw [look]
    cases stored : fair.queues.get? group with
    | none => simp [sumBy_set_of_none stored, WeightedFairQueue.queueOf, stored]
    | some entries => simp [sumBy_set_of_some stored, WeightedFairQueue.queueOf, stored]
  inside := inside

theorem Sound.setWeight (sound : fair.Sound) (group : String) (weight : ℚ) :
    (fair.setWeight group weight).Sound ∧ group ∈ (fair.setWeight group weight).roundRobin := by
  rw [WeightedFairQueue.setWeight]
  split
  next known =>
    exact ⟨⟨sound.counted, sound.tracked, sound.covered, sound.inside⟩, sound.tracked group known⟩
  · refine ⟨⟨sound.counted, ?_, ?_, ?_⟩, mem_append_right _ mem_cons_self⟩
    · intro other isTracked
      rw [get?_set] at isTracked
      split at isTracked
      next same =>
        rw [same]
        exact mem_append_right _ mem_cons_self
      · exact mem_append_left _ (sound.tracked other isTracked)
    · intro other nonempty
      exact mem_append_left _ (sound.covered other nonempty)
    · right
      dsimp only
      rw [length_append, length_singleton]
      rcases sound.inside with first | inside
      · omega
      · omega

theorem Sound.push (sound : fair.Sound) (group : String) (entry : QueueEntry) :
    (fair.push group entry).Sound := by
  -- A group without fairness data is entered in the round first.
  have known : ∃ known : WeightedFairQueue, known.Sound ∧ group ∈ known.roundRobin ∧
      fair.push group entry =
        { known with
          queues := known.queues.set group (known.queueOf group ++ [entry])
          total := known.total + 1 } := by
    rw [WeightedFairQueue.push]
    by_cases tracked : (fair.fairness.get? group).isSome
    · rw [if_pos tracked]
      exact ⟨fair, sound, sound.tracked group tracked, rfl⟩
    · rw [if_neg tracked]
      rcases sound.setWeight group 1 with ⟨entered, listed⟩
      exact ⟨fair.setWeight group 1, entered, listed, rfl⟩
  rcases known with ⟨known, soundKnown, listed, pushed⟩
  rw [pushed]
  constructor
  · have moved := known.queues.sumBy_set_add (fun _ entries => (entries.length : ℤ)) group
      (known.queueOf group ++ [entry])
    unfold queueOf at moved ⊢
    rw [← soundKnown.counted, length_append, length_singleton] at moved
    cases stored : known.queues.get? group with
    | none | some =>
      rw [stored] at moved
      simp at moved ⊢
      omega
  · exact soundKnown.tracked
  · intro other nonempty
    rw [queueOf] at nonempty
    rw [get?_set] at nonempty
    split at nonempty
    next same =>
      rw [same]
      exact listed
    · exact soundKnown.covered other nonempty
  · exact soundKnown.inside

theorem sound_clear (fair : WeightedFairQueue) : fair.clear.Sound where
  counted := rfl
  tracked := fun _ impossible => by cases impossible
  covered := fun _ impossible => absurd rfl impossible
  inside := .inl rfl

theorem turned_advance (inside : fair.rrIndex < fair.roundRobin.length) :
    Turned fair fair.advance :=
  ⟨rfl, rfl, rfl, mod_lt _ (zero_lt_of_lt inside)⟩

theorem popRound_cases (eligible : String → Bool) (turns : Nat) (fair : WeightedFairQueue)
    (inside : fair.rrIndex < fair.roundRobin.length) :
    ∃ turned, Turned fair turned ∧ (fair.popRound eligible turns = (none, turned) ∨
      ∃ group entry rest, turned.queueOf group = entry :: rest ∧
        fair.popRound eligible turns = (some entry, turned.shorten group rest)) := by
  induction turns generalizing fair with
  | zero => exact ⟨fair, ⟨rfl, rfl, rfl, inside⟩, .inl rfl⟩
  | succ turns ih =>
    rw [popRound, getElem?_eq_getElem inside]
    dsimp only
    generalize fair.roundRobin[fair.rrIndex] = group
    have looked := turned_look inside group
    have advanced := looked.trans (turned_advance looked.inside)
    obtain ⟨turned, next, popped⟩ := ih _ advanced.inside
    cases queue : (fair.look group).queueOf group with
    | nil => exact ⟨turned, advanced.trans next, popped⟩
    | cons entry rest =>
      dsimp only
      split
      · exact ⟨_, advanced, .inr ⟨group, entry, rest, queue, rfl⟩⟩
      · exact ⟨turned, advanced.trans next, popped⟩

theorem queueOf_of_popRound_none (turns : Nat) (fair : WeightedFairQueue)
    (inside : fair.rrIndex < fair.roundRobin.length)
    (nothing : (fair.popRound (fun _ => true) turns).1 = none) : ∀ offset < turns, ∀ group,
      fair.roundRobin[(fair.rrIndex + offset) % fair.roundRobin.length]? = some group →
        fair.queueOf group = [] := by
  induction turns generalizing fair with
  | zero =>
    intro offset impossible
    exact absurd impossible (Nat.not_lt_zero offset)
  | succ turns ih =>
    intro offset bound group found
    rw [popRound, getElem?_eq_getElem inside] at nothing
    have looked := turned_look inside fair.roundRobin[fair.rrIndex]
    dsimp only at nothing
    rw [looked.queueOf] at nothing
    cases queue : fair.queueOf fair.roundRobin[fair.rrIndex] with
    | cons entry rest =>
      rw [queue] at nothing
      cases nothing
    | nil =>
      rw [queue] at nothing
      cases offset with
      | zero =>
        rw [Nat.add_zero, mod_eq_of_lt inside, getElem?_eq_getElem inside] at found
        cases found
        exact queue
      | succ offset =>
        have later := ih _ (turned_advance looked.inside).inside nothing offset (by omega) group
        rw [← looked.queueOf]
        apply later
        rw [advance]
        rw [mod_add_mod, Nat.add_right_comm, Nat.add_assoc]
        exact found

def container : Container WeightedFairQueue where
  holds := Holds
  total := WeightedFairQueue.total
  sound := Sound

theorem pops_shorten (sound : fair.Sound) {entry : QueueEntry} {rest : List QueueEntry}
    (queue : fair.queueOf group = entry :: rest) :
    Pops container fair (some entry, fair.shorten group rest) where
  sound := sound.shorten (by rw [queue, length_cons])
  empty := fun impossible => by cases impossible
  taken := by
    rintro other ⟨⟩
    refine ⟨holds_iff_queueOf.mpr ⟨group, ?_⟩, ?_, rfl⟩
    · rw [queue]
      exact mem_cons_self
    · apply loses_shorten
      · rw [queue]
        exact subset_cons_self entry rest
      · intro other member
        rw [queue] at member
        exact (mem_cons.mp member).symm

theorem pops_of_turned {turned : WeightedFairQueue} (turns : Turned fair turned)
    {result : Option QueueEntry × WeightedFairQueue} (pops : Pops container turned result) :
    Pops container fair result := by
  have holds : container.holds turned = container.holds fair := by
    funext entry
    change turned.Holds entry = fair.Holds entry
    rw [holds_iff_queueOf, holds_iff_queueOf, turns.queueOf]
  have total : container.total turned = container.total fair := by
    rw [turns.rest]
    rfl
  obtain ⟨sound, empty, taken⟩ := pops
  rw [holds, total] at empty taken
  exact ⟨sound, empty, taken⟩

theorem pops_none (sound : fair.Sound)
    (empty : ∀ group ∈ fair.roundRobin, fair.queueOf group = []) :
    Pops container fair (none, fair) where
  sound := sound
  empty := by
    intro _
    have nothing : ∀ entry, ¬ fair.Holds entry := by
      intro entry holds
      rcases holds_iff_queueOf.mp holds with ⟨group, member⟩
      have nonempty : fair.queueOf group ≠ [] := ne_nil_of_mem member
      exact nonempty (empty group (sound.covered group nonempty))
    exact ⟨nothing, nothing, rfl⟩
  taken := fun _ impossible => by cases impossible

theorem Sound.index_lt (sound : fair.Sound) (nonempty : fair.roundRobin ≠ []) :
    fair.rrIndex < fair.roundRobin.length := by
  rcases sound.inside with first | inside
  · rw [first]
    exact length_pos_of_ne_nil nonempty
  · exact inside

theorem pops_popRr (sound : fair.Sound) : Pops container fair fair.popRr := by
  rw [popRr]
  by_cases nobody : fair.roundRobin = []
  · rw [nobody]
    apply pops_none sound
    intro group impossible
    rw [nobody] at impossible
    cases impossible
  · have inside := sound.index_lt nobody
    rcases popRound_cases (fun _ => true) fair.roundRobin.length fair inside with
      ⟨turned, turns, nothing | ⟨group, entry, rest, queue, popped⟩⟩
    · rw [nothing]
      have empty : ∀ group ∈ fair.roundRobin, fair.queueOf group = [] := by
        intro group listed
        have none : (fair.popRound (fun _ => true) fair.roundRobin.length).1 = none := by
          rw [nothing]
        rcases mem_iff_getElem?.mp listed with ⟨position, found⟩
        have within : position < fair.roundRobin.length := (List.getElem?_eq_some_iff.mp found).1
        -- The group comes up after this many turns.
        have reached : (fair.rrIndex +
            (position + fair.roundRobin.length - fair.rrIndex) % fair.roundRobin.length) %
              fair.roundRobin.length = position := by
          rw [add_mod_mod]
          have total : fair.rrIndex + (position + fair.roundRobin.length - fair.rrIndex) =
              position + fair.roundRobin.length := by omega
          rw [total, add_mod_right, mod_eq_of_lt within]
        apply queueOf_of_popRound_none fair.roundRobin.length fair inside none
          ((position + fair.roundRobin.length - fair.rrIndex) % fair.roundRobin.length)
          (mod_lt _ (zero_lt_of_lt inside))
        rw [reached]
        exact found
      refine pops_of_turned turns (pops_none (turns.sound sound) ?_)
      rw [turns.queueOf, turns.rest]
      exact empty
    · rw [popped]
      exact pops_of_turned turns (pops_shorten (turns.sound sound) queue)

theorem pops_popWrr (sound : fair.Sound) : Pops container fair fair.popWrr := by
  unfold popWrr
  dsimp only
  split
  · exact pops_popRr sound
  next weighted =>
    have nonempty : fair.roundRobin ≠ [] := by
      intro empty
      rw [empty] at weighted
      exact weighted rfl
    have inside := sound.index_lt nonempty
    rcases popRound_cases
        (fun group => 1 / 10 ≤ fair.weightOf group / (fair.roundRobin.map fair.weightOf).sum)
        (fair.roundRobin.length * 3) fair inside with
      ⟨turned, turns, nothing | ⟨group, entry, rest, queue, popped⟩⟩
    · rw [nothing]
      exact pops_of_turned turns (pops_popRr (turns.sound sound))
    · rw [popped]
      exact pops_of_turned turns (pops_shorten (turns.sound sound) queue)

theorem mem_candidates_iff {deficit : ℚ} :
    (deficit, group) ∈ fair.candidates ↔ fair.queueOf group ≠ [] ∧
      deficit = ((fair.fairness.get? group).getD {}).deficit / fair.weightOf group := by
  rw [candidates, mem_filterMap]
  constructor
  · rintro ⟨⟨name, entries⟩, member, kept⟩
    have stored := get?_eq_some_iff.mpr member
    dsimp only at kept
    split at kept
    · cases kept
    next nonempty =>
      cases kept
      refine ⟨?_, rfl⟩
      rw [queueOf, stored]
      exact nonempty
  · rintro ⟨nonempty, rfl⟩
    have stored := get?_eq_some_iff.mp (get?_of_queueOf_ne_nil nonempty)
    exact ⟨_, stored, if_neg nonempty⟩

theorem pops_popWfq (sound : fair.Sound) (nowMs : ℚ) : Pops container fair (fair.popWfq nowMs) := by
  rw [popWfq]
  cases order : fair.candidates.insertionSort fun left right => left.1 ≤ right.1 with
  | nil =>
    apply pops_none sound
    intro group _
    by_contra nonempty
    have candidate := mem_candidates_iff.mpr ⟨nonempty, rfl⟩
    rw [← mem_insertionSort fun left right : ℚ × String => left.1 ≤ right.1, order] at candidate
    exact not_mem_nil candidate
  | cons best others =>
    rcases best with ⟨deficit, chosen⟩
    dsimp only
    have candidate : (deficit, chosen) ∈ fair.candidates := by
      rw [← mem_insertionSort fun left right : ℚ × String => left.1 ≤ right.1, order]
      exact mem_cons_self
    have nonempty := (mem_candidates_iff.mp candidate).1
    cases queue : fair.queueOf chosen with
    | nil => exact absurd queue nonempty
    | cons entry rest =>
      have pops := pops_shorten sound queue
      refine ⟨?_, pops.empty, pops.taken⟩
      have served := pops.sound
      refine ⟨served.counted, ?_, served.covered, served.inside⟩
      intro group isTracked
      rw [get?_set] at isTracked
      split at isTracked
      next same =>
        rw [same]
        exact sound.covered chosen nonempty
      · exact served.tracked group isTracked

theorem remove_cases (fair : WeightedFairQueue) (id : Nat) : fair.remove id = (false, fair) ∨
      ∃ group, ((fair.queueOf group).any fun entry => entry.item.id = id) = true ∧
        fair.remove id = (true, fair.shorten group
          ((fair.queueOf group).eraseP fun entry => entry.item.id = id)) := by
  rw [remove]
  split
  · exact .inl rfl
  next group found =>
    have selected := find?_some found
    exact .inr ⟨group, selected, rfl⟩

end WeightedFairQueue

end AgenticOS.OmniRoute
