import AgenticOS.OmniRoute.Scheduler.Queues
import Mathlib.Algebra.Order.Archimedean.Basic

/-!
# Weighted fair service

`popWfq` serves the group that has had the least service for its weight since the queues were last
cleared. Two groups that stay backlogged are served alike from where they stand at first, but a
group that has been idle stands as far behind as the other one has been served meanwhile.
-/

namespace AgenticOS.OmniRoute

open AgenticOS.Transition List Function Dict

namespace WeightedFairQueue

variable {fair after : WeightedFairQueue} {group : String}

/-- How often the group has been served by `popWfq`. -/
def deficitOf (fair : WeightedFairQueue) (group : String) : ℚ :=
  ((fair.fairness.get? group).getD {}).deficit

def shareOf (fair : WeightedFairQueue) (group : String) : ℚ :=
  fair.deficitOf group / fair.weightOf group

inductive Call
  | push (group : String) (entry : QueueEntry)
  | popWfq (nowMs : ℚ)
  | popRr
  | popWrr
  | remove (id : ℕ)
  | setWeight (group : String) (weight : ℚ)
  | clear

def step (fair : WeightedFairQueue) : Call → WeightedFairQueue
  | .push group entry => fair.push group entry
  | .popWfq nowMs => (fair.popWfq nowMs).2
  | .popRr => fair.popRr.2
  | .popWrr => fair.popWrr.2
  | .remove id => (fair.remove id).2
  | .setWeight group weight => fair.setWeight group weight
  | .clear => fair.clear

/-- The call serves the group by `popWfq`: its queue gets shorter. -/
def Serves (group : String) (fair : WeightedFairQueue) : Call → Prop
  | .popWfq nowMs => ((fair.popWfq nowMs).2.queueOf group).length < (fair.queueOf group).length
  | .push _ _ | .popRr | .popWrr | .remove _ | .setWeight _ _ | .clear => False

instance (group : String) (fair : WeightedFairQueue) :
    (call : Call) → Decidable (Serves group fair call)
  | .popWfq _ => inferInstanceAs (Decidable (_ < _))
  | .push _ _ | .popRr | .popWrr | .remove _ | .setWeight _ _ | .clear => .isFalse id

theorem popWfq_cases (fair : WeightedFairQueue) (nowMs : ℚ) :
    ((∀ group, fair.queueOf group = []) ∧ fair.popWfq nowMs = (none, fair)) ∨
      ∃ chosen entry rest, fair.queueOf chosen = entry :: rest ∧
        (∀ group, fair.queueOf group ≠ [] → fair.shareOf chosen ≤ fair.shareOf group) ∧
        ∃ tracker : FairnessTracker, tracker.deficit = fair.deficitOf chosen + 1 ∧
          fair.popWfq nowMs = (some entry,
            { fair.shorten chosen rest with fairness := fair.fairness.set chosen tracker }) := by
  have total : Std.Total fun left right : ℚ × String => left.1 ≤ right.1 :=
    ⟨fun left right => le_total left.1 right.1⟩
  have transitive : IsTrans (ℚ × String) fun left right => left.1 ≤ right.1 :=
    ⟨fun _ _ _ first second => first.trans second⟩
  have sorted := pairwise_insertionSort
    (fun left right : ℚ × String => left.1 ≤ right.1) fair.candidates
  have members := fun candidate => mem_insertionSort
    (fun left right : ℚ × String => left.1 ≤ right.1) (x := candidate) (l := fair.candidates)
  rw [popWfq]
  cases order : fair.candidates.insertionSort fun left right => left.1 ≤ right.1 with
  | nil =>
    refine .inl ⟨fun group => ?_, rfl⟩
    by_contra backlogged
    have candidate := (members _).mpr (mem_candidates_iff.mpr ⟨backlogged, rfl⟩)
    rw [order] at candidate
    exact not_mem_nil candidate
  | cons best others =>
    right
    rcases best with ⟨share, chosen⟩
    rw [order] at sorted
    have candidate : (share, chosen) ∈ fair.candidates := by
      rw [← members, order]
      exact mem_cons_self
    rcases mem_candidates_iff.mp candidate with ⟨backlogged, rfl⟩
    cases queue : fair.queueOf chosen with
    | nil => exact absurd queue backlogged
    | cons entry rest =>
      refine ⟨chosen, entry, rest, queue, fun group waiting => ?_,
        { dispatched := ((fair.fairness.get? chosen).getD {}).dispatched + 1
          lastDispatchMs := nowMs
          deficit := fair.deficitOf chosen + 1 }, rfl, ?_⟩
      · have other := (members _).mpr (mem_candidates_iff.mpr ⟨waiting, rfl⟩)
        rw [order] at other
        rcases mem_cons.mp other with same | later
        · rw [Prod.mk.injEq] at same
          exact same.1.ge
        · exact (pairwise_cons.mp sorted).1 _ later
      · simp only [queue, deficitOf]

theorem deficitOf_shorten (fair : WeightedFairQueue) (served : String) (entries : List QueueEntry)
    (tracker : FairnessTracker) (group : String) :
    ({ fair.shorten served entries with
        fairness := fair.fairness.set served tracker } : WeightedFairQueue).deficitOf group =
      if group = served then tracker.deficit else fair.deficitOf group := by
  rw [deficitOf, get?_set]
  split
  · rfl
  · rfl

/-- The service and the weights are left alone, and no group gets an entry. -/
structure Leaves (fair after : WeightedFairQueue) : Prop where
  fairness : after.fairness = fair.fairness
  weights : after.weights = fair.weights
  queues : ∀ group, fair.queueOf group = [] → after.queueOf group = []

theorem Turned.leaves {turned after : WeightedFairQueue} (turns : Turned fair turned)
    (leaves : Leaves turned after) : Leaves fair after where
  fairness := leaves.fairness.trans (by rw [turns.rest])
  weights := leaves.weights.trans (by rw [turns.rest])
  queues := turns.queueOf ▸ leaves.queues

theorem leaves_shorten {entry : QueueEntry} {rest : List QueueEntry}
    (queue : fair.queueOf group = entry :: rest) : Leaves fair (fair.shorten group rest) := by
  refine ⟨rfl, rfl, fun other empty => ?_⟩
  rw [queueOf_shorten]
  split
  next same =>
    rw [same, queue] at empty
    cases empty
  · exact empty

theorem leaves_popRound (eligible : String → Bool) (turns : ℕ) (sound : fair.Sound) :
    Leaves fair (fair.popRound eligible turns).2 := by
  by_cases nobody : fair.roundRobin = []
  · cases turns with
    | zero => exact ⟨rfl, rfl, fun _ => id⟩
    | succ turns =>
      rw [popRound, nobody]
      exact ⟨rfl, rfl, fun _ => id⟩
  · rcases popRound_cases eligible turns fair (sound.index_lt nobody) with
      ⟨turned, turns, popped | ⟨group, entry, rest, queue, popped⟩⟩
    · rw [popped]
      exact turns.leaves ⟨rfl, rfl, fun _ => id⟩
    · rw [popped]
      exact turns.leaves (leaves_shorten queue)

theorem leaves_popRr (sound : fair.Sound) : Leaves fair fair.popRr.2 :=
  leaves_popRound _ _ sound

theorem leaves_popWrr (sound : fair.Sound) : Leaves fair fair.popWrr.2 := by
  unfold popWrr
  dsimp only
  split
  · exact leaves_popRr sound
  next weighted =>
    have nobody : fair.roundRobin ≠ [] := by
      intro empty
      rw [empty] at weighted
      exact weighted rfl
    rcases popRound_cases
        (fun group => 1 / 10 ≤ fair.weightOf group / (fair.roundRobin.map fair.weightOf).sum)
        (fair.roundRobin.length * 3) fair (sound.index_lt nobody) with
      ⟨turned, turns, popped | ⟨group, entry, rest, queue, popped⟩⟩
    · rw [popped]
      exact turns.leaves (leaves_popRr (turns.sound sound))
    · rw [popped]
      exact turns.leaves (leaves_shorten queue)

theorem sound_remove (sound : fair.Sound) (id : ℕ) : (fair.remove id).2.Sound := by
  rcases remove_cases fair id with kept | ⟨group, found, removed⟩
  · rw [kept]
    exact sound
  · rw [removed]
    exact sound.shorten (eraseP_item found).1

theorem leaves_remove (fair : WeightedFairQueue) (id : ℕ) : Leaves fair (fair.remove id).2 := by
  rcases remove_cases fair id with kept | ⟨group, found, removed⟩
  · rw [kept]
    exact ⟨rfl, rfl, fun _ empty => empty⟩
  · rw [removed]
    refine ⟨rfl, rfl, fun other empty => ?_⟩
    rw [queueOf_shorten]
    split
    next same =>
      rw [same] at empty
      rw [empty]
      rfl
    · exact empty

/-- The counters are right, each group with entries has fairness data, and the weights are
positive. -/
structure Tended (fair : WeightedFairQueue) : Prop where
  sound : fair.Sound
  tracked : ∀ group, fair.queueOf group ≠ [] → (fair.fairness.get? group).isSome
  positive : ∀ group, 0 < fair.weightOf group

theorem tended_empty : ({} : WeightedFairQueue).Tended where
  sound :=
    { counted := rfl
      tracked := fun _ impossible => by cases impossible
      covered := fun _ impossible => absurd rfl impossible
      inside := .inl rfl }
  tracked := fun _ impossible => absurd rfl impossible
  positive := fun _ => one_pos

theorem Leaves.tended (leaves : Leaves fair after) (tended : fair.Tended) (sound : after.Sound) :
    after.Tended := by
  refine ⟨sound, fun group waiting => ?_, fun group => ?_⟩
  · rw [leaves.fairness]
    exact tended.tracked group fun empty => waiting (leaves.queues group empty)
  · rw [weightOf, leaves.weights]
    exact tended.positive group

section

variable (fair : WeightedFairQueue) (weighted : String) (weight : ℚ) (group : String)

theorem weightOf_setWeight : (fair.setWeight weighted weight).weightOf group =
      if group = weighted then max (1 / 10) weight else fair.weightOf group := by
  have weights : (fair.setWeight weighted weight).weights =
      fair.weights.set weighted (max (1 / 10) weight) := by
    rw [setWeight]
    split
    · rfl
    · rfl
  rw [weightOf, weights, get?_set]
  split
  · rfl
  · rfl

theorem deficitOf_setWeight :
    (fair.setWeight weighted weight).deficitOf group = fair.deficitOf group := by
  rw [setWeight]
  split
  · rfl
  next untracked =>
    rw [deficitOf, get?_set]
    split
    next same =>
      rw [same, deficitOf, Option.not_isSome_iff_eq_none.mp untracked]
      rfl
    · rfl

theorem queueOf_setWeight :
    (fair.setWeight weighted weight).queueOf group = fair.queueOf group := by
  rw [setWeight]
  split
  · rfl
  · rfl

end

section

variable (fair : WeightedFairQueue) (pushed : String) (entry : QueueEntry) (group : String)

theorem queueOf_push : (fair.push pushed entry).queueOf group =
      if group = pushed then fair.queueOf pushed ++ [entry] else fair.queueOf group := by
  rw [queueOf, queues_push, get?_set]
  split
  · rfl
  · rfl

theorem deficitOf_push : (fair.push pushed entry).deficitOf group = fair.deficitOf group := by
  rw [push]
  split
  · rfl
  · exact deficitOf_setWeight fair pushed 1 group

theorem weightOf_push :
    (fair.push pushed entry).weightOf group =
      if group = pushed ∧ (fair.fairness.get? pushed).isSome = false then 1
      else fair.weightOf group := by
  rw [push]
  split
  next tracked =>
    rw [if_neg fun unknown => by simp [tracked] at unknown]
    rfl
  next untracked =>
    have weighted := weightOf_setWeight fair pushed 1 group
    simp only [untracked, and_true]
    refine Eq.trans ?_ (weighted.trans ?_)
    · rfl
    · norm_num

theorem isSome_fairness_push : ((fair.push pushed entry).fairness.get? group).isSome =
      (group = pushed ∨ (fair.fairness.get? group).isSome) := by
  rw [push]
  split
  next tracked =>
    by_cases same : group = pushed
    · simp [same, tracked]
    · simp [same]
  next untracked =>
    simp only [setWeight, untracked, Bool.false_eq_true, if_false, get?_set]
    by_cases same : group = pushed
    · simp [same]
    · simp [same]

end

section

variable (tended : fair.Tended)
include tended

theorem Tended.push (pushed : String) (entry : QueueEntry) : (fair.push pushed entry).Tended := by
  refine ⟨tended.sound.push pushed entry, fun group waiting => ?_, fun group => ?_⟩
  · rw [isSome_fairness_push]
    rw [queueOf_push] at waiting
    by_cases same : group = pushed
    · exact .inl same
    · rw [if_neg same] at waiting
      exact .inr (tended.tracked group waiting)
  · rw [weightOf_push]
    split
    · exact one_pos
    · exact tended.positive group

theorem Tended.setWeight (weighted : String) (weight : ℚ) :
    (fair.setWeight weighted weight).Tended := by
  refine ⟨(tended.sound.setWeight weighted weight).1, fun group waiting => ?_, fun group => ?_⟩
  · rw [queueOf_setWeight] at waiting
    have tracked := tended.tracked group waiting
    rw [WeightedFairQueue.setWeight]
    split
    · exact tracked
    · rw [get?_set]
      split
      · rfl
      · exact tracked
  · rw [weightOf_setWeight]
    split
    · exact lt_max_of_lt_left (by norm_num)
    · exact tended.positive group

theorem Tended.popWfq (nowMs : ℚ) : (fair.popWfq nowMs).2.Tended := by
  refine ⟨(pops_popWfq tended.sound nowMs).sound, fun group waiting => ?_, fun group => ?_⟩
  · rcases popWfq_cases fair nowMs with
      ⟨-, popped⟩ | ⟨chosen, entry, rest, queue, -, tracker, -, popped⟩
    · rw [popped] at waiting ⊢
      exact tended.tracked group waiting
    · rw [popped] at waiting ⊢
      rw [get?_set]
      split
      · rfl
      next other =>
        have same : (fair.shorten chosen rest).queueOf group = fair.queueOf group := by
          rw [queueOf_shorten, if_neg other]
        exact tended.tracked group fun empty => waiting (same.trans empty)
  · rcases popWfq_cases fair nowMs with
      ⟨-, popped⟩ | ⟨chosen, entry, rest, -, -, tracker, -, popped⟩
    · rw [popped]
      exact tended.positive group
    · rw [popped]
      exact tended.positive group

theorem Tended.step (call : Call) : (fair.step call).Tended := by
  have sound := tended.sound
  cases call with
  | push group entry => exact tended.push group entry
  | popWfq nowMs => exact tended.popWfq nowMs
  | popRr => exact (leaves_popRr sound).tended tended (pops_popRr sound).sound
  | popWrr => exact (leaves_popWrr sound).tended tended (pops_popWrr sound).sound
  | remove id => exact (leaves_remove fair id).tended tended (sound_remove sound id)
  | setWeight group weight => exact tended.setWeight group weight
  | clear => exact ⟨sound_clear fair, fun _ impossible => absurd rfl impossible, tended.positive⟩

end

/-! ## Groups that stay backlogged -/

/-- One group is served, and none of the backlogged ones has had less. -/
structure Chooses (fair after : WeightedFairQueue) (chosen : String) : Prop where
  waiting : fair.queueOf chosen ≠ []
  least : ∀ group, fair.queueOf group ≠ [] → fair.shareOf chosen ≤ fair.shareOf group
  weight : ∀ group, after.weightOf group = fair.weightOf group
  deficit : ∀ group, after.deficitOf group = fair.deficitOf group + if group = chosen then 1 else 0
  queue : ∀ group,
    after.queueOf group = if group = chosen then (fair.queueOf group).tail else fair.queueOf group

theorem chooses_popWfq (fair : WeightedFairQueue) (nowMs : ℚ) :
    ((∀ group, fair.queueOf group = []) ∧ (fair.popWfq nowMs).2 = fair) ∨
      ∃ chosen, Chooses fair (fair.popWfq nowMs).2 chosen := by
  rcases popWfq_cases fair nowMs with
    ⟨empty, popped⟩ | ⟨chosen, entry, rest, queue, least, tracker, deficit, popped⟩
  · rw [popped]
    exact .inl ⟨empty, rfl⟩
  · rw [popped]
    refine .inr ⟨chosen, by simp [queue], least, fun _ => rfl, fun group => ?_, fun group => ?_⟩
    · rw [deficitOf_shorten]
      by_cases same : group = chosen
      · simp [same, deficit]
      · simp [same]
    · refine (queueOf_shorten fair chosen group rest).trans ?_
      by_cases same : group = chosen
      · simp [same, queue]
      · simp [same]

theorem Chooses.serves_iff {chosen : String} {nowMs : ℚ}
    (chooses : Chooses fair (fair.popWfq nowMs).2 chosen) (group : String) :
    Serves group fair (.popWfq nowMs) ↔ group = chosen := by
  simp only [Serves, chooses.queue]
  by_cases same : group = chosen
  · have waiting := length_pos_of_ne_nil chooses.waiting
    simp only [same, if_true, length_tail]
    exact iff_of_true (by omega) trivial
  · simp [same]

theorem not_serves_of_unchanged {nowMs : ℚ} (unchanged : (fair.popWfq nowMs).2 = fair) :
    ¬ Serves group fair (.popWfq nowMs) := by
  simp only [Serves]
  rw [unchanged]
  exact lt_irrefl _

theorem shareOf_le_of_serves {call : Call} {served other : String}
    (serves : Serves served fair call) (waiting : fair.queueOf other ≠ []) :
    fair.shareOf served ≤ fair.shareOf other := by
  cases call with
  | popWfq nowMs =>
    rcases chooses_popWfq fair nowMs with ⟨-, unchanged⟩ | ⟨chosen, chooses⟩
    · exact absurd serves (not_serves_of_unchanged unchanged)
    · rw [(chooses.serves_iff served).mp serves]
      exact chooses.least other waiting
  | _ => exact serves.elim

theorem shareOf_step (tended : fair.Tended) {call : Call} (before : fair.queueOf group ≠ [])
    (still : (fair.step call).queueOf group ≠ [])
    (kept : ∀ weight, call ≠ .setWeight group weight) :
    (fair.step call).weightOf group = fair.weightOf group ∧
      (fair.step call).shareOf group = fair.shareOf group +
        (if Serves group fair call then 1 else 0) / fair.weightOf group := by
  have standing : (fair.step call).weightOf group = fair.weightOf group ∧
      (fair.step call).deficitOf group = fair.deficitOf group +
        if Serves group fair call then 1 else 0 := by
    have untouched : ∀ {after : WeightedFairQueue}, Leaves fair after →
        after.weightOf group = fair.weightOf group ∧
          after.deficitOf group = fair.deficitOf group + if False then 1 else 0 := by
      intro after leaves
      rw [weightOf, deficitOf, leaves.weights, leaves.fairness, if_neg id, add_zero]
      exact ⟨rfl, rfl⟩
    cases call with
    | push pushed entry =>
      refine ⟨?_, by simp [step, Serves, deficitOf_push]⟩
      rw [step, weightOf_push, if_neg]
      rintro ⟨rfl, unknown⟩
      simp [tended.tracked group before] at unknown
    | popWfq nowMs =>
      rcases chooses_popWfq fair nowMs with ⟨-, unchanged⟩ | ⟨chosen, chooses⟩
      · rw [if_neg (not_serves_of_unchanged unchanged), step, unchanged, add_zero]
        exact ⟨rfl, rfl⟩
      · refine ⟨chooses.weight group, (chooses.deficit group).trans ?_⟩
        simp only [chooses.serves_iff]
    | popRr => exact untouched (leaves_popRr tended.sound)
    | popWrr => exact untouched (leaves_popWrr tended.sound)
    | remove id => exact untouched (leaves_remove fair id)
    | setWeight weighted weight =>
      refine ⟨?_, by simp [step, Serves, deficitOf_setWeight]⟩
      rw [step, weightOf_setWeight, if_neg]
      rintro rfl
      exact kept weight rfl
    | clear => exact absurd rfl still
  refine ⟨standing.1, ?_⟩
  rw [shareOf, standing.1, standing.2, add_div]
  rfl

/-- The two groups are backlogged, here and after the call, and keep their weights. -/
def StaysBacklogged (left right : String) (fair : WeightedFairQueue) (call : Call) : Prop :=
  ∀ group, group = left ∨ group = right →
    fair.queueOf group ≠ [] ∧ (fair.step call).queueOf group ≠ [] ∧
      ∀ weight, call ≠ .setWeight group weight

variable {left right : String}

/-- How two groups stand in the course of an interval: the difference of their shares lies between
where it was at first and one service of either. -/
structure Compares (start : WeightedFairQueue) (left right : String) (fair : WeightedFairQueue) :
    Prop where
  tended : fair.Tended
  leftWeight : fair.weightOf left = start.weightOf left
  rightWeight : fair.weightOf right = start.weightOf right
  lower : min (start.shareOf left - start.shareOf right) (-(1 / start.weightOf right)) ≤
    fair.shareOf left - fair.shareOf right
  upper : fair.shareOf left - fair.shareOf right ≤
    max (start.shareOf left - start.shareOf right) (1 / start.weightOf left)

theorem Tended.compares (tended : fair.Tended) (left right : String) :
    Compares fair left right fair :=
  ⟨tended, rfl, rfl, min_le_left _ _, le_max_left _ _⟩

theorem Compares.step {start : WeightedFairQueue} (compares : Compares start left right fair)
    {call : Call} (stays : StaysBacklogged left right fair call) :
    Compares start left right (fair.step call) := by
  have tended := compares.tended
  rcases stays left (.inl rfl) with ⟨leftBefore, leftAfter, leftKept⟩
  rcases stays right (.inr rfl) with ⟨rightBefore, rightAfter, rightKept⟩
  rcases shareOf_step tended leftBefore leftAfter leftKept with ⟨leftWeight, leftStep⟩
  rcases shareOf_step tended rightBefore rightAfter rightKept with ⟨rightWeight, rightStep⟩
  have leftPays : 0 < 1 / fair.weightOf left := one_div_pos.mpr (tended.positive left)
  have rightPays : 0 < 1 / fair.weightOf right := one_div_pos.mpr (tended.positive right)
  have below : min (start.shareOf left - start.shareOf right) (-(1 / start.weightOf right)) ≤
      -(1 / fair.weightOf right) := by
    rw [compares.rightWeight]
    exact min_le_right _ _
  have above : 1 / fair.weightOf left ≤
      max (start.shareOf left - start.shareOf right) (1 / start.weightOf left) := by
    rw [compares.leftWeight]
    exact le_max_right _ _
  have lower := compares.lower
  have upper := compares.upper
  -- Only a group that stands no better than the other one is served.
  have moves : ∃ toLeft toRight : ℚ,
      (fair.step call).shareOf left = fair.shareOf left + toLeft ∧
      (fair.step call).shareOf right = fair.shareOf right + toRight ∧
      (toLeft = 0 ∨ toLeft = 1 / fair.weightOf left ∧ fair.shareOf left ≤ fair.shareOf right) ∧
      (toRight = 0 ∨
        toRight = 1 / fair.weightOf right ∧ fair.shareOf right ≤ fair.shareOf left) := by
    refine ⟨_, _, leftStep, rightStep, ?_, ?_⟩
    · split
      next serves => exact .inr ⟨rfl, shareOf_le_of_serves serves rightBefore⟩
      · exact .inl (zero_div _)
    · split
      next serves => exact .inr ⟨rfl, shareOf_le_of_serves serves leftBefore⟩
      · exact .inl (zero_div _)
  rcases moves with ⟨toLeft, toRight, leftMoved, rightMoved, leftCase, rightCase⟩
  refine ⟨tended.step call, leftWeight.trans compares.leftWeight,
    rightWeight.trans compares.rightWeight, ?_, ?_⟩
  all_goals
    rcases leftCase with rfl | ⟨rfl, behind⟩
    all_goals
      rcases rightCase with rfl | ⟨rfl, ahead⟩
      all_goals linarith

def serviceOf (group : String) (start : WeightedFairQueue) (calls : List Call) : ℚ :=
  occurrences step (Serves group) start calls / start.weightOf group

theorem shareOf_run (tended : fair.Tended) {calls : List Call}
    (stays : Along step (StaysBacklogged left right) fair calls)
    (isOne : group = left ∨ group = right) :
    (run step fair calls).shareOf group = fair.shareOf group + serviceOf group fair calls := by
  have start : fair.Tended ∧ fair.weightOf group = fair.weightOf group ∧
      fair.shareOf group = fair.shareOf group + ((0 : ℕ) : ℚ) / fair.weightOf group :=
    ⟨tended, rfl, by simp⟩
  have counts := stays.counted (Serves group)
    (fun state served => state.Tended ∧ state.weightOf group = fair.weightOf group ∧
      state.shareOf group = fair.shareOf group + (served : ℚ) / fair.weightOf group)
    (by
      rintro state call served ⟨tended, weight, share⟩ stays
      rcases stays group isOne with ⟨before, after, kept⟩
      rcases shareOf_step tended before after kept with ⟨sameWeight, more⟩
      refine ⟨tended.step call, sameWeight.trans weight, ?_⟩
      rw [more, share, weight, Nat.cast_add, add_div, add_assoc]
      split
      · simp
      · simp) start
  rw [Nat.zero_add] at counts
  exact counts.2.2

theorem tended_run (calls : List Call) : (run step {} calls).Tended :=
  run_invariant Tended (fun _ call tended => tended.step call) tended_empty calls

theorem abs_le_of_between {gained first one other : ℚ} (pays : 0 < one)
    (lower : min first (-other) ≤ first + gained) (upper : first + gained ≤ max first one) :
    |gained| ≤ max one other + |first| := by
  have size := le_abs_self first
  have sizeNeg := neg_abs_le first
  have largerOne := le_max_left one other
  have largerOther := le_max_right one other
  apply abs_le.mpr
  constructor
  · rcases min_le_iff.mp lower with stays | moves
    · linarith
    · linarith
  · rcases le_max_iff.mp upper with stays | moves
    · linarith
    · linarith

/-- While two groups stay backlogged, their services for their weights differ by no more than one
service and the difference that there was before. -/
theorem abs_serviceOf_sub_le (before calls : List Call) (left right : String)
    (stays : Along step (StaysBacklogged left right) (run step {} before) calls) :
    |serviceOf left (run step {} before) calls - serviceOf right (run step {} before) calls| ≤
      max (1 / (run step {} before).weightOf left) (1 / (run step {} before).weightOf right) +
        |(run step {} before).shareOf left - (run step {} before).shareOf right| := by
  have tended := tended_run before
  have compares := stays.invariant (fun _ _ compares stays => compares.step stays)
    (tended.compares left right)
  have lower := compares.lower
  have upper := compares.upper
  rw [shareOf_run tended stays (.inl rfl), shareOf_run tended stays (.inr rfl),
    add_sub_add_comm] at lower upper
  exact abs_le_of_between (one_div_pos.mpr (tended.positive left)) lower upper

/-! ## A group that comes late -/

/-- Where all groups stand, with weight one each: how often they have been served and how many
entries wait. -/
structure Stands (fair : WeightedFairQueue) (served waiting : String → ℕ) : Prop where
  weight : ∀ group, fair.weightOf group = 1
  deficit : ∀ group, fair.deficitOf group = served group
  length : ∀ group, (fair.queueOf group).length = waiting group

variable {served waiting : String → ℕ}

theorem Stands.shareOf (stands : Stands fair served waiting) (group : String) :
    fair.shareOf group = served group := by
  rw [WeightedFairQueue.shareOf, stands.weight, stands.deficit, div_one]

theorem Stands.queueOf_ne_nil_iff (stands : Stands fair served waiting) (group : String) :
    fair.queueOf group ≠ [] ↔ waiting group ≠ 0 := by
  rw [← stands.length, Ne, ← length_eq_zero_iff]

theorem stands_empty : Stands {} (fun _ => 0) fun _ => 0 :=
  ⟨fun _ => rfl, fun _ => rfl, fun _ => rfl⟩

section

variable (stands : Stands fair served waiting)
include stands

theorem Stands.push (pushed : String) (entry : QueueEntry) : Stands (fair.push pushed entry) served
      (Function.update waiting pushed (waiting pushed + 1)) := by
  refine ⟨fun group => ?_, fun group => ?_, fun group => ?_⟩
  · rw [weightOf_push, stands.weight, ite_self]
  · rw [deficitOf_push]
    exact stands.deficit group
  · rw [queueOf_push, update_apply]
    split
    · rw [length_append, stands.length]
      rfl
    · exact stands.length group

theorem Stands.popWfq {chosen : String} (backlogged : waiting chosen ≠ 0)
    (least : ∀ group, group ≠ chosen → waiting group ≠ 0 → served chosen < served group)
    (nowMs : ℚ) : Stands (fair.popWfq nowMs).2 (Function.update served chosen (served chosen + 1))
      (Function.update waiting chosen (waiting chosen - 1)) := by
  rcases chooses_popWfq fair nowMs with ⟨empty, -⟩ | ⟨group, chooses⟩
  · exact absurd (empty chosen) ((stands.queueOf_ne_nil_iff chosen).mpr backlogged)
  · have same : group = chosen := by
      by_contra other
      have fewer := least group other ((stands.queueOf_ne_nil_iff group).mp chooses.waiting)
      have behind := chooses.least chosen ((stands.queueOf_ne_nil_iff chosen).mpr backlogged)
      rw [stands.shareOf, stands.shareOf, Nat.cast_le] at behind
      omega
    subst same
    refine ⟨fun other => ?_, fun other => ?_, fun other => ?_⟩
    · rw [chooses.weight, stands.weight]
    · rw [chooses.deficit, stands.deficit, update_apply]
      split
      next same => simp [same]
      · simp
    · rw [chooses.queue, update_apply]
      split
      next same => rw [length_tail, stands.length, same]
      · exact stands.length other

theorem Stands.pushes (pushed : String) (entry : QueueEntry) (count : ℕ) :
    Stands (run step fair (replicate count (.push pushed entry))) served
      (Function.update waiting pushed (waiting pushed + count)) := by
  induction count generalizing fair waiting with
  | zero => simpa using stands
  | succ count ih =>
    have later := ih (stands.push pushed entry)
    rw [update_idem, update_self, add_right_comm] at later
    exact later

/-- A group catches up with the others: it is served again and again. -/
theorem Stands.pops (chosen : String) (count : ℕ) (enough : count ≤ waiting chosen)
    (least : ∀ group, group ≠ chosen → waiting group ≠ 0 →
      served chosen + count ≤ served group) (nowMs : ℚ) :
    Stands (run step fair (replicate count (.popWfq nowMs)))
      (Function.update served chosen (served chosen + count))
      (Function.update waiting chosen (waiting chosen - count)) := by
  induction count generalizing fair served waiting with
  | zero => simpa using stands
  | succ count ih =>
    have next := stands.popWfq (by omega : waiting chosen ≠ 0)
      (fun group other backlogged => by
        have bound := least group other backlogged
        omega) nowMs
    have later := ih next
      (by rw [update_self]; omega)
      (fun group other backlogged => by
        rw [update_of_ne other] at backlogged ⊢
        rw [update_self]
        have bound := least group other backlogged
        omega)
    rw [update_idem, update_idem, update_self, update_self,
      add_right_comm, Nat.sub_sub, Nat.add_comm 1 count] at later
    exact later

theorem Stands.stays {chosen other : String} (count : ℕ) (distinct : other ≠ chosen)
    (backlogged : waiting other ≠ 0) (enough : count < waiting chosen)
    (least : ∀ group, group ≠ chosen → waiting group ≠ 0 →
      served chosen + count ≤ served group) (nowMs : ℚ) :
    Along step (StaysBacklogged other chosen) fair (replicate count (.popWfq nowMs)) := by
  induction count generalizing fair served waiting with
  | zero => trivial
  | succ count ih =>
    have next := stands.popWfq (by omega : waiting chosen ≠ 0)
      (fun group different waits => by
        have bound := least group different waits
        omega) nowMs
    refine ⟨fun group isOne => ⟨?_, ?_, fun weight impossible => by cases impossible⟩, ?_⟩
    · rw [stands.queueOf_ne_nil_iff]
      rcases isOne with rfl | rfl
      · exact backlogged
      · omega
    · refine (next.queueOf_ne_nil_iff group).mpr ?_
      rcases isOne with rfl | rfl
      · rw [update_of_ne distinct]
        exact backlogged
      · rw [update_self]
        omega
    · apply ih next
      · rw [update_of_ne distinct]
        exact backlogged
      · rw [update_self]
        omega
      · intro group different waits
        rw [update_of_ne different] at waits ⊢
        rw [update_self]
        have bound := least group different waits
        omega

end

/-- An entry without a deadline. -/
def plainEntry : QueueEntry where
  item := { id := 0, createdAt := 0 }
  priorityLevel := .normal
  enqueuedMs := 0

/-- The group `a` is served while it is alone. Then `b` comes. -/
def lateComer (count : ℕ) : List Call :=
  replicate (count + 1) (.push "a" plainEntry) ++ replicate count (.popWfq 0) ++
    replicate (count + 1) (.push "b" plainEntry)

theorem stands_lateComer (count : ℕ) :
    Stands (run step {} (lateComer count)) (fun group => if group = "a" then count else 0)
      fun group => if group = "a" then 1 else if group = "b" then count + 1 else 0 := by
  have filled := stands_empty.pushes "a" plainEntry (count + 1)
  have alone : ∀ group, group ≠ "a" →
      Function.update (fun _ => 0) "a" (0 + (count + 1)) group ≠ 0 → 0 + count ≤ 0 := by
    intro group other waits
    rw [update_of_ne other] at waits
    exact absurd rfl waits
  have served := filled.pops "a" count (by rw [update_self]; omega) alone 0
  have joined := served.pushes "b" plainEntry (count + 1)
  rw [lateComer, run_append, run_append]
  convert joined using 1
  · funext group
    simp [update_apply]
  · funext group
    by_cases isA : group = "a"
    · simp [isA]
    · by_cases isB : group = "b"
      · simp [isB]
      · simp [isA, isB]

theorem stays_lateComer (count : ℕ) :
    Along step (StaysBacklogged "a" "b") (run step {} (lateComer count))
        (replicate count (.popWfq 0)) ∧
      Stands (run step (run step {} (lateComer count)) (replicate count (.popWfq 0)))
        (fun group => if group = "a" ∨ group = "b" then count else 0)
        fun group => if group = "a" ∨ group = "b" then 1 else 0 := by
  have stands := stands_lateComer count
  have behind : ∀ group, group ≠ "b" →
      (if group = "a" then 1 else if group = "b" then count + 1 else 0) ≠ 0 →
      (if "b" = "a" then count else 0) + count ≤ if group = "a" then count else 0 := by
    intro group notB waits
    by_cases isA : group = "a"
    · simp [isA]
    · simp [isA, notB] at waits
  refine ⟨stands.stays count (by simp) (by simp) (by simp) behind 0, ?_⟩
  convert stands.pops "b" count (by simp) behind 0 using 1
  · funext group
    by_cases isB : group = "b"
    · simp [isB]
    · simp [isB, update_of_ne]
  · funext group
    by_cases isB : group = "b"
    · simp [isB]
    · simp [isB, update_of_ne]

theorem one_lateComer :
    |serviceOf "a" (run step {} (lateComer 1)) [.popWfq 0] -
      serviceOf "b" (run step {} (lateComer 1)) [.popWfq 0]| ≤ 2 := by
  have stands := stands_lateComer 1
  have bound := abs_serviceOf_sub_le (lateComer 1) [.popWfq 0] "a" "b" (stays_lateComer 1).1
  rw [stands.weight, stands.weight, stands.shareOf, stands.shareOf] at bound
  simp only [if_true, String.reduceEq, if_false] at bound
  norm_num at bound
  exact bound

/-- The difference of the services is bounded by no constant that depends on the weights alone. -/
theorem not_exists_bound :
    ¬ ∃ bound : ℚ → ℚ → ℚ, ∀ (before calls : List Call) (left right : String),
      Along step (StaysBacklogged left right) (run step {} before) calls →
      |serviceOf left (run step {} before) calls - serviceOf right (run step {} before) calls| ≤
        bound ((run step {} before).weightOf left) ((run step {} before).weightOf right) := by
  rintro ⟨bound, bounded⟩
  obtain ⟨count, more⟩ := exists_nat_gt (bound 1 1)
  have stands := stands_lateComer count
  rcases stays_lateComer count with ⟨stays, later⟩
  have less := bounded (lateComer count) (replicate count (.popWfq 0)) "a" "b" stays
  have tended := tended_run (lateComer count)
  have ofA := shareOf_run tended stays (.inl rfl)
  have ofB := shareOf_run tended stays (.inr rfl)
  rw [stands.weight, stands.weight] at less
  rw [later.shareOf, stands.shareOf] at ofA ofB
  have noneOfA : serviceOf "a" (run step {} (lateComer count))
      (replicate count (.popWfq 0)) = 0 := by
    simpa using ofA
  have allOfB : serviceOf "b" (run step {} (lateComer count))
      (replicate count (.popWfq 0)) = count := by
    simpa using ofB.symm
  rw [noneOfA, allOfB, zero_sub, abs_neg, Nat.abs_cast] at less
  exact absurd less (not_le.mpr more)

end WeightedFairQueue

end AgenticOS.OmniRoute
