import AgenticOS.Data.Dict
import AgenticOS.Data.StableSort
import Mathlib.Data.List.MinMax

/-!
# The best item of the best group

A loop that keeps the best item of each group in a dictionary, and then takes the best of those.
Ties inside a group go to the earlier item, and ties between groups to the group that was met
first. So the result is the head of a stable sort: by the score, and then by the place of the group.
-/

namespace AgenticOS.GroupBest

open List Dict

universe u v w

variable {α : Type u} {κ : Type v} {β : Type w} [DecidableEq κ] [LinearOrder β]
variable (keyOf : α → κ) (score : α → β)

def keepBest (kept : Dict κ α) (item : α) : Dict κ α :=
  match kept.get? (keyOf item) with
  | none => kept.set (keyOf item) item
  | some best => if score best < score item then kept.set (keyOf item) item else kept

def bestOfGroups [DecidableEq α] (items : List α) : Option α :=
  (items.foldl (keepBest keyOf score) Dict.empty).values.argmax score

/-- Where the first item of the group stands. -/
def place (items : List α) (key : κ) : Nat :=
  (items.map keyOf).idxOf key

/-- The item has a higher score, or the same and a group that is met no later. -/
def Leads (items : List α) (left right : α) : Prop :=
  score right < score left ∨
    (score left = score right ∧ place keyOf items (keyOf left) ≤ place keyOf items (keyOf right))
deriving Decidable

instance (items : List α) : Std.Total (Leads keyOf score items) :=
  inferInstanceAs (Std.Total (StableSort.ByKeys score fun item => place keyOf items (keyOf item)))

instance (items : List α) : IsTrans α (Leads keyOf score items) :=
  inferInstanceAs (IsTrans α (StableSort.ByKeys score fun item => place keyOf items (keyOf item)))

def FirstBest (seen : List α) (item : α) : Prop :=
  ∃ before after, seen = before ++ item :: after ∧
    (∀ other ∈ before, keyOf other = keyOf item → score other < score item) ∧
    ∀ other ∈ after, keyOf other = keyOf item → score other ≤ score item

structure Keeps (items seen : List α) (kept : Dict κ α) : Prop where
  keys : ∀ key, key ∈ kept.keys ↔ ∃ item ∈ seen, keyOf item = key
  sorted : kept.keys.Pairwise fun first second =>
    place keyOf items first < place keyOf items second
  best : ∀ key item, kept.get? key = some item → keyOf item = key ∧ FirstBest keyOf score seen item

variable {keyOf score} {items seen rest : List α} {kept : Dict κ α} {item : α}

theorem keeps_empty : Keeps keyOf score items [] Dict.empty where
  keys key := by simp [Dict.keys, Dict.empty]
  sorted := .nil
  best key item found := by cases found

variable {best : α}

omit [DecidableEq κ] in
theorem FirstBest.append (leads : FirstBest keyOf score seen best)
    (notBetter : keyOf item = keyOf best → score item ≤ score best) :
    FirstBest keyOf score (seen ++ [item]) best := by
  obtain ⟨before, after, rfl, smaller, larger⟩ := leads
  refine ⟨before, after ++ [item], by simp, smaller, fun other member same => ?_⟩
  rcases mem_append.mp member with inAfter | new
  · exact larger other inAfter same
  · rw [mem_singleton] at new
    subst new
    exact notBetter same

omit [DecidableEq κ] in
theorem FirstBest.le {other : α} (leads : FirstBest keyOf score seen best) (member : other ∈ seen)
    (same : keyOf other = keyOf best) : score other ≤ score best := by
  obtain ⟨before, after, rfl, smaller, larger⟩ := leads
  rw [mem_append, mem_cons] at member
  rcases member with inBefore | rfl | inAfter
  · exact (smaller other inBefore same).le
  · exact le_rfl
  · exact larger other inAfter same

omit [DecidableEq κ] in
theorem firstBest_append_self
    (better : ∀ other ∈ seen, keyOf other = keyOf item → score other < score item) :
    FirstBest keyOf score (seen ++ [item]) item :=
  ⟨seen, [], rfl, better, fun _ member => absurd member not_mem_nil⟩

theorem place_lt_of_seen {key : κ} (earlier : ∃ other ∈ seen, keyOf other = key)
    (new : ∀ other ∈ seen, keyOf other ≠ keyOf item) :
    place keyOf (seen ++ item :: rest) key < place keyOf (seen ++ item :: rest) (keyOf item) := by
  obtain ⟨other, member, rfl⟩ := earlier
  have inSeen : keyOf other ∈ seen.map keyOf := mem_map_of_mem member
  have notInSeen : keyOf item ∉ seen.map keyOf := by
    intro again
    obtain ⟨same, sameMem, sameEq⟩ := mem_map.mp again
    exact new same sameMem sameEq
  unfold place
  rw [map_append, idxOf_append_of_mem inSeen, idxOf_append_of_notMem notInSeen]
  exact (idxOf_lt_length_of_mem inSeen).trans_le (Nat.le_add_right _ _)

section

variable (keeps : Keeps keyOf score items seen kept)
include keeps

theorem Keeps.best_append {key : κ} (found : kept.get? key = some best)
    (notBetter : keyOf item = key → score item ≤ score best) :
    keyOf best = key ∧ FirstBest keyOf score (seen ++ [item]) best := by
  obtain ⟨same, leads⟩ := keeps.best key best found
  exact ⟨same, leads.append fun equal => notBetter (equal.trans same)⟩

theorem Keeps.best_set
    (better : ∀ other ∈ seen, keyOf other = keyOf item → score other < score item) {key : κ}
    (found : (kept.set (keyOf item) item).get? key = some best) :
    keyOf best = key ∧ FirstBest keyOf score (seen ++ [item]) best := by
  rw [get?_set] at found
  split at found
  · next same =>
      cases found
      exact ⟨same.symm, firstBest_append_self better⟩
  · next differs => exact keeps.best_append found fun equal => absurd equal.symm differs

theorem Keeps.mem_keys_append (key : κ) :
    (∃ other ∈ seen ++ [item], keyOf other = key) ↔ key = keyOf item ∨ key ∈ kept.keys := by
  rw [keeps.keys]
  simp only [mem_append, mem_singleton, or_and_right, exists_or, exists_eq_left]
  rw [or_comm, eq_comm]

end

/-- One round of the loop. -/
theorem Keeps.step (keeps : Keeps keyOf score (seen ++ item :: rest) seen kept) :
    Keeps keyOf score (seen ++ item :: rest) (seen ++ [item]) (keepBest keyOf score kept item) := by
  unfold keepBest
  cases found : kept.get? (keyOf item) with
  | none =>
    have absent : keyOf item ∉ kept.keys := by
      rw [mem_keys_iff, found]
      simp
    have new : ∀ other ∈ seen, keyOf other ≠ keyOf item := fun other member same =>
      absent ((keeps.keys _).mpr ⟨other, member, same⟩)
    refine ⟨fun key => ?_, ?_, fun key best =>
      keeps.best_set fun other member same => absurd same (new other member)⟩
    · rw [keeps.mem_keys_append, mem_keys_set]
    · have keysEq : (kept.set (keyOf item) item).keys = kept.keys ++ [keyOf item] :=
        (keys_assign _ _ _).trans (if_neg absent)
      rw [keysEq, pairwise_append]
      refine ⟨keeps.sorted, pairwise_singleton _ _, fun key member last isLast => ?_⟩
      rw [mem_singleton] at isLast
      subst isLast
      exact place_lt_of_seen ((keeps.keys key).mp member) new
  | some best =>
    have present : keyOf item ∈ kept.keys := mem_keys_iff.mpr ⟨best, found⟩
    have known := keeps.best _ _ found
    dsimp only
    split
    · next better =>
        have keysEq : (kept.set (keyOf item) item).keys = kept.keys :=
          (keys_assign _ _ _).trans (if_pos present)
        refine ⟨fun key => ?_, keysEq ▸ keeps.sorted, fun key other =>
          keeps.best_set fun earlier member same => ?_⟩
        · rw [keeps.mem_keys_append, mem_keys_set]
        · exact (known.2.le member (same.trans known.1.symm)).trans_lt better
    · next notBetter =>
        refine ⟨fun key => ?_, keeps.sorted, fun key other otherFound =>
          keeps.best_append otherFound fun same => ?_⟩
        · rw [keeps.mem_keys_append, or_iff_right_of_imp]
          exact fun same => same ▸ present
        · subst same
          cases found.symm.trans otherFound
          exact not_lt.mp notBetter

theorem Keeps.foldl (keeps : Keeps keyOf score (seen ++ rest) seen kept) :
    Keeps keyOf score (seen ++ rest) (seen ++ rest) (rest.foldl (keepBest keyOf score) kept) := by
  induction rest generalizing seen kept with
  | nil => rwa [append_nil] at keeps ⊢
  | cons item rest ih =>
    have next := keeps.step
    have assoc : seen ++ item :: rest = (seen ++ [item]) ++ rest := by simp
    rw [assoc] at next ⊢
    exact ih next

theorem keeps_loop (items : List α) :
    Keeps keyOf score items items (items.foldl (keepBest keyOf score) Dict.empty) := by
  have start : Keeps keyOf score ([] ++ items) [] .empty := keeps_empty
  exact start.foldl

/-! ## The result -/

theorem Keeps.exists_best (keeps : Keeps keyOf score items seen kept) (member : item ∈ seen) :
    ∃ best ∈ kept.values, keyOf best = keyOf item ∧ FirstBest keyOf score seen best := by
  obtain ⟨best, found⟩ := mem_keys_iff.mp ((keeps.keys _).mpr ⟨item, member, rfl⟩)
  exact ⟨best, mem_values_iff.mpr ⟨_, found⟩, keeps.best _ _ found⟩

theorem Keeps.values_sorted (keeps : Keeps keyOf score items seen kept) :
    kept.values.Pairwise fun first second =>
      place keyOf items (keyOf first) < place keyOf items (keyOf second) := by
  have keysEq : kept.values.map keyOf = kept.keys := by
    unfold Dict.values Dict.keys
    rw [map_map]
    refine map_congr_left fun entry member => ?_
    exact (keeps.best entry.1 entry.2 (get?_eq_some_iff.mpr member)).1
  have sorted := keeps.sorted
  rw [← keysEq, pairwise_map] at sorted
  exact sorted

omit [DecidableEq κ] in
theorem argmax_split [DecidableEq α] (isBest : items.argmax score = some best) :
    ∃ before after, items = before ++ best :: after ∧
      (∀ other ∈ before, score other < score best) ∧ ∀ other ∈ after, score other ≤ score best := by
  obtain ⟨member, highest, first⟩ := argmax_eq_some_iff.mp isBest
  obtain ⟨before, after, rfl, absent⟩ := eq_append_cons_of_mem member
  refine ⟨before, after, rfl, fun other inBefore => ?_, fun other inAfter => ?_⟩
  · by_contra notLess
    have earlier := first other (mem_append_left _ inBefore) (not_lt.mp notLess)
    rw [idxOf_append_of_notMem absent, idxOf_append_of_mem inBefore] at earlier
    have inRange := idxOf_lt_length_of_mem inBefore
    omega
  · exact highest other (mem_append_right _ (mem_cons_of_mem _ inAfter))

theorem Keeps.head? [DecidableEq α] (keeps : Keeps keyOf score items items kept)
    (isBest : kept.values.argmax score = some best) :
    (items.insertionSort (Leads keyOf score items)).head? = some best := by
  obtain ⟨first, last, split, better, notWorse⟩ := argmax_split isBest
  have member : best ∈ kept.values := by
    rw [split]
    simp
  obtain ⟨key, found⟩ := mem_values_iff.mp member
  obtain ⟨-, before, after, itemsEq, smaller, larger⟩ := keeps.best key best found
  have sorted := keeps.values_sorted
  rw [split, pairwise_append, pairwise_cons] at sorted
  -- The leader of another group has a lower score, or is met later with no higher one.
  have others : ∀ other ∈ items, keyOf other ≠ keyOf best → score other < score best ∨
      (score other ≤ score best ∧
        place keyOf items (keyOf best) < place keyOf items (keyOf other)) := by
    intro other inItems differs
    obtain ⟨leader, leaderMem, same, leads⟩ := keeps.exists_best inItems
    have lower : score other ≤ score leader := leads.le inItems same.symm
    rw [split, mem_append, mem_cons] at leaderMem
    rcases leaderMem with inFirst | rfl | inLast
    · exact .inl (lower.trans_lt (better leader inFirst))
    · exact absurd same.symm differs
    · exact .inr ⟨lower.trans (notWorse leader inLast), same ▸ sorted.2.1.1 leader inLast⟩
  rw [StableSort.head?_insertionSort_iff]
  refine ⟨before, after, itemsEq, fun other inBefore => ?_, fun other inAfter => ?_⟩
  · have inItems : other ∈ items := itemsEq ▸ mem_append_left _ inBefore
    unfold Leads
    rw [not_or, not_and, not_lt, not_le]
    by_cases same : keyOf other = keyOf best
    · have less := smaller other inBefore same
      exact ⟨less.le, fun equal => absurd equal less.ne⟩
    · rcases others other inItems same with less | ⟨lower, later⟩
      · exact ⟨less.le, fun equal => absurd equal less.ne⟩
      · exact ⟨lower, fun _ => later⟩
  · have inItems : other ∈ items := by
      rw [itemsEq]
      simp [inAfter]
    by_cases same : keyOf other = keyOf best
    · rcases (larger other inAfter same).lt_or_eq with less | equal
      · exact .inl less
      · exact .inr ⟨equal.symm, same ▸ le_rfl⟩
    · rcases others other inItems same with less | ⟨lower, later⟩
      · exact .inl less
      · rcases lower.lt_or_eq with less | equal
        · exact .inl less
        · exact .inr ⟨equal.symm, later.le⟩

theorem bestOfGroups_eq_head? [DecidableEq α] (items : List α) :
    bestOfGroups keyOf score items = (items.insertionSort (Leads keyOf score items)).head? := by
  have keeps : Keeps keyOf score items items _ := keeps_loop items
  unfold bestOfGroups
  cases found : (items.foldl (keepBest keyOf score) .empty).values.argmax score with
  | some best => exact (keeps.head? found).symm
  | none =>
    cases items with
    | nil => rfl
    | cons item rest =>
      obtain ⟨best, member, -⟩ := keeps.exists_best mem_cons_self
      rw [argmax_eq_none.mp found] at member
      cases member

end AgenticOS.GroupBest
