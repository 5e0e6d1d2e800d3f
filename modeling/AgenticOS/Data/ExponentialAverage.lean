import Mathlib.Algebra.Order.Field.Basic
import Mathlib.Data.List.Induction
import Mathlib.Tactic.Linarith
import Mathlib.Tactic.Ring

/-!
# Exponential averages

The exponential average of a sequence begins with its first value and moves by a fixed share of
the difference towards every later one. Of two averages the one with the larger share is the
faster: as long as the sequence falls it stays below the slower one, and as long as the sequence
rises above it.
-/

namespace AgenticOS.ExponentialAverage

open List

universe u

variable {K : Type u} [Field K]

/-- The average after a value. -/
def next (share old value : K) : K :=
  share * value + (1 - share) * old

/-- The average of a sequence, with zero for the empty one. -/
def average (share : K) : List K → K
  | [] => 0
  | first :: rest => rest.foldl (next share) first

theorem average_concat (share value : K) {values : List K} (nonempty : values ≠ []) :
    average share (values ++ [value]) = next share (average share values) value := by
  cases values with
  | nil => exact absurd rfl nonempty
  | cons first rest => simp [average]

theorem average_map_neg (share : K) (values : List K) :
    average share (values.map Neg.neg) = -average share values := by
  induction values using reverseRecOn with
  | nil => simp [average]
  | append_singleton values value ih =>
    by_cases empty : values = []
    · simp [empty, average]
    · have nonempty : values.map Neg.neg ≠ [] := by simpa using empty
      rw [map_append, map_singleton, average_concat share _ nonempty,
        average_concat share _ empty, ih]
      unfold next
      ring

variable [LinearOrder K] [IsStrictOrderedRing K] {fast slow : K} {values : List K}

section

variable (slower : slow ≤ fast) (partly : fast ≤ 1)
include slower partly

/-- Of a sequence that falls no average is below a bound of it, and the faster one is not above
the slower one. -/
theorem bound_le_average_le (falling : values.Pairwise (· ≥ ·)) (nonempty : values ≠ [])
    (bound : K) (below : ∀ value ∈ values, bound ≤ value) :
    bound ≤ average fast values ∧ average fast values ≤ average slow values := by
  induction values using reverseRecOn generalizing bound with
  | nil => exact absurd rfl nonempty
  | append_singleton values value ih =>
    have boundValue : bound ≤ value := below value (by simp)
    by_cases empty : values = []
    · simpa [empty, average] using boundValue
    · rcases pairwise_append.mp falling with ⟨before, -, least⟩
      rcases ih before empty value fun other member =>
        least other member value mem_cons_self with ⟨bounded, ordered⟩
      rw [average_concat fast _ empty, average_concat slow _ empty]
      unfold next
      have drop : 0 ≤ (1 - fast) * (average fast values - value) :=
        mul_nonneg (sub_nonneg.mpr partly) (sub_nonneg.mpr bounded)
      have gap : 0 ≤ (1 - slow) * (average slow values - average fast values) :=
        mul_nonneg (sub_nonneg.mpr (slower.trans partly)) (sub_nonneg.mpr ordered)
      have share : 0 ≤ (fast - slow) * (average fast values - value) :=
        mul_nonneg (sub_nonneg.mpr slower) (sub_nonneg.mpr bounded)
      constructor
      · linarith
      · linarith

theorem average_le_of_falling (falling : values.Pairwise (· ≥ ·)) :
    average fast values ≤ average slow values := by
  by_cases empty : values = []
  · simp [empty, average]
  · have split := (dropLast_concat_getLast empty).symm
    generalize values.dropLast = before, values.getLast empty = last at split
    refine (bound_le_average_le slower partly falling empty last fun value member => ?_).2
    rw [split] at falling member
    rcases mem_append.mp member with earlier | same
    · exact (pairwise_append.mp falling).2.2 value earlier last mem_cons_self
    · exact (mem_singleton.mp same).ge

theorem average_le_of_rising (rising : values.Pairwise (· ≤ ·)) :
    average slow values ≤ average fast values := by
  have falling : (values.map Neg.neg).Pairwise (· ≥ ·) :=
    pairwise_map.mpr (rising.imp fun le => neg_le_neg le)
  have mirrored := average_le_of_falling slower partly falling
  rw [average_map_neg, average_map_neg] at mirrored
  exact neg_le_neg_iff.mp mirrored

end

theorem average_pos {share : K} (positive : 0 < share) (partly : share ≤ 1) (nonempty : values ≠ [])
    (above : ∀ value ∈ values, 0 < value) : 0 < average share values := by
  induction values using reverseRecOn with
  | nil => exact absurd rfl nonempty
  | append_singleton values value ih =>
    have last : 0 < value := above value (by simp)
    by_cases empty : values = []
    · simpa [empty, average] using last
    · rw [average_concat share _ empty]
      have before := ih empty fun other member => above other (mem_append_left _ member)
      exact add_pos_of_pos_of_nonneg (mul_pos positive last)
        (mul_nonneg (sub_nonneg.mpr partly) before.le)

end AgenticOS.ExponentialAverage
