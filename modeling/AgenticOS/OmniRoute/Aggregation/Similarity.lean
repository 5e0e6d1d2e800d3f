import Mathlib.Tactic.Positivity

/-!
# The edit distance of two answers

`normalized_edit_distance` keeps one row of the table of distances and overwrites it from left to
right. Numbers are rational.
-/

namespace AgenticOS.OmniRoute.SimilarityComputer

open List

universe u

variable {α : Type u} [DecidableEq α]

/-- Fill the cell right of the given one. The state is the row and what stood in the cell before
it was overwritten. -/
def cell (a b : List α) (i : Nat) : List Nat × Nat → Nat → List Nat × Nat
  | (dp, prev), j =>
    let tmp := dp.getD (j + 1) 0
    let cost := if a[i]? = b[j]? then 0 else 1
    (dp.set (j + 1) (min (min (tmp + 1) (dp.getD j 0 + 1)) (prev + cost)), tmp)

/-- Fill the row of an element of the first list. -/
def row (a b : List α) (dp : List Nat) (i : Nat) : List Nat :=
  ((List.range b.length).foldl (cell a b i) (dp.set 0 (i + 1), dp.getD 0 0)).1

def lastRow (a b : List α) : List Nat :=
  (List.range a.length).foldl (row a b) (List.range (b.length + 1))

/-- The share of common tokens. What tokens a text has, `lower` and `split` decide. -/
def tokenOverlap (tokens : List Char → List String) (a b : List Char) : ℚ :=
  let tokensA := (tokens a).toFinset
  let tokensB := (tokens b).toFinset
  if tokensA = ∅ ∨ tokensB = ∅ then 0
  else (tokensA ∩ tokensB).card / (min tokensA.card tokensB.card : Nat)

/-- The similarity by the distance; by the tokens where a text is long. -/
def normalizedEditDistance (tokens : List Char → List String) (a b : List Char) : ℚ :=
  if a = [] ∧ b = [] then 1
  else if a = [] ∨ b = [] then 0
  else if 100 < a.length ∨ 100 < b.length then
    tokenOverlap tokens (a.take 200) (b.take 200)
  else if 0 < max a.length b.length then
    1 - ((lastRow a b).getD b.length 0 : ℚ) / (max a.length b.length : Nat)
  else 1

/-- The distance of the first elements of one list to the first of the other: insert, delete or
replace one element, or keep it where it is the same. -/
def levenshtein (a b : List α) : Nat → Nat → Nat
  | 0, j => j
  | i + 1, 0 => i + 1
  | i + 1, j + 1 =>
    min (min (levenshtein a b i (j + 1) + 1) (levenshtein a b (i + 1) j + 1))
      (levenshtein a b i j + if a[i]? = b[j]? then 0 else 1)

variable {a b : List α} {i j : Nat}

@[simp] theorem levenshtein_zero_right : levenshtein a b i 0 = i := by
  cases i <;> rw [levenshtein]

theorem levenshtein_comm (a b : List α) (i j : Nat) :
    levenshtein a b i j = levenshtein b a j i := by
  induction i generalizing j with
  | zero => rw [levenshtein, levenshtein_zero_right]
  | succ i ihRow =>
    induction j with
    | zero => rw [levenshtein_zero_right, levenshtein]
    | succ j ihCell =>
      rw [levenshtein, levenshtein, ihRow, ihRow, ihCell, min_comm (levenshtein b a (j + 1) i + 1)]
      simp only [eq_comm]

theorem levenshtein_eq_zero_iff (left : i ≤ a.length) (right : j ≤ b.length) :
    levenshtein a b i j = 0 ↔ a.take i = b.take j := by
  induction i generalizing j with
  | zero =>
    rw [levenshtein, take_zero, eq_comm (a := []), take_eq_nil_iff]
    grind
  | succ i ih =>
    cases j with
    | zero => simp [ne_nil_of_length_pos (Nat.lt_of_lt_of_le i.succ_pos left)]
    | succ j =>
      rw [levenshtein, take_add_one, take_add_one]
      have lasts : a[i]? = some a[i] ∧ b[j]? = some b[j] := by grind
      have rest := ih (Nat.le_of_lt left) (Nat.le_of_lt right)
      constructor
      · intro zero
        have both : levenshtein a b i j = 0 ∧ a[i]? = b[j]? := by grind
        rw [rest.mp both.1, both.2]
      · intro same
        rw [lasts.1, lasts.2, Option.toList_some, Option.toList_some] at same
        obtain ⟨front, last⟩ := append_inj' same rfl
        rw [rest.mpr front, lasts.1, lasts.2, singleton_inj.mp last]
        simp

def tableRow (a b : List α) (i : Nat) : List Nat :=
  (List.range (b.length + 1)).map (levenshtein a b i)

/-- A row whose first cells already belong to the next one. -/
def mixedRow (a b : List α) (i filled : Nat) : List Nat :=
  (List.range (b.length + 1)).map fun j =>
    levenshtein a b (if j ≤ filled then i + 1 else i) j

/-- The induction is on the cells filled. Left of a cell stands the new row, right of it the old
one, and `prev` is the old cell before it. -/
theorem foldl_cell (a b : List α) (i : Nat) {filled : Nat} (inside : filled ≤ b.length) :
    (List.range filled).foldl (cell a b i) ((tableRow a b i).set 0 (i + 1), i) =
      (mixedRow a b i filled, levenshtein a b i filled) := by
  induction filled with
  | zero =>
    refine Prod.ext (ext_getElem (by simp [tableRow, mixedRow]) fun j _ _ => ?_) (by simp)
    cases j <;> simp [tableRow, mixedRow]
  | succ filled ih =>
    rw [range_succ, foldl_append, ih (Nat.le_of_lt inside), foldl_cons, foldl_nil]
    have here : (mixedRow a b i filled).getD filled 0 = levenshtein a b (i + 1) filled := by
      simp [mixedRow, getD_eq_getElem?_getD, Nat.lt_succ_of_lt inside]
    have next : (mixedRow a b i filled).getD (filled + 1) 0 = levenshtein a b i (filled + 1) := by
      simp [mixedRow, getD_eq_getElem?_getD, Nat.succ_lt_succ inside]
    rw [cell, here, next, ← levenshtein]
    refine Prod.ext (ext_getElem (by simp [mixedRow]) fun j _ _ => ?_) rfl
    rw [getElem_set]
    split
    next at_cell => simp [mixedRow, ← at_cell]
    next elsewhere =>
      have same : j ≤ filled ↔ j ≤ filled + 1 := by omega
      simp [mixedRow, same]

theorem row_tableRow (a b : List α) (i : Nat) :
    row a b (tableRow a b i) i = tableRow a b (i + 1) := by
  have first : (tableRow a b i).getD 0 0 = i := by simp [tableRow, getD_eq_getElem?_getD]
  rw [row, first, foldl_cell a b i le_rfl]
  refine map_congr_left fun j member => ?_
  rw [if_pos (Nat.le_of_lt_succ (mem_range.mp member))]

theorem lastRow_eq (a b : List α) : lastRow a b = tableRow a b a.length := by
  rw [lastRow]
  induction a.length with
  | zero =>
    refine (map_id _).symm.trans (map_congr_left fun j _ => ?_)
    rw [levenshtein, id]
  | succ i ih => rw [@List.range_succ i, foldl_append, ih, foldl_cons, foldl_nil, row_tableRow]

theorem lastRow_getD (a b : List α) :
    (lastRow a b).getD b.length 0 = levenshtein a b a.length b.length := by
  simp [lastRow_eq, tableRow, getD_eq_getElem?_getD]

/-- The one row ends with the distance, for lists of any length. The similarity of texts that are
not too long is symmetric, and only equal texts have the similarity one. -/
theorem normalizedEditDistance_exact (tokens : List Char → List String) {a b : List Char}
    (first : a ≠ []) (second : b ≠ []) (short : a.length ≤ 100) (alsoShort : b.length ≤ 100) :
    (∀ a b : List Char, (lastRow a b).getD b.length 0 = levenshtein a b a.length b.length) ∧
      normalizedEditDistance tokens a b = normalizedEditDistance tokens b a ∧
      (normalizedEditDistance tokens a b = 1 ↔ a = b) := by
  have longest : 0 < max a.length b.length := lt_max_of_lt_left (length_pos_iff.mpr first)
  have similar : normalizedEditDistance tokens a b =
      1 - (levenshtein a b a.length b.length : ℚ) / (max a.length b.length : Nat) := by
    rw [normalizedEditDistance, if_neg (by simp [first]), if_neg (by simp [first, second]),
      if_neg (by omega), if_pos longest, lastRow_getD]
  have swapped : normalizedEditDistance tokens b a =
      1 - (levenshtein b a b.length a.length : ℚ) / (max b.length a.length : Nat) := by
    rw [normalizedEditDistance, if_neg (by simp [second]), if_neg (by simp [first, second]),
      if_neg (by omega), if_pos (max_comm a.length b.length ▸ longest), lastRow_getD]
  refine ⟨lastRow_getD, ?_, ?_⟩
  · rw [similar, swapped, levenshtein_comm, max_comm]
  · have equal := levenshtein_eq_zero_iff (le_refl a.length) (le_refl b.length)
    rw [take_length, take_length] at equal
    have positive : ((max a.length b.length : Nat) : ℚ) ≠ 0 := Nat.cast_ne_zero.mpr longest.ne'
    rw [similar, sub_eq_self, div_eq_zero_iff, or_iff_left positive, Nat.cast_eq_zero, equal]

/-- Texts of different lengths. -/
theorem normalizedEditDistance_band_hands :
    normalizedEditDistance (fun _ => []) ['b', 'a', 'n', 'd'] ['h', 'a', 'n', 'd', 's'] = 1 ↔
      ['b', 'a', 'n', 'd'] = ['h', 'a', 'n', 'd', 's'] :=
  (normalizedEditDistance_exact (fun _ => []) (by decide) (by decide) (by decide)
    (by decide)).2.2

end AgenticOS.OmniRoute.SimilarityComputer
