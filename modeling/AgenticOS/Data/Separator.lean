import Mathlib.Data.List.Basic

/-!
# Two lists joined by a separator

To put a separator between two lists keeps them apart as long as it is in neither of them. This
is also necessary: a list that holds the separator may be cut there instead.
-/

namespace AgenticOS.Separator

open List

universe u

variable {α : Type u}

/-- Two lists with a separator between them. -/
def joined (separator : α) (first second : List α) : List α :=
  first ++ separator :: second

variable {separator : α} {first second : List α}

theorem eq_of_joined_eq (freeFirst : separator ∉ first) (freeSecond : separator ∉ second)
    {otherFirst otherSecond : List α}
    (same : joined separator otherFirst otherSecond = joined separator first second) :
    otherFirst = first ∧ otherSecond = second := by
  induction first generalizing otherFirst with
  | nil =>
    cases otherFirst with
    | nil => exact ⟨rfl, (cons.inj same).2⟩
    | cons head otherFirst =>
      have tails := (cons.inj same).2
      have inside : separator ∈ otherFirst ++ separator :: otherSecond :=
        mem_append_right _ mem_cons_self
      exact absurd (tails ▸ inside) freeSecond
  | cons head first ih =>
    rw [mem_cons, not_or] at freeFirst
    cases otherFirst with
    | nil => exact absurd (cons.inj same).1 freeFirst.1
    | cons otherHead otherFirst =>
      have parts := cons.inj same
      have rest := ih freeFirst.2 parts.2
      exact ⟨by rw [parts.1, rest.1], rest.2⟩

/-- There is one way to cut a joined list exactly if both parts are free of the separator. -/
theorem joined_unique_iff : (∀ otherFirst otherSecond,
        joined separator otherFirst otherSecond = joined separator first second →
        otherFirst = first ∧ otherSecond = second) ↔
      separator ∉ first ∧ separator ∉ second := by
  constructor
  · intro unique
    constructor
    · intro member
      obtain ⟨start, rest, rfl⟩ := append_of_mem member
      have shorter := (unique start (rest ++ separator :: second) (by simp [joined])).1
      have lengths := congrArg length shorter
      rw [length_append, length_cons] at lengths
      omega
    · intro member
      obtain ⟨start, rest, rfl⟩ := append_of_mem member
      have shorter := (unique (first ++ separator :: start) rest (by simp [joined])).2
      have lengths := congrArg length shorter
      rw [length_append, length_cons] at lengths
      omega
  · rintro ⟨freeFirst, freeSecond⟩ otherFirst otherSecond
    exact eq_of_joined_eq freeFirst freeSecond

end AgenticOS.Separator
