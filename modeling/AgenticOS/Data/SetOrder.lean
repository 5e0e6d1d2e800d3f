import Mathlib.Data.Finset.Sort

/-!
# The order of an iteration over a set

A set of the program is iterated in an order of which nothing is promised but that every member
comes once. Such an order is an input of whatever iterates a set.
-/

namespace AgenticOS

open List

universe u

structure SetOrder (α : Type u) where
  list : Finset α → List α
  nodup : ∀ items, (list items).Nodup
  mem : ∀ items item, item ∈ list items ↔ item ∈ items

namespace SetOrder

variable {α : Type u}

theorem toFinset_list [DecidableEq α] (order : SetOrder α) (items : Finset α) :
    (order.list items).toFinset = items := by
  ext item
  rw [mem_toFinset, order.mem]

theorem length_list [DecidableEq α] (order : SetOrder α) (items : Finset α) :
    (order.list items).length = items.card := by
  rw [← toFinset_card_of_nodup (order.nodup items), order.toFinset_list]

variable [LinearOrder α]

/-- The members by size: `sorted(items)`. -/
def sorted (items : Finset α) : List α :=
  items.sort

theorem mem_sorted {items : Finset α} {item : α} : item ∈ sorted items ↔ item ∈ items :=
  Finset.mem_sort _

def first (item : α) : SetOrder α where
  list items := if item ∈ items then item :: (items.erase item).sort else items.sort
  nodup items := by
    split
    · refine nodup_cons.mpr ⟨fun member => ?_, Finset.sort_nodup _ _⟩
      exact Finset.notMem_erase item items ((Finset.mem_sort _).mp member)
    · exact Finset.sort_nodup _ _
  mem items other := by
    split
    · rename_i member
      rw [mem_cons, Finset.mem_sort, Finset.mem_erase]
      constructor
      · rintro (rfl | ⟨-, isIn⟩)
        · exact member
        · exact isIn
      · intro isIn
        by_cases same : other = item
        · exact .inl same
        · exact .inr ⟨same, isIn⟩
    · exact Finset.mem_sort _

theorem not_mem_drop_first (item : α) (items : Finset α) :
    item ∉ ((first item).list items).drop 1 := by
  unfold first
  dsimp only
  split
  · rw [drop_one, tail_cons, Finset.mem_sort]
    exact Finset.notMem_erase item _
  · rename_i absent
    intro member
    exact absent ((Finset.mem_sort _).mp (mem_of_mem_drop member))

end SetOrder

end AgenticOS
