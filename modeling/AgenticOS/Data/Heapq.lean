import Mathlib.Data.List.Perm.Basic
import Mathlib.Order.WithBot

/-!
# Binary heaps in arrays

The heap operations of the standard library on a plain array: the children of the
position `i` are at `2 * i + 1` and `2 * i + 2`. Nothing keeps the array a heap except the
operations themselves: `IsHeap` is what they keep, and what a smallest entry at the root
rests on.
-/

namespace AgenticOS.Heapq

open List Array

universe u v

variable {α : Type u} (before : α → α → Bool)

/-- Move the entry at a position towards the root while it comes before its parent. The
first argument bounds the number of moves; a position is reached from below at most as often
as its value. -/
def siftdown : Nat → Array α → Nat → Array α
  | 0, heap, _ => heap
  | moves + 1, heap, position =>
    let parent := (position - 1) / 2
    if inside : parent < heap.size ∧ position < heap.size then
      if 0 < position ∧ before heap[position] heap[parent] then
        siftdown moves (heap.swap position parent) parent
      else heap
    else heap

def heappush (heap : Array α) (entry : α) : Array α :=
  siftdown before heap.size (heap.push entry) heap.size

/-- Move the entry at a position towards the leaves, each time below the smaller of its
children. The result says where it ends. The first argument bounds the number of moves. -/
def descend : Nat → Array α → Nat → Array α × Nat
  | 0, heap, position => (heap, position)
  | moves + 1, heap, position =>
    let left := 2 * position + 1
    let right := left + 1
    if inside : left < heap.size ∧ position < heap.size then
      if both : right < heap.size then
        if before heap[left] heap[right] then descend moves (heap.swap position left) left
        else descend moves (heap.swap position right) right
      else descend moves (heap.swap position left) left
    else (heap, position)

/-- `_siftup`: move the entry at the root to a leaf, and from there to its place. -/
def siftup (heap : Array α) : Array α :=
  let (moved, position) := descend before heap.size heap 0
  siftdown before heap.size moved position

/-- Remove the entry at the root: the last entry takes its place and is sifted. -/
def heappop (heap : Array α) : Option (α × Array α) :=
  match heap.back? with
  | none => none
  | some last =>
    let rest := heap.pop
    if nonempty : 0 < rest.size then
      some (rest[0], siftup before (rest.set 0 last))
    else some (last, rest)

theorem siftdown_perm (moves : Nat) (heap : Array α) (position : Nat) :
    (siftdown before moves heap position).Perm heap := by
  induction moves generalizing heap position with
  | zero => exact .refl heap
  | succ moves ih =>
    unfold siftdown
    dsimp only
    split
    · next inside =>
        split
        · exact (ih _ _).trans (Array.swap_perm inside.2 inside.1)
        · exact .refl heap
    · exact .refl heap

theorem toList_heappush_perm (heap : Array α) (entry : α) :
    (heappush before heap entry).toList.Perm (entry :: heap.toList) := by
  have sifted := (siftdown_perm before heap.size (heap.push entry) heap.size).toList
  rw [toList_push] at sifted
  exact sifted.trans (perm_append_singleton entry heap.toList)

theorem descend_perm (moves : Nat) (heap : Array α) (position : Nat) :
    (descend before moves heap position).1.Perm heap := by
  induction moves generalizing heap position with
  | zero => exact .refl heap
  | succ moves ih =>
    unfold descend
    dsimp only
    split
    · next inside =>
        split
        · next both =>
            split
            · exact (ih _ _).trans (Array.swap_perm inside.2 inside.1)
            · exact (ih _ _).trans (Array.swap_perm inside.2 both)
        · exact (ih _ _).trans (Array.swap_perm inside.2 inside.1)
    · exact .refl heap

theorem siftup_perm (heap : Array α) : (siftup before heap).Perm heap :=
  (siftdown_perm before _ _ _).trans (descend_perm before _ _ _)

theorem heappop_push_of_nonempty {rest : Array α} (nonempty : 0 < rest.size) (last : α) :
    heappop before (rest.push last) =
      some (rest[0], siftup before (rest.set 0 last)) := by
  unfold heappop
  simp [nonempty]

theorem heappop_singleton (entry : α) : heappop before #[entry] = some (entry, #[]) :=
  rfl

theorem array_cases (heap : Array α) : heap = #[] ∨ (∃ entry, heap = #[entry]) ∨
      ∃ (rest : Array α) (last : α), 0 < rest.size ∧ heap = rest.push last := by
  cases found : heap.back? with
  | none => exact .inl (back?_eq_none_iff.mp found)
  | some last =>
    obtain ⟨rest, rfl⟩ := back?_eq_some_iff.mp found
    rcases Nat.eq_zero_or_pos rest.size with empty | nonempty
    · obtain rfl := size_eq_zero_iff.mp empty
      exact .inr (.inl ⟨last, rfl⟩)
    · exact .inr (.inr ⟨rest, last, nonempty, rfl⟩)

theorem heappop_eq_none_iff {heap : Array α} : heappop before heap = none ↔ heap = #[] := by
  rcases array_cases heap with rfl | ⟨entry, rfl⟩ | ⟨rest, last, nonempty, rfl⟩
  · exact ⟨fun _ => rfl, fun _ => rfl⟩
  · simp [heappop_singleton]
  · simp [heappop_push_of_nonempty before nonempty]

theorem toList_perm_of_heappop {heap rest : Array α} {entry : α}
    (popped : heappop before heap = some (entry, rest)) :
    heap[0]? = some entry ∧ heap.toList.Perm (entry :: rest.toList) := by
  rcases array_cases heap with rfl | ⟨only, rfl⟩ | ⟨front, last, nonempty, rfl⟩
  · cases popped
  · cases popped
    exact ⟨rfl, .refl _⟩
  · rw [heappop_push_of_nonempty before nonempty] at popped
    cases popped
    constructor
    · rw [getElem?_push_lt nonempty]
    · have sifted := (siftup_perm before (front.set 0 last)).toList
      rw [toList_set] at sifted
      have cons : front.toList = front[0] :: front.toList.tail := by
        rw [← getElem_toList nonempty, getElem_zero]
        exact (cons_head_tail _).symm
      rw [toList_push]
      refine .trans ?_ (sifted.symm.cons front[0])
      rw [cons, set_cons_zero, cons_append]
      exact (perm_append_singleton last _).cons _

example : heappush (fun left right : Nat => decide (left < right)) #[2, 5, 3] 1 =
    #[1, 2, 3, 5] := by
  decide

variable {κ : Type v} (key : α → κ)

/-- The key at a position; missing entries count as infinite. -/
def level (heap : Array α) (position : Nat) : WithTop κ :=
  match heap[position]? with
  | some entry => (key entry : WithTop κ)
  | none => ⊤

variable {key} {heap : Array α}

variable {position : Nat}

theorem level_of_lt (inside : position < heap.size) :
    level key heap position = (key heap[position] : WithTop κ) := by
  unfold level
  rw [Array.getElem?_eq_getElem inside]

theorem level_of_size_le (outside : heap.size ≤ position) : level key heap position = ⊤ := by
  unfold level
  rw [Array.getElem?_eq_none outside]

theorem level_swap (key : α → κ) {first second : Nat} (atFirst : first < heap.size)
    (atSecond : second < heap.size) (position : Nat) :
    level key (heap.swap first second) position =
      if position = second then level key heap first
      else if position = first then level key heap second
      else level key heap position := by
  unfold level
  rw [getElem?_swap]
  by_cases isSecond : second = position
  · subst isSecond
    rw [if_pos rfl, if_pos rfl, Array.getElem?_eq_getElem atFirst]
  · rw [if_neg isSecond, if_neg (Ne.symm isSecond)]
    by_cases isFirst : first = position
    · subst isFirst
      rw [if_pos rfl, if_pos rfl, Array.getElem?_eq_getElem atSecond]
    · rw [if_neg isFirst, if_neg (Ne.symm isFirst)]

theorem level_push_of_ne (key : α → κ) (entry : α) (other : position ≠ heap.size) :
    level key (heap.push entry) position = level key heap position := by
  unfold level
  rw [getElem?_push, if_neg other]

variable (key) [LinearOrder κ]

/-- No entry comes before its parent. -/
def IsHeap (heap : Array α) : Prop :=
  ∀ child, 0 < child → level key heap ((child - 1) / 2) ≤ level key heap child

/-- The heap order up to the entry at a position, which may belong closer to the root. -/
structure Climbing (heap : Array α) (position : Nat) : Prop where
  others : ∀ child, 0 < child → child ≠ position →
    level key heap ((child - 1) / 2) ≤ level key heap child
  around : ∀ child, 0 < child → (child - 1) / 2 = position → 0 < position →
    level key heap ((position - 1) / 2) ≤ level key heap child

/-- The heap order up to the entry at a position, which may belong anywhere. -/
structure Falling (heap : Array α) (position : Nat) : Prop where
  others : ∀ child, 0 < child → child ≠ position → (child - 1) / 2 ≠ position →
    level key heap ((child - 1) / 2) ≤ level key heap child
  around : ∀ child, 0 < child → (child - 1) / 2 = position → 0 < position →
    level key heap ((position - 1) / 2) ≤ level key heap child

variable {key}

theorem isHeap_iff : IsHeap key heap ↔ ∀ child < heap.size, 0 < child →
    level key heap ((child - 1) / 2) ≤ level key heap child := by
  constructor
  · intro order child _ positive
    exact order child positive
  · intro order child positive
    rcases Nat.lt_or_ge child heap.size with inside | outside
    · exact order child inside positive
    · rw [level_of_size_le outside]
      exact le_top

instance [DecidableLE κ] (heap : Array α) : Decidable (IsHeap key heap) :=
  decidable_of_iff _ isHeap_iff.symm

theorem IsHeap.root_le (order : IsHeap key heap) (position : Nat) :
    level key heap 0 ≤ level key heap position := by
  induction position using Nat.strong_induction_on with
  | _ position ih =>
    rcases Nat.eq_zero_or_pos position with rfl | positive
    · exact le_refl _
    · exact (ih ((position - 1) / 2) (by omega)).trans (order position positive)

theorem Climbing.isHeap_of_le (climbing : Climbing key heap position)
    (placed : 0 < position → level key heap ((position - 1) / 2) ≤ level key heap position) :
    IsHeap key heap := by
  intro child positive
  by_cases here : child = position
  · subst here
    exact placed positive
  · exact climbing.others child positive here

theorem Climbing.move (climbing : Climbing key heap position) (inside : position < heap.size)
    (parentInside : (position - 1) / 2 < heap.size) (positive : 0 < position)
    (smaller : level key heap position < level key heap ((position - 1) / 2)) :
    Climbing key (heap.swap position ((position - 1) / 2)) ((position - 1) / 2) := by
  have moved := level_swap key inside parentInside
  have above : (position - 1) / 2 < position := by omega
  constructor
  · intro child childPositive other
    rw [moved, moved child, if_neg other]
    by_cases here : child = position
    · subst here
      rw [if_pos rfl, if_pos rfl]
      exact smaller.le
    · rw [if_neg here]
      by_cases below : (child - 1) / 2 = position
      · rw [if_neg (by omega), if_pos below]
        exact climbing.around child childPositive below positive
      · by_cases sibling : (child - 1) / 2 = (position - 1) / 2
        · rw [if_pos sibling]
          have order := climbing.others child childPositive here
          rw [sibling] at order
          exact smaller.le.trans order
        · rw [if_neg sibling, if_neg below]
          exact climbing.others child childPositive here
  · intro child childPositive below parentPositive
    have order := climbing.others ((position - 1) / 2) parentPositive (by omega)
    rw [moved, moved child, if_neg (by omega), if_neg (by omega), if_neg (by omega)]
    by_cases here : child = position
    · rw [if_pos here]
      exact order
    · rw [if_neg here]
      have next := climbing.others child childPositive here
      rw [below] at next
      exact order.trans next

theorem Falling.move {child : Nat} (falling : Falling key heap position)
    (inside : position < heap.size) (childInside : child < heap.size)
    (isChild : 0 < child ∧ (child - 1) / 2 = position)
    (smallest : ∀ other, 0 < other → (other - 1) / 2 = position →
      level key heap child ≤ level key heap other) :
    Falling key (heap.swap position child) child := by
  have moved := level_swap key inside childInside
  constructor
  · intro other positive apart notBelow
    rw [moved, moved other, if_neg notBelow, if_neg apart]
    by_cases here : other = position
    · subst here
      rw [if_neg (by omega), if_pos rfl]
      exact falling.around child isChild.1 isChild.2 positive
    · rw [if_neg here]
      by_cases sibling : (other - 1) / 2 = position
      · rw [if_pos sibling]
        exact smallest other positive sibling
      · rw [if_neg sibling]
        exact falling.others other positive here sibling
  · intro other positive below _
    have order := falling.others other positive (by omega) (by omega)
    rw [moved, moved other, if_neg (by omega), if_pos isChild.2, if_neg (by omega),
      if_neg (by omega)]
    rw [below] at order
    exact order

theorem Falling.climbing (falling : Falling key heap position)
    (leaf : heap.size ≤ 2 * position + 1) : Climbing key heap position where
  others := by
    intro child positive apart
    by_cases below : (child - 1) / 2 = position
    · rw [level_of_size_le (by omega : heap.size ≤ child)]
      exact le_top
    · exact falling.others child positive apart below
  around := falling.around

variable {before}

section

variable (agrees : ∀ left right, before left right = true ↔ key left < key right)
include agrees

theorem isHeap_siftdown {moves : Nat} (enough : position ≤ moves) (inside : position < heap.size)
    (climbing : Climbing key heap position) : IsHeap key (siftdown before moves heap position) := by
  induction moves generalizing heap position with
  | zero =>
    apply climbing.isHeap_of_le
    intro positive
    omega
  | succ moves ih =>
    unfold siftdown
    have parentInside : (position - 1) / 2 < heap.size := by omega
    rw [dif_pos ⟨parentInside, inside⟩]
    split
    next moves_ =>
      have smaller : level key heap position < level key heap ((position - 1) / 2) := by
        rw [level_of_lt inside, level_of_lt parentInside]
        exact WithTop.coe_lt_coe.mpr ((agrees _ _).mp moves_.2)
      apply ih
      · omega
      · simpa using parentInside
      · exact climbing.move inside parentInside moves_.1 smaller
    next stays =>
      apply climbing.isHeap_of_le
      intro positive
      rw [level_of_lt inside, level_of_lt parentInside]
      apply WithTop.coe_le_coe.mpr
      apply not_lt.mp
      intro smaller
      exact stays ⟨positive, (agrees _ _).mpr smaller⟩

theorem climbing_descend {moves : Nat} (enough : heap.size ≤ position + moves)
    (inside : position < heap.size) (falling : Falling key heap position) :
    (descend before moves heap position).2 < heap.size ∧
      Climbing key (descend before moves heap position).1
        (descend before moves heap position).2 := by
  induction moves generalizing heap position with
  | zero => omega
  | succ moves ih =>
    unfold descend
    dsimp only
    split
    next within =>
      -- The children of the position, in the array or not.
      have children : ∀ other, 0 < other → (other - 1) / 2 = position →
          other = 2 * position + 1 ∨ other = 2 * position + 1 + 1 := by
        intro other positive below
        omega
      have next : ∀ child (childInside : child < heap.size), position < child →
          Falling key (heap.swap position child) child →
          (descend before moves (heap.swap position child) child).2 < heap.size ∧
            Climbing key (descend before moves (heap.swap position child) child).1
              (descend before moves (heap.swap position child) child).2 := by
        intro child childInside later moved
        have same : (heap.swap position child).size = heap.size := size_swap
        rw [← same]
        apply ih
        · omega
        · omega
        · exact moved
      split
      next both =>
        split
        next first =>
          apply next _ within.1 (by omega)
          apply falling.move inside within.1 (by omega)
          intro other positive below
          rcases children other positive below with rfl | rfl
          · exact le_refl _
          · rw [level_of_lt within.1, level_of_lt both]
            exact WithTop.coe_le_coe.mpr ((agrees _ _).mp first).le
        next second =>
          apply next _ both (by omega)
          apply falling.move inside both (by omega)
          intro other positive below
          rcases children other positive below with rfl | rfl
          · rw [level_of_lt within.1, level_of_lt both]
            apply WithTop.coe_le_coe.mpr
            exact not_lt.mp fun smaller => second ((agrees _ _).mpr smaller)
          · exact le_refl _
      next single =>
        apply next _ within.1 (by omega)
        apply falling.move inside within.1 (by omega)
        intro other positive below
        rcases children other positive below with rfl | rfl
        · exact le_refl _
        · rw [level_of_size_le (not_lt.mp single)]
          exact le_top
    next leaf =>
      exact ⟨inside, falling.climbing (by omega)⟩

end

theorem IsHeap.push (order : IsHeap key heap) (entry : α) :
    Climbing key (heap.push entry) heap.size := by
  constructor
  · intro child positive other
    rw [level_push_of_ne key entry other]
    rcases Nat.lt_or_ge child heap.size with inside | outside
    · rw [level_push_of_ne key entry (by omega)]
      exact order child positive
    · rw [level_of_size_le outside]
      exact le_top
  · intro child positive below _
    have outside : heap.size < child := by omega
    rw [level_push_of_ne key entry (Nat.ne_of_gt outside), level_of_size_le outside.le]
    exact le_top

theorem IsHeap.of_push {last : α} (order : IsHeap key (heap.push last)) : IsHeap key heap := by
  apply isHeap_iff.mpr
  intro child inside positive
  have before := order child positive
  rw [level_push_of_ne key last (by omega), level_push_of_ne key last (by omega)] at before
  exact before

theorem IsHeap.set_root (order : IsHeap key heap) (nonempty : 0 < heap.size) (entry : α) :
    Falling key (heap.set 0 entry) 0 := by
  have kept : ∀ position, position ≠ 0 →
      level key (heap.set 0 entry) position = level key heap position := by
    intro position other
    unfold level
    rw [Array.getElem?_set nonempty, if_neg (Ne.symm other)]
  constructor
  · intro child positive _ other
    rw [kept child (by omega), kept _ other]
    exact order child positive
  · intro child _ _ impossible
    omega

variable (agrees : ∀ left right, before left right = true ↔ key left < key right)
  (order : IsHeap key heap)
include agrees order

theorem isHeap_heappush (entry : α) : IsHeap key (heappush before heap entry) := by
  apply isHeap_siftdown agrees (Nat.le_refl heap.size)
  · simp
  · exact order.push entry

theorem isHeap_heappop {entry : α} {rest : Array α}
    (popped : heappop before heap = some (entry, rest)) :
    IsHeap key rest ∧ ∀ other ∈ heap, key entry ≤ key other := by
  constructor
  · rcases array_cases heap with rfl | ⟨only, rfl⟩ | ⟨front, last, nonempty, rfl⟩
    · cases popped
    · cases popped
      apply isHeap_iff.mpr
      intro child impossible
      exact absurd impossible (Nat.not_lt_zero child)
    · rw [heappop_push_of_nonempty before nonempty] at popped
      cases popped
      have size : (front.set 0 last).size = front.size := size_set _
      have climbs := climbing_descend agrees
        (Nat.le_of_eq (Nat.zero_add _).symm) (by omega) (order.of_push.set_root nonempty last)
      have same := (descend_perm before (front.set 0 last).size (front.set 0 last) 0).size_eq
      apply isHeap_siftdown agrees climbs.1.le
      · rw [same]
        exact climbs.1
      · exact climbs.2
  · intro other member
    have root := (toList_perm_of_heappop before popped).1
    obtain ⟨position, inside, rfl⟩ := Array.mem_iff_getElem.mp member
    have smallest := order.root_le position
    unfold level at smallest
    rw [root, Array.getElem?_eq_getElem inside] at smallest
    exact WithTop.coe_le_coe.mp smallest

end AgenticOS.Heapq
