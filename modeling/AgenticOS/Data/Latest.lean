import Mathlib.Data.List.MinMax

/-!
# The latest of a list

The latest element of a list is the first one of the highest rank. Two lists
with the same members agree on the highest rank, but the latest element may depend on the
order. It looks the same in every order if all elements of the highest rank look alike; if not,
any of them can be put first.
-/

namespace AgenticOS.Latest

open List

universe u v w

variable {α : Type u} {β : Type v} {γ : Type w} [LinearOrder β]

/-- The first element of the highest rank. -/
def latest (rank : α → β) (items : List α) : Option α :=
  items.argmax rank

/-- An item of the highest rank. -/
def Highest (rank : α → β) (items : List α) (item : α) : Prop :=
  item ∈ items ∧ ∀ other ∈ items, rank other ≤ rank item

/-- Two lists with the same members, in any order and any number. -/
def SameMembers (first second : List α) : Prop :=
  ∀ item, item ∈ first ↔ item ∈ second

variable {rank : α → β} {items first second : List α}

theorem latest_concat (items : List α) (item : α) :
    latest rank (items ++ [item]) =
      match latest rank items with
      | none => some item
      | some other => if rank other < rank item then some item else some other := by
  unfold latest
  rw [argmax_concat]
  cases items.argmax rank <;> rfl

theorem latest_eq_none : latest rank items = none ↔ items = [] :=
  argmax_eq_none

theorem highest_of_latest {item : α} (isLatest : latest rank items = some item) :
    Highest rank items item :=
  ⟨argmax_mem isLatest, fun _ member => le_of_mem_argmax member isLatest⟩

theorem Highest.rank_eq {item other : α} (highest : Highest rank items item)
    (otherHighest : Highest rank items other) : rank item = rank other :=
  le_antisymm (otherHighest.2 item highest.1) (highest.2 other otherHighest.1)

theorem Highest.congr {item : α} (same : SameMembers first second)
    (highest : Highest rank first item) : Highest rank second item :=
  ⟨(same item).mp highest.1, fun other member => highest.2 other ((same other).mpr member)⟩

theorem SameMembers.symm (same : SameMembers first second) : SameMembers second first :=
  fun item => (same item).symm

theorem map_latest_eq (view : α → γ) (same : SameMembers first second)
    (alike : ∀ item other, Highest rank first item → Highest rank first other →
      view item = view other) : (latest rank first).map view = (latest rank second).map view := by
  cases latestFirst : latest rank first with
  | none =>
    rw [latest_eq_none] at latestFirst
    have empty : second = [] := by
      rw [eq_nil_iff_forall_not_mem]
      intro item member
      rw [latestFirst] at same
      exact not_mem_nil ((same item).mpr member)
    rw [empty]
    rfl
  | some item =>
    have highest := highest_of_latest latestFirst
    cases latestSecond : latest rank second with
    | none =>
      rw [latest_eq_none] at latestSecond
      have member := (same item).mp highest.1
      rw [latestSecond] at member
      cases member
    | some other =>
      have highestOther := (highest_of_latest latestSecond).congr same.symm
      rw [Option.map_some, Option.map_some, alike item other highest highestOther]

/-- The highest rank itself depends on the members only. -/
theorem map_rank_latest_eq (same : SameMembers first second) :
    (latest rank first).map rank = (latest rank second).map rank :=
  map_latest_eq rank same fun _ _ highest otherHighest => highest.rank_eq otherHighest

end AgenticOS.Latest
