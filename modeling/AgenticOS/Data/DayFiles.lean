import AgenticOS.Data.Dict
import AgenticOS.Data.StableSort

/-!
# A log with a file a day

What is written is appended to the file of the day. A reader takes the newest file first, and
each file from its first item on; so it reads what was written as it is sorted by day, and the
newest items of a day come last.
-/

namespace AgenticOS

open List

universe u

abbrev DayFiles (α : Type u) :=
  Dict Nat (List α)

namespace DayFiles

variable {α : Type u}

variable (files : DayFiles α)

def file (day : Nat) : List α :=
  (files.get? day).getD []

def append (written : Nat × α) : DayFiles α :=
  files.set written.1 (files.file written.1 ++ [written.2])

/-- Append items one after the other. -/
def appendAll (written : List (Nat × α)) : DayFiles α :=
  written.foldl append files

/-- A day is read before every earlier one. -/
def NotOlder (first second : Nat × α) : Prop :=
  second.1 ≤ first.1
deriving Decidable

instance : IsTrans (Nat × α) NotOlder :=
  ⟨fun _ _ _ first second => Nat.le_trans second first⟩

instance : Std.Total (NotOlder (α := α)) :=
  ⟨fun first second => Nat.le_total second.1 first.1⟩

/-- The days, the newest first. -/
def days : List Nat :=
  files.keys.insertionSort (· ≥ ·)

/-- The items with their days, in the order in which they are read. -/
def dated : List (Nat × α) :=
  files.days.flatMap fun day => (files.file day).map (day, ·)

/-- Take items until there are as many as the limit. -/
def collect (limit : Nat) : List α → List α → List α
  | results, [] => results
  | results, item :: items =>
    if limit ≤ (results ++ [item]).length then results ++ [item]
    else collect limit (results ++ [item]) items

def read (limit : Nat) : List α :=
  collect limit [] (files.dated.map Prod.snd)

theorem collect_eq {limit : Nat} {results : List α} (few : results.length < limit)
    (items : List α) : collect limit results items = (results ++ items).take limit := by
  induction items generalizing results with
  | nil => rw [collect, append_nil, take_of_length_le few.le]
  | cons item items ih =>
    have joined : results ++ item :: items = (results ++ [item]) ++ items := by simp
    rw [collect, joined]
    split
    · next many =>
        rw [length_append, length_singleton] at many
        have full : limit = (results ++ [item]).length := by
          rw [length_append, length_singleton]
          omega
        rw [full, take_left]
    · next few => exact ih (Nat.lt_of_not_le few)

variable (files : DayFiles α)

theorem read_eq {limit : Nat} (positive : 0 < limit) :
    files.read limit = (files.dated.take limit).map Prod.snd := by
  rw [read, collect_eq positive, nil_append, map_take]

theorem file_append (written : Nat × α) (day : Nat) : (files.append written).file day =
      files.file day ++ if written.1 = day then [written.2] else [] := by
  rw [file, append, Dict.get?_set]
  split
  · next same =>
      subst same
      rw [if_pos rfl, Option.getD_some]
  · next other =>
      rw [if_neg (Ne.symm other), append_nil]
      rfl

theorem file_appendAll (written : List (Nat × α)) (day : Nat) :
    ((files.appendAll written).file day).map (day, ·) =
      (files.file day).map (day, ·) ++ written.filter fun item => item.1 = day := by
  induction written generalizing files with
  | nil => rw [filter_nil, append_nil]; rfl
  | cons first written ih =>
    rw [appendAll, foldl_cons, ← appendAll, ih, file_append]
    by_cases same : first.1 = day
    · subst same
      simp
    · simp [same]

theorem file_eq_nil {files : DayFiles α} {day : Nat} (absent : day ∉ files.days) :
    files.file day = [] := by
  rw [days, mem_insertionSort, Dict.mem_keys_iff] at absent
  rw [file]
  cases found : files.get? day with
  | none => rfl
  | some items => exact absurd ⟨items, found⟩ absent

theorem pairwise_days : files.days.Pairwise (· ≥ ·) :=
  pairwise_insertionSort _ _

theorem nodup_days : files.days.Nodup :=
  (perm_insertionSort _ _).nodup_iff.mpr files.nodupKeys

theorem pairwise_dated : files.dated.Pairwise NotOlder := by
  rw [dated, pairwise_flatMap]
  constructor
  · intro day _
    rw [pairwise_map]
    exact pairwise_of_forall fun _ _ => Nat.le_refl day
  · refine files.pairwise_days.imp fun older first inFirst second inSecond => ?_
    obtain ⟨_, -, rfl⟩ := mem_map.mp inFirst
    obtain ⟨_, -, rfl⟩ := mem_map.mp inSecond
    exact older

theorem filter_flatMap_day (day : Nat) {days : List Nat} (nodup : days.Nodup) :
    (days.flatMap fun other => (files.file other).map (other, ·)).filter
        (fun item => item.1 = day) =
      if day ∈ days then (files.file day).map (day, ·) else [] := by
  induction days with
  | nil => rfl
  | cons first days ih =>
    rw [nodup_cons] at nodup
    rw [flatMap_cons, filter_append, ih nodup.2]
    by_cases same : first = day
    · subst same
      simp [nodup.1]
    · have others :
          ((files.file first).map (first, ·)).filter (fun item => item.1 = day) = [] := by
        simp [same]
      rw [others, nil_append]
      simp [Ne.symm same]

theorem filter_dated (day : Nat) :
    files.dated.filter (fun item => item.1 = day) = (files.file day).map (day, ·) := by
  rw [dated, filter_flatMap_day files day files.nodup_days]
  split
  · rfl
  · next absent => rw [file_eq_nil absent, map_nil]

theorem dated_appendAll (written : List (Nat × α)) :
    (files.appendAll written).dated = (files.dated ++ written).insertionSort NotOlder := by
  apply StableSort.eq_of_classes (pairwise_dated _) (pairwise_insertionSort _ _)
  intro item
  have sameDay : (fun other : Nat × α => decide (NotOlder item other ∧ NotOlder other item)) =
      fun other => decide (other.1 = item.1) := by
    funext other
    exact decide_eq_decide.mpr ⟨fun both => Nat.le_antisymm both.1 both.2,
      fun same => ⟨same.le, same.ge⟩⟩
  have sorted : ((files.dated ++ written).filter fun other => other.1 = item.1).Pairwise
      NotOlder := by
    apply pairwise_of_forall_mem_list
    intro first inFirst second inSecond
    have firstDay := (mem_filter.mp inFirst).2
    have secondDay := (mem_filter.mp inSecond).2
    rw [decide_eq_true_iff] at firstDay secondDay
    exact (secondDay.trans firstDay.symm).le
  rw [sameDay, filter_dated, file_appendAll, StableSort.filter_insertionSort,
    sorted.insertionSort_eq, filter_append, filter_dated]

end DayFiles

end AgenticOS
