import Mathlib.Data.List.Sort
import Mathlib.Data.Prod.Lex

/-!
# Positions in a stable sort

Insertion sort by a total preorder is stable, so it is known from the unsorted list where an
item ends up: behind the items in front of it that may precede it, and behind those after it
that must. With that, membership in the first places of the sorted list is a statement about
the unsorted one, and so is the item at the head.
-/

namespace AgenticOS.StableSort

open List OrderDual

universe u

variable {α : Type u} {relation : α → α → Prop} [DecidableRel relation]

/-- How many items come before one that stands between two lists. -/
def ahead (relation : α → α → Prop) [DecidableRel relation] (before : List α) (item : α)
    (after : List α) : Nat :=
  before.countP (fun other => relation other item) + after.countP fun other => ¬ relation item other

theorem orderedInsert_between {item : α} {first rest : List α}
    (smaller : ∀ other ∈ first, ¬ relation item other)
    (larger : ∀ other ∈ rest, relation item other) :
    (first ++ rest).orderedInsert relation item = first ++ item :: rest := by
  induction first with
  | nil =>
    cases rest with
    | nil => rfl
    | cons other rest => exact orderedInsert_cons_of_le _ rest (larger other mem_cons_self)
  | cons other first ih =>
    rw [forall_mem_cons] at smaller
    rw [cons_append, orderedInsert_of_not_le _ _ smaller.1, ih smaller.2, cons_append]

theorem orderedInsert_in_front {item other : α} (first rest : List α)
    (precedes : relation item other) : (first ++ other :: rest).orderedInsert relation item =
      first.orderedInsert relation item ++ other :: rest := by
  induction first with
  | nil => exact orderedInsert_cons_of_le _ rest precedes
  | cons head first ih =>
    rw [cons_append, orderedInsert_cons, orderedInsert_cons, ih]
    split
    · rfl
    · rfl

theorem orderedInsert_behind {item other : α} {first : List α} (rest : List α)
    (smaller : ∀ between ∈ first, ¬ relation item between) (behind : ¬ relation item other) :
    (first ++ other :: rest).orderedInsert relation item =
      first ++ other :: rest.orderedInsert relation item := by
  induction first with
  | nil => exact orderedInsert_of_not_le _ rest behind
  | cons head first ih =>
    rw [forall_mem_cons] at smaller
    rw [cons_append, orderedInsert_of_not_le _ _ smaller.1, ih smaller.2, cons_append]

section

variable [IsTrans α relation]

variable {items : List α}

theorem exists_place (item : α) (sorted : items.Pairwise relation) :
    ∃ first rest, items = first ++ rest ∧ (∀ other ∈ first, ¬ relation item other) ∧
      ∀ other ∈ rest, relation item other := by
  induction items with
  | nil => exact ⟨[], [], rfl, by simp, by simp⟩
  | cons head items ih =>
    rw [pairwise_cons] at sorted
    by_cases precedes : relation item head
    · refine ⟨[], head :: items, rfl, by simp, ?_⟩
      rw [forall_mem_cons]
      exact ⟨precedes, fun other member => IsTrans.trans _ _ _ precedes (sorted.1 other member)⟩
    · obtain ⟨first, rest, rfl, smaller, larger⟩ := ih sorted.2
      refine ⟨head :: first, rest, rfl, ?_, larger⟩
      rw [forall_mem_cons]
      exact ⟨precedes, smaller⟩

theorem filter_orderedInsert (keep : α → Bool) (item : α) (sorted : items.Pairwise relation) :
    (items.orderedInsert relation item).filter keep =
      if keep item then (items.filter keep).orderedInsert relation item
      else items.filter keep := by
  obtain ⟨first, rest, rfl, smaller, larger⟩ := exists_place item sorted
  rw [orderedInsert_between smaller larger, filter_append, filter_append, filter_cons]
  split
  · refine (orderedInsert_between (fun other member => ?_) fun other member => ?_).symm
    · exact smaller other (mem_of_mem_filter member)
    · exact larger other (mem_of_mem_filter member)
  · rfl

variable [Std.Total relation]

theorem filter_insertionSort (keep : α → Bool) (items : List α) :
    (items.insertionSort relation).filter keep = (items.filter keep).insertionSort relation := by
  induction items with
  | nil => rfl
  | cons item items ih =>
    rw [insertionSort_cons,
      filter_orderedInsert keep item (pairwise_insertionSort relation items),
      ih, filter_cons]
    split
    · rfl
    · rfl

theorem insertionSort_insertionSort (items : List α) :
    (items.insertionSort relation).insertionSort relation = items.insertionSort relation :=
  (pairwise_insertionSort relation items).insertionSort_eq

variable {item : α}

omit [IsTrans α relation] [Std.Total relation] in
theorem countP_of_place {first rest : List α}
    (sorted : items.insertionSort relation = first ++ rest)
    (smaller : ∀ other ∈ first, ¬ relation item other)
    (larger : ∀ other ∈ rest, relation item other) :
    items.countP (fun other => ¬ relation item other) = first.length := by
  have counted := (perm_insertionSort relation items).countP_eq fun other => ¬ relation item other
  rw [sorted, countP_append, countP_eq_length.mpr (by simpa using smaller),
    countP_eq_zero.mpr (by simpa using larger)] at counted
  exact counted.symm

variable (relation) in
theorem insertionSort_split (before : List α) (item : α) (after : List α) :
    ∃ first rest, (before ++ item :: after).insertionSort relation = first ++ item :: rest ∧
      first.length = ahead relation before item after ∧
      ∀ other ∈ first, other ∈ before ∨ ¬ relation item other := by
  induction before with
  | nil =>
    obtain ⟨first, rest, sorted, smaller, larger⟩ :=
      exists_place item (pairwise_insertionSort relation after)
    refine ⟨first, rest, ?_, ?_, fun other member => .inr (smaller other member)⟩
    · rw [nil_append, insertionSort_cons, sorted, orderedInsert_between smaller larger]
    · rw [ahead, countP_nil, Nat.zero_add, countP_of_place sorted smaller larger]
  | cons head before ih =>
    obtain ⟨first, rest, sorted, length, kinds⟩ := ih
    have pairwise := pairwise_insertionSort relation (before ++ item :: after)
    rw [sorted, pairwise_append] at pairwise
    rw [cons_append, insertionSort_cons, sorted]
    by_cases precedes : relation head item
    · refine ⟨first.orderedInsert relation head, rest,
        orderedInsert_in_front first rest precedes, ?_, ?_⟩
      · rw [orderedInsert_length, length, ahead, ahead, countP_cons]
        simp only [precedes, decide_true, if_true]
        omega
      · intro other member
        rcases (mem_orderedInsert relation).mp member with rfl | inFirst
        · exact .inl mem_cons_self
        · exact (kinds other inFirst).imp_left (mem_cons_of_mem _)
    · have smaller : ∀ other ∈ first, ¬ relation head other := by
        intro other member between
        exact precedes (IsTrans.trans _ _ _ between (pairwise.2.2 other member item mem_cons_self))
      refine ⟨first, rest.orderedInsert relation head,
        orderedInsert_behind rest smaller precedes, ?_, ?_⟩
      · rw [length, ahead, ahead, countP_cons]
        simp only [precedes, decide_false, Bool.false_eq_true, if_false, Nat.add_zero]
      · exact fun other member => (kinds other member).imp_left (mem_cons_of_mem _)

theorem split_of_insertionSort {first rest : List α}
    (sorted : items.insertionSort relation = first ++ item :: rest) :
    ∃ before after, items = before ++ item :: after ∧
      first.length = ahead relation before item after := by
  induction items generalizing first rest with
  | nil => simp at sorted
  | cons head items ih =>
    obtain ⟨smallerItems, largerItems, split, smaller, larger⟩ :=
      exists_place head (pairwise_insertionSort relation items)
    have atHead : ahead relation [] head items = smallerItems.length := by
      rw [ahead, countP_nil, Nat.zero_add, countP_of_place split smaller larger]
    rw [insertionSort_cons, split, orderedInsert_between smaller larger] at sorted
    rcases append_eq_append_iff.mp sorted with
      ⟨between, rfl, place⟩ | ⟨between, rfl, place⟩
    · cases between with
      | nil =>
        obtain ⟨rfl, rfl⟩ := List.cons.inj place
        exact ⟨[], items, rfl, by rw [append_nil, atHead]⟩
      | cons other between =>
        obtain ⟨rfl, rfl⟩ := List.cons.inj place
        have place : items.insertionSort relation =
            (smallerItems ++ between) ++ item :: rest := by
          simpa using split
        obtain ⟨before, after, rfl, length⟩ := ih place
        have precedes : relation head item := larger item (by simp)
        refine ⟨head :: before, after, rfl, ?_⟩
        rw [ahead, countP_cons_of_pos (by simpa using precedes), Nat.add_right_comm,
          ← ahead, ← length]
        simp [Nat.add_assoc]
    · cases between with
      | nil =>
        obtain ⟨rfl, rfl⟩ := List.cons.inj place
        rw [append_nil] at atHead
        exact ⟨[], items, rfl, atHead.symm⟩
      | cons other between =>
        obtain ⟨rfl, rfl⟩ := List.cons.inj place
        have place : items.insertionSort relation =
            first ++ item :: (between ++ largerItems) := by
          simpa using split
        obtain ⟨before, after, rfl, length⟩ := ih place
        have behind : ¬ relation head item := smaller item (by simp)
        refine ⟨head :: before, after, rfl, ?_⟩
        rw [ahead, countP_cons_of_neg (by simpa using behind), ← ahead, ← length]

theorem mem_take_insertionSort_iff {count : Nat} :
    item ∈ (items.insertionSort relation).take count ↔
      ∃ before after, items = before ++ item :: after ∧
        ahead relation before item after < count := by
  constructor
  · intro taken
    have member := (mem_insertionSort relation).mp (mem_of_mem_take taken)
    obtain ⟨before, after, rfl, absent⟩ := eq_append_cons_of_mem member
    obtain ⟨first, rest, sorted, length, kinds⟩ :=
      insertionSort_split relation before item after
    refine ⟨before, after, rfl, ?_⟩
    by_contra many
    rw [not_lt, ← length] at many
    rw [sorted, take_append_of_le_length many] at taken
    rcases kinds item (mem_of_mem_take taken) with inBefore | irreflexive
    · exact absent inBefore
    · exact irreflexive (refl_of relation item)
  · rintro ⟨before, after, rfl, few⟩
    obtain ⟨first, rest, sorted, length, -⟩ :=
      insertionSort_split relation before item after
    obtain ⟨more, rfl⟩ := Nat.exists_eq_add_of_lt (length.trans_lt few)
    rw [sorted, take_append, Nat.add_assoc, Nat.add_sub_cancel_left]
    exact mem_append_right _ mem_cons_self

/-- Beyond the first places of a sorted list there is nothing of a kind exactly if few items are
ahead of each item of the kind. -/
theorem filter_drop_insertionSort_iff {keep : α → Bool} {count : Nat} :
    ((items.insertionSort relation).drop count).filter keep = [] ↔
      ∀ before item after, items = before ++ item :: after → keep item = true →
        ahead relation before item after < count := by
  rw [filter_eq_nil_iff]
  constructor
  · intro none before item after split kept
    obtain ⟨first, rest, sorted, length, -⟩ := insertionSort_split relation before item after
    by_contra far
    rw [not_lt, ← length] at far
    refine none item ?_ kept
    rw [split, sorted, drop_append_of_le_length far]
    exact mem_append_right _ mem_cons_self
  · intro near item member kept
    obtain ⟨between, rest, dropped⟩ := append_of_mem member
    have whole := take_append_drop count (items.insertionSort relation)
    rw [dropped, ← append_assoc] at whole
    obtain ⟨before, after, split, length⟩ := split_of_insertionSort whole.symm
    have few := near before item after split kept
    have enough : count < (items.insertionSort relation).length := by
      have some := length_pos_of_mem member
      rw [length_drop] at some
      omega
    rw [← length, length_append, length_take_of_le enough.le] at few
    omega

theorem head?_insertionSort_iff : (items.insertionSort relation).head? = some item ↔
      ∃ before after, items = before ++ item :: after ∧
        (∀ other ∈ before, ¬ relation other item) ∧ ∀ other ∈ after, relation item other := by
  have first : (items.insertionSort relation).head? = some item ↔
      item ∈ (items.insertionSort relation).take 1 := by
    cases items.insertionSort relation with
    | nil => simp
    | cons head rest => simp [eq_comm]
  rw [first, mem_take_insertionSort_iff]
  refine exists_congr fun before => exists_congr fun after => and_congr_right fun _ => ?_
  rw [ahead, Nat.lt_one_iff, Nat.add_eq_zero_iff, countP_eq_zero, countP_eq_zero]
  simp

theorem getLast?_insertionSort_iff : (items.insertionSort relation).getLast? = some item ↔
      ∃ before after, items = before ++ item :: after ∧
        (∀ other ∈ before, relation other item) ∧ ∀ other ∈ after, ¬ relation item other := by
  -- The last item is the one that all others are ahead of.
  have all : ∀ before after : List α,
      ahead relation before item after = before.length + after.length ↔
        (∀ other ∈ before, relation other item) ∧ ∀ other ∈ after, ¬ relation item other := by
    intro before after
    have few : before.countP (fun other => relation other item) ≤ before.length := countP_le_length
    have fewAfter : after.countP (fun other => ¬ relation item other) ≤ after.length :=
      countP_le_length
    have split : ahead relation before item after = before.length + after.length ↔
        before.countP (fun other => relation other item) = before.length ∧
          after.countP (fun other => ¬ relation item other) = after.length := by
      unfold ahead
      omega
    rw [split, countP_eq_length, countP_eq_length]
    simp
  constructor
  · intro last
    obtain ⟨first, sorted⟩ := getLast?_eq_some_iff.mp last
    obtain ⟨before, after, rfl, length⟩ := split_of_insertionSort sorted
    have count := congrArg List.length sorted
    rw [length_insertionSort] at count
    simp only [length_append, length_cons, length_nil] at count
    exact ⟨before, after, rfl, (all before after).mp (by omega)⟩
  · rintro ⟨before, after, rfl, last⟩
    obtain ⟨first, rest, sorted, length, -⟩ := insertionSort_split relation before item after
    have count := congrArg List.length sorted
    rw [length_insertionSort, length_append, length_append, length_cons, length_cons, length,
      (all before after).mpr last] at count
    have none : rest = [] := length_eq_zero_iff.mp (by omega)
    rw [sorted, none, getLast?_concat]

omit [IsTrans α relation] in
theorem eq_of_classes {others : List α} (sorted : items.Pairwise relation)
    (otherSorted : others.Pairwise relation)
    (classes : ∀ item, items.filter (fun other => relation item other ∧ relation other item) =
      others.filter fun other => relation item other ∧ relation other item) : items = others := by
  induction items generalizing others with
  | nil =>
    cases others with
    | nil => rfl
    | cons other others =>
      have same := classes other
      rw [filter_cons_of_pos (by simp [refl_of relation other])] at same
      cases same
  | cons item items ih =>
    cases others with
    | nil =>
      have same := classes item
      rw [filter_cons_of_pos (by simp [refl_of relation item])] at same
      cases same
    | cons other others =>
      have inBoth : ∀ third, third ∈ item :: items ↔ third ∈ other :: others := by
        intro third
        have same := congrArg (third ∈ ·) (classes third)
        simpa [refl_of relation third] using same
      rw [pairwise_cons] at sorted otherSorted
      -- Each head is in the class of the other one, so that they are the same.
      have equivalent : relation item other ∧ relation other item := by
        constructor
        · rcases mem_cons.mp ((inBoth other).mpr mem_cons_self) with rfl | later
          · exact refl_of relation other
          · exact sorted.1 other later
        · rcases mem_cons.mp ((inBoth item).mp mem_cons_self) with rfl | later
          · exact refl_of relation item
          · exact otherSorted.1 item later
      have same := classes item
      rw [filter_cons_of_pos (by simp [refl_of relation item]),
        filter_cons_of_pos (by simpa using equivalent)] at same
      obtain ⟨rfl, -⟩ := List.cons.inj same
      congr 1
      refine ih sorted.2 otherSorted.2 fun third => ?_
      have both := classes third
      rw [filter_cons, filter_cons] at both
      split at both
      · exact (List.cons.inj both).2
      · exact both

theorem place_cases {before after first rest : List α} {other : α}
    (same : before ++ item :: after = first ++ other :: rest) :
    item = other ∨ (other ∈ before ∧ item ∈ rest) ∨ (other ∈ after ∧ item ∈ first) := by
  rcases append_eq_append_iff.mp same with ⟨between, rfl, split⟩ | ⟨between, rfl, split⟩
  · cases between with
    | nil => exact .inl (List.cons.inj split).1
    | cons head between =>
      obtain ⟨rfl, rfl⟩ := List.cons.inj split
      exact .inr (.inr ⟨by simp, by simp⟩)
  · cases between with
    | nil => exact .inl (List.cons.inj split).1.symm
    | cons head between =>
      obtain ⟨rfl, rfl⟩ := List.cons.inj split
      exact .inr (.inl ⟨by simp, by simp⟩)

variable (relation) in
/-- The head of a sorted list is good exactly if a good item comes before all bad ones. -/
theorem head?_insertionSort_good_iff (good : α → Prop) (items : List α) :
    (∃ item, (items.insertionSort relation).head? = some item ∧ good item) ↔
      ∃ before item after, items = before ++ item :: after ∧ good item ∧
        (∀ other ∈ before, ¬ good other → ¬ relation other item) ∧
        ∀ other ∈ after, ¬ good other → relation item other := by
  constructor
  · rintro ⟨item, head, isGood⟩
    obtain ⟨before, after, split, smaller, larger⟩ := head?_insertionSort_iff.mp head
    exact ⟨before, item, after, split, isGood, fun other member _ => smaller other member,
      fun other member _ => larger other member⟩
  · rintro ⟨before, item, after, split, isGood, smaller, larger⟩
    have member : item ∈ items.insertionSort relation := by
      rw [mem_insertionSort, split]
      simp
    cases sorted : items.insertionSort relation with
    | nil => rw [sorted] at member; cases member
    | cons head rest =>
      refine ⟨head, rfl, ?_⟩
      by_contra bad
      obtain ⟨first, last, otherSplit, headSmaller, headLarger⟩ :=
        head?_insertionSort_iff.mp (congrArg List.head? sorted)
      rcases place_cases (split.symm.trans otherSplit) with same | inFront | behind
      · exact bad (same ▸ isGood)
      · exact smaller head inFront.1 bad (headLarger item inFront.2)
      · exact headSmaller item behind.2 (larger head behind.1 bad)

variable (relation) in
/-- Whatever is at the head of a sorted list is good: there is nothing, or a good item comes
before all bad ones. -/
theorem forall_head?_insertionSort_iff (good : α → Prop) (items : List α) :
    (∀ item, (items.insertionSort relation).head? = some item → good item) ↔
      items = [] ∨ ∃ before item after, items = before ++ item :: after ∧ good item ∧
        (∀ other ∈ before, ¬ good other → ¬ relation other item) ∧
        ∀ other ∈ after, ¬ good other → relation item other := by
  rw [← head?_insertionSort_good_iff relation good items]
  cases sorted : items.insertionSort relation with
  | nil =>
    have none : items = [] := by
      rw [← length_eq_zero_iff, ← length_insertionSort relation, sorted, length_nil]
    simp [none]
  | cons head rest =>
    have some : items ≠ [] := by
      rintro rfl
      cases sorted
    simp [some]

/-! ## Sorting what was sorted otherwise -/

variable {β : Type u} {outer : β → β → Prop} [DecidableRel outer] [IsTrans β outer]
  [Std.Total outer] {project : α → β} {items : List α}

omit [DecidableRel relation] [IsTrans α relation] [Std.Total relation] in
theorem pairwise_of_classes {equivalent : α → α → Prop} [DecidableRel equivalent]
    (reflexive : ∀ item, equivalent item item)
    (classes : ∀ item, (items.filter fun other => equivalent item other).Pairwise relation) :
    items.Pairwise fun first second => equivalent first second → relation first second := by
  rw [pairwise_iff_forall_sublist]
  intro first second inside same
  have kept := inside.filter fun other => decide (equivalent first other)
  have both : [first, second].filter (fun other => equivalent first other) = [first, second] := by
    simp [reflexive first, same]
  rw [both] at kept
  exact pairwise_iff_forall_sublist.mp (classes first) kept

theorem eq_of_map_eq {first second : List α} (same : first.map project = second.map project)
    (injective : ∀ item ∈ first, ∀ other ∈ second, project item = project other → item = other) :
    first = second := by
  induction first generalizing second with
  | nil => exact (map_eq_nil_iff.mp same.symm).symm
  | cons item first ih =>
    obtain ⟨other, second, rfl, head, tail⟩ := map_eq_cons_iff.mp same.symm
    rw [injective item mem_cons_self other mem_cons_self head.symm,
      ih tail.symm fun item inFirst other inSecond =>
        injective item (mem_cons_of_mem _ inFirst) other (mem_cons_of_mem _ inSecond)]

/-- The items whose images are equivalent to a given one. -/
def alike (outer : β → β → Prop) [DecidableRel outer] (project : α → β) (item : β)
    (items : List α) : List α :=
  items.filter fun other => outer item (project other) ∧ outer (project other) item

omit [Std.Total outer] in
theorem equivalent_of_alike {item : β} {first second : α}
    (inFirst : first ∈ alike outer project item items)
    (inSecond : second ∈ alike outer project item items) :
    outer (project first) (project second) ∧ outer (project second) (project first) := by
  have firstAlike := (mem_filter.mp inFirst).2
  have secondAlike := (mem_filter.mp inSecond).2
  rw [decide_eq_true_iff] at firstAlike secondAlike
  exact ⟨IsTrans.trans _ _ _ firstAlike.2 secondAlike.1,
    IsTrans.trans _ _ _ secondAlike.2 firstAlike.1⟩

theorem filter_insertionSort_map (item : β) :
    (((items.insertionSort relation).map project).insertionSort outer).filter
        (fun other => outer item other ∧ outer other item) =
      ((alike outer project item items).insertionSort relation).map project := by
  have inner : ((items.insertionSort relation).map project).filter
      (fun other => outer item other ∧ outer other item) =
        ((alike outer project item items).insertionSort relation).map project := by
    rw [filter_map]
    exact congrArg _ (filter_insertionSort _ items)
  rw [filter_insertionSort, inner]
  apply List.Pairwise.insertionSort_eq
  rw [pairwise_map]
  apply pairwise_of_forall_mem_list
  intro first inFirst second inSecond
  rw [mem_insertionSort] at inFirst inSecond
  exact (equivalent_of_alike inFirst inSecond).1

/-- A list that is in order by the images of its items keeps this order when it is first sorted
otherwise, if equivalent images come in the other order. -/
theorem insertionSort_map_insertionSort (sorted : (items.map project).Pairwise outer)
    (ordered : items.Pairwise fun first second =>
      outer (project first) (project second) ∧ outer (project second) (project first) →
        relation first second) :
    ((items.insertionSort relation).map project).insertionSort outer = items.map project := by
  apply eq_of_classes (pairwise_insertionSort _ _) sorted
  intro item
  have inOrder : (alike outer project item items).Pairwise relation := by
    have kept : (alike outer project item items).Pairwise _ := ordered.filter _
    exact kept.imp_of_mem fun inFirst inSecond => fun follows =>
      follows (equivalent_of_alike inFirst inSecond)
  rw [filter_insertionSort_map, inOrder.insertionSort_eq, filter_map]
  rfl

theorem ordered_of_insertionSort_map (nodup : (items.map project).Nodup)
    (same : ((items.insertionSort relation).map project).insertionSort outer = items.map project) :
    items.Pairwise fun first second =>
      outer (project first) (project second) ∧ outer (project second) (project first) →
        relation first second := by
  apply pairwise_of_classes fun item => ⟨refl_of outer _, refl_of outer _⟩
  intro item
  have images : (((items.insertionSort relation).map project).insertionSort outer).filter _ = _ :=
    filter_insertionSort_map (project item)
  rw [same, filter_map] at images
  have kept : alike outer project (project item) items =
      (alike outer project (project item) items).insertionSort relation := by
    apply eq_of_map_eq images
    intro first inFirst second inSecond
    rw [mem_insertionSort] at inSecond
    exact inj_on_of_nodup_map nodup (mem_of_mem_filter inFirst) (mem_of_mem_filter inSecond)
  have sorted := pairwise_insertionSort relation (alike outer project (project item) items)
  rw [← kept] at sorted
  exact sorted

end

universe v w

variable {β : Type v} {γ : Type w} [LinearOrder β] [LinearOrder γ] (first : α → β) (second : α → γ)

def ByKeys (left right : α) : Prop :=
  first right < first left ∨ (first left = first right ∧ second left ≤ second right)

theorem byKeys_iff {left right : α} : ByKeys first second left right ↔
      toLex (toDual (first left), second left) ≤
        toLex (toDual (first right), second right) := by
  rw [Prod.Lex.toLex_le_toLex, toDual_lt_toDual, toDual_inj]
  exact .rfl

instance : Std.Total (ByKeys first second) where
  total left right := by
    rw [byKeys_iff, byKeys_iff]
    exact le_total _ _

instance : IsTrans α (ByKeys first second) where
  trans left middle right := by
    rw [byKeys_iff, byKeys_iff, byKeys_iff]
    exact le_trans

end AgenticOS.StableSort
