import Mathlib.Algebra.Order.BigOperators.Group.List
import Mathlib.Data.List.Induction
import Mathlib.Data.List.Nodup

/-!
# Insertion-ordered dictionaries

A `Dict` is a finite map that remembers the order in which its keys were first
inserted: assigning to a present key replaces the value in place, assigning to an
absent key appends. Keys are distinct by construction, so a sum over the entries
changes by exactly one summand when one key is assigned.
-/

namespace AgenticOS

open List

universe u v w

/-- A finite map in insertion order. -/
structure Dict (κ : Type u) (α : Type v) where
  entries : List (κ × α)
  nodupKeys : (entries.map Prod.fst).Nodup

namespace Dict

variable {κ : Type u} {α : Type v} {M : Type w}

/-- The dictionary without entries. -/
def empty : Dict κ α :=
  ⟨[], nodup_nil⟩

/-- The keys in insertion order. -/
def keys (dict : Dict κ α) : List κ :=
  dict.entries.map Prod.fst

/-- The values in insertion order. -/
def values (dict : Dict κ α) : List α :=
  dict.entries.map Prod.snd

/-- `len(dict)`. -/
def size (dict : Dict κ α) : Nat :=
  dict.entries.length

def sumBy [AddCommMonoid M] (dict : Dict κ α) (summand : κ → α → M) : M :=
  (dict.entries.map fun entry => summand entry.1 entry.2).sum

@[simp]
theorem sumBy_empty [AddCommMonoid M] (summand : κ → α → M) :
    (empty : Dict κ α).sumBy summand = 0 :=
  rfl

variable {dict : Dict κ α}

theorem sumBy_nonneg [AddCommMonoid M] [PartialOrder M] [IsOrderedAddMonoid M] {summand : κ → α → M}
    (nonneg : ∀ key value, (key, value) ∈ dict.entries → 0 ≤ summand key value) :
    0 ≤ dict.sumBy summand := by
  apply sum_nonneg
  intro term termMem
  obtain ⟨⟨key, value⟩, entryMem, rfl⟩ := mem_map.mp termMem
  exact nonneg key value entryMem

def mapValues (dict : Dict κ α) (change : α → α) : Dict κ α :=
  ⟨dict.entries.map fun entry => (entry.1, change entry.2), by
    rw [map_map]
    exact dict.nodupKeys⟩

@[simp]
theorem values_mapValues (dict : Dict κ α) (change : α → α) :
    (dict.mapValues change).values = dict.values.map change := by
  unfold values mapValues
  rw [map_map, map_map]
  rfl

theorem mapValues_of_entries_nil (none : dict.entries = []) (change : α → α) :
    dict.mapValues change = dict := by
  rcases dict with ⟨entries, nodupKeys⟩
  subst none
  rfl

variable [DecidableEq κ]

/-- Replace the value at `key` in place, or append it. -/
def assign (key : κ) (value : α) : List (κ × α) → List (κ × α)
  | [] => [(key, value)]
  | entry :: rest => if entry.1 = key then (key, value) :: rest else entry :: assign key value rest

/-- The value of the first entry for `key`. -/
def find (key : κ) : List (κ × α) → Option α
  | [] => none
  | entry :: rest => if entry.1 = key then some entry.2 else find key rest

theorem keys_assign (key : κ) (value : α) (entries : List (κ × α)) :
    (assign key value entries).map Prod.fst =
      if key ∈ entries.map Prod.fst then entries.map Prod.fst
      else entries.map Prod.fst ++ [key] := by
  induction entries with
  | nil => simp [assign]
  | cons entry rest ih =>
    by_cases here : entry.1 = key
    · simp [assign, here]
    · have there : key ≠ entry.1 := fun equal => here equal.symm
      by_cases later : key ∈ rest.map Prod.fst
      · simp [assign, here, ih, later]
      · simp [assign, here, there, ih, later]

variable {entries : List (κ × α)}

theorem nodup_keys_assign (key : κ) (value : α) (nodup : (entries.map Prod.fst).Nodup) :
    ((assign key value entries).map Prod.fst).Nodup := by
  rw [keys_assign]
  split
  · exact nodup
  · rename_i absent
    exact nodup_append.mpr ⟨nodup, nodup_singleton key, by
      intro left leftMem right rightMem equal
      rw [mem_singleton] at rightMem
      exact absent (rightMem ▸ equal ▸ leftMem)⟩

theorem find_assign_self (key : κ) (value : α) (entries : List (κ × α)) :
    find key (assign key value entries) = some value := by
  induction entries with
  | nil => simp [assign, find]
  | cons entry rest ih =>
    by_cases here : entry.1 = key
    · simp [assign, find, here]
    · simp [assign, find, here, ih]

variable {key other : κ}

theorem find_assign_ne (distinct : other ≠ key) (value : α) (entries : List (κ × α)) :
    find other (assign key value entries) = find other entries := by
  induction entries with
  | nil => simp [assign, find, distinct.symm]
  | cons entry rest ih =>
    by_cases here : entry.1 = key
    · simp [assign, find, here, distinct.symm]
    · simp [assign, find, here, ih]

variable {value : α}

theorem find_eq_some_iff (nodup : (entries.map Prod.fst).Nodup) :
    find key entries = some value ↔ (key, value) ∈ entries := by
  induction entries with
  | nil => simp [find]
  | cons entry rest ih =>
    rcases entry with ⟨first, firstValue⟩
    simp only [map_cons, nodup_cons] at nodup
    by_cases here : first = key
    · subst here
      have notLater : (first, value) ∉ rest := fun later =>
        nodup.1 (mem_map.mpr ⟨_, later, rfl⟩)
      simp [find, notLater, eq_comm]
    · have there : key ≠ first := fun equal => here equal.symm
      simp [find, here, there, ih nodup.2]

open Option

theorem sum_assign [AddCommMonoid M] (summand : κ → α → M) (key : κ) (value : α) :
    ((assign key value entries).map fun entry => summand entry.1 entry.2).sum +
        ((find key entries).map (summand key)).getD 0 =
      (entries.map fun entry => summand entry.1 entry.2).sum + summand key value := by
  induction entries with
  | nil => simp [assign, find]
  | cons entry rest ih =>
    by_cases here : entry.1 = key
    · subst here
      simp only [assign, find, if_true, map_cons, sum_cons, map_some, getD_some]
      ac_rfl
    · simp only [assign, find, here, if_false, map_cons, sum_cons]
      rw [add_assoc, ih, add_assoc]

theorem find_map {β : Type w} (change : α → β) (key : κ) (entries : List (κ × α)) :
    find key (entries.map fun entry => (entry.1, change entry.2)) =
      (find key entries).map change := by
  induction entries with
  | nil => rfl
  | cons entry rest ih =>
    by_cases here : entry.1 = key
    · simp [find, here]
    · simp [find, here, ih]

/-- The value stored under `key`. -/
def get? (dict : Dict κ α) (key : κ) : Option α :=
  find key dict.entries

/-- `dict[key] = value`. -/
def set (dict : Dict κ α) (key : κ) (value : α) : Dict κ α :=
  ⟨assign key value dict.entries, nodup_keys_assign key value dict.nodupKeys⟩

/-- `del dict[key]`. -/
def erase (dict : Dict κ α) (key : κ) : Dict κ α :=
  ⟨dict.entries.filter fun entry => entry.1 ≠ key,
    dict.nodupKeys.sublist (filter_sublist.map Prod.fst)⟩

/-- The dictionary built by assigning a list of pairs in order. -/
def ofList (pairs : List (κ × α)) : Dict κ α :=
  pairs.foldl (fun dict pair => dict.set pair.1 pair.2) empty

@[simp]
theorem get?_empty (key : κ) : (empty : Dict κ α).get? key = none :=
  rfl

@[simp]
theorem get?_set_self (dict : Dict κ α) (key : κ) (value : α) :
    (dict.set key value).get? key = some value :=
  find_assign_self key value dict.entries

theorem get?_set_ne (dict : Dict κ α) (distinct : other ≠ key) (value : α) :
    (dict.set key value).get? other = dict.get? other :=
  find_assign_ne distinct value dict.entries

theorem get?_set (dict : Dict κ α) (key other : κ) (value : α) : (dict.set key value).get? other =
      if other = key then some value else dict.get? other := by
  split
  · subst other
    exact get?_set_self dict key value
  · rename_i distinct
    exact get?_set_ne dict distinct value

theorem get?_eq_some_iff : dict.get? key = some value ↔ (key, value) ∈ dict.entries :=
  find_eq_some_iff dict.nodupKeys

theorem mem_keys_iff : key ∈ dict.keys ↔ ∃ value, dict.get? key = some value := by
  simp [keys, get?_eq_some_iff]

theorem mem_values_iff : value ∈ dict.values ↔ ∃ key, dict.get? key = some value := by
  simp [values, get?_eq_some_iff]

theorem mem_keys_set : other ∈ (dict.set key value).keys ↔ other = key ∨ other ∈ dict.keys := by
  simp only [mem_keys_iff, get?_set]
  by_cases same : other = key
  · simp [same]
  · simp [same]

theorem get?_erase (dict : Dict κ α) (key other : κ) :
    (dict.erase key).get? other = if other = key then none else dict.get? other := by
  apply Option.ext
  intro value
  rw [get?_eq_some_iff]
  change (other, value) ∈ dict.entries.filter (fun entry => entry.1 ≠ key) ↔ _
  split
  next same => simp [same]
  next distinct => simp [distinct, get?_eq_some_iff]

@[simp]
theorem get?_mapValues (dict : Dict κ α) (change : α → α) (key : κ) :
    (dict.mapValues change).get? key = (dict.get? key).map change :=
  find_map change key dict.entries

theorem get?_ofList (pairs : List (κ × α)) (key : κ) : (ofList pairs).get? key =
      (pairs.reverse.find? fun pair => pair.1 = key).map Prod.snd := by
  induction pairs using List.reverseRecOn with
  | nil => rfl
  | append_singleton pairs pair ih =>
    unfold ofList at ih ⊢
    rw [foldl_concat, get?_set, ih, reverse_concat, find?_cons]
    by_cases here : pair.1 = key
    · simp [here]
    · simp [here, Ne.symm here]

variable {pairs : List (κ × α)}

theorem mem_of_get?_ofList (found : (ofList pairs).get? key = some value) :
    (key, value) ∈ pairs := by
  rw [get?_ofList, map_eq_some_iff] at found
  obtain ⟨pair, isFound, rfl⟩ := found
  have same := find?_some isFound
  rw [decide_eq_true_iff] at same
  rw [← same]
  exact mem_reverse.mp (mem_of_find?_eq_some isFound)

theorem mem_keys_ofList : key ∈ (ofList pairs).keys ↔ key ∈ pairs.map Prod.fst := by
  rw [mem_keys_iff]
  constructor
  · rintro ⟨value, found⟩
    exact mem_map.mpr ⟨_, mem_of_get?_ofList found, rfl⟩
  · intro member
    obtain ⟨pair, isPair, rfl⟩ := mem_map.mp member
    rw [get?_ofList]
    cases isFound : pairs.reverse.find? fun other => other.1 = pair.1 with
    | none =>
      rw [find?_eq_none] at isFound
      exact absurd (decide_eq_true rfl) (isFound pair (mem_reverse.mpr isPair))
    | some other => exact ⟨other.2, rfl⟩

theorem assign_of_not_mem (value : α) (absent : key ∉ entries.map Prod.fst) :
    assign key value entries = entries ++ [(key, value)] := by
  induction entries with
  | nil => rfl
  | cons entry rest ih =>
    rw [map_cons, mem_cons, not_or] at absent
    rw [assign, if_neg (Ne.symm absent.1), ih absent.2, cons_append]

theorem entries_ofList (nodup : (pairs.map Prod.fst).Nodup) : (ofList pairs).entries = pairs := by
  induction pairs using List.reverseRecOn with
  | nil => rfl
  | append_singleton pairs pair ih =>
    rw [map_append, map_singleton, nodup_append] at nodup
    obtain ⟨earlier, -, distinct⟩ := nodup
    have absent : pair.1 ∉ pairs.map Prod.fst := fun member =>
      distinct pair.1 member pair.1 mem_cons_self rfl
    have before := ih earlier
    unfold ofList at before ⊢
    rw [foldl_concat]
    change assign pair.1 pair.2 _ = _
    rw [before, assign_of_not_mem pair.2 absent]

theorem get?_of_get?_erase (found : (dict.erase key).get? other = some value) :
    dict.get? other = some value := by
  rw [get?_erase] at found
  split at found
  · cases found
  · exact found

theorem sumBy_set_add [AddCommMonoid M] (dict : Dict κ α) (summand : κ → α → M)
    (key : κ) (value : α) :
    (dict.set key value).sumBy summand + ((dict.get? key).map (summand key)).getD 0 =
      dict.sumBy summand + summand key value :=
  sum_assign summand key value

theorem sumBy_set_of_none [AddCommMonoid M] (fresh : dict.get? key = none) (summand : κ → α → M)
    (value : α) : (dict.set key value).sumBy summand = dict.sumBy summand + summand key value := by
  simpa [fresh] using dict.sumBy_set_add summand key value

theorem sumBy_set_of_some [AddCommGroup M] {old : α} (present : dict.get? key = some old)
    (summand : κ → α → M) (value : α) : (dict.set key value).sumBy summand =
      dict.sumBy summand - summand key old + summand key value := by
  have moved := dict.sumBy_set_add summand key value
  simp only [present, map_some, getD_some] at moved
  rw [sub_add_eq_add_sub, ← moved, add_sub_cancel_right]

end Dict

end AgenticOS
