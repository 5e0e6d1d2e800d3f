import AgenticOS.Data.Dict
import AgenticOS.Data.SetOrder
import AgenticOS.Data.StableSort
import AgenticOS.Orchestration.Plan
import Mathlib.Algebra.Order.Ring.Rat
import Mathlib.Data.List.MinMax
import Mathlib.Data.String.Basic

/-!
# The merging of results

The merger brings the outputs of completed tasks together. By priority it begins with the highest
one and lets every later task overwrite what is there. By consensus it counts how the values of a
key are written and takes the first value. The values are of any type; `str` says how they are
written.
-/

namespace AgenticOS.Orchestration

open List Option

universe u

/-- What merging reads of a completed task. -/
structure TaskResult (ν : Type u) where
  id : TaskId
  priority : ℤ := 0
  outputData : Dict String ν

inductive MergeStrategy
  | weighted | priority | consensus | voting | bestOfN | concatenate
  deriving DecidableEq

structure Conflict (ν : Type u) where
  key : String
  values : List ν

structure MergedResult (ν : Type u) where
  strategy : MergeStrategy
  sourceTaskIds : List TaskId
  output : Dict String ν
  conflicts : List (Conflict ν) := []
  confidence : ℚ

namespace ResultMerger

variable {ν : Type u}

/-- `merged.update(output_data)`. -/
def update (merged outputData : Dict String ν) : Dict String ν :=
  outputData.entries.foldl (fun merged entry => merged.set entry.1 entry.2) merged

/-- The tasks by falling priority, equal ones as they come. -/
def sortedTasks (tasks : List (TaskResult ν)) : List (TaskResult ν) :=
  tasks.insertionSort fun first second => second.priority ≤ first.priority

def priorityMerge (tasks : List (TaskResult ν)) : MergedResult ν where
  strategy := .priority
  sourceTaskIds := tasks.map TaskResult.id
  output := (sortedTasks tasks).foldl (fun merged task => update merged task.outputData) .empty
  confidence := 8 / 10

def valuesOf (tasks : List (TaskResult ν)) (key : String) : List ν :=
  tasks.filterMap fun task => task.outputData.get? key

/-- `Counter(texts).most_common(1)`. -/
def mostCommon (texts : List String) : Option (String × Nat) :=
  (texts.argmax texts.count).map fun text => (text, texts.count text)

/-- What is merged, the conflicts, and how many keys are agreed on. -/
structure Agreement (ν : Type u) where
  merged : Dict String ν := .empty
  conflicts : List (Conflict ν) := []
  agreements : Nat := 0

/-- One turn of the loop over the keys. -/
def settle (str : ν → String) (tasks : List (TaskResult ν)) (settled : Agreement ν)
    (key : String) : Agreement ν :=
  let values := valuesOf tasks key
  match values.head?, mostCommon (values.map str) with
  | some value, some (_, count) =>
    if values.length < 2 * count then
      { settled with
        merged := settled.merged.set key value
        agreements := settled.agreements + 1 }
    else { settled with conflicts := settled.conflicts ++ [{ key, values }] }
  | _, _ => settled

def totalKeys (tasks : List (TaskResult ν)) : Finset String :=
  (tasks.flatMap fun task => task.outputData.keys).toFinset

def consensusMerge (str : ν → String) (order : SetOrder String) (tasks : List (TaskResult ν)) :
    MergedResult ν :=
  let settled := (order.list (totalKeys tasks)).foldl (settle str tasks) {}
  { strategy := .consensus
    sourceTaskIds := tasks.map TaskResult.id
    output := settled.merged
    conflicts := settled.conflicts
    confidence :=
      if totalKeys tasks = ∅ then 0
      else (settled.agreements : ℚ) / (max (totalKeys tasks).card 1 : Nat) }

/-- A task of the highest priority among those with the key has the value. -/
def Highest (tasks : List (TaskResult ν)) (key : String) (value : ν) : Prop :=
  ∃ task ∈ tasks, task.outputData.get? key = some value ∧
    ∀ other ∈ tasks, (other.outputData.get? key).isSome → other.priority ≤ task.priority

/-- Every value of the output is one of the highest tasks that have its key. -/
def ByPriority (tasks : List (TaskResult ν)) (result : MergedResult ν) : Prop :=
  ∀ key value, result.output.get? key = some value → Highest tasks key value

/-- More than half of the values of the key are this one. -/
def Majority [DecidableEq ν] (tasks : List (TaskResult ν)) (key : String) (value : ν) : Prop :=
  (valuesOf tasks key).length < 2 * (valuesOf tasks key).count value

/-- Majorities enter the output; a key without one is a conflict. -/
def ByMajority [DecidableEq ν] (tasks : List (TaskResult ν)) (result : MergedResult ν) : Prop :=
  (∀ key value, result.output.get? key = some value → Majority tasks key value) ∧
    ∀ key ∈ totalKeys tasks, (∀ value, ¬ Majority tasks key value) →
      result.output.get? key = none ∧ key ∈ result.conflicts.map Conflict.key

/-- The last task of the lowest priority among those with the key. -/
def LastLowest (tasks : List (TaskResult ν)) (key : String) (task : TaskResult ν) : Prop :=
  ∃ before after, tasks = before ++ task :: after ∧
    (∀ other ∈ before, (other.outputData.get? key).isSome → task.priority ≤ other.priority) ∧
    ∀ other ∈ after, (other.outputData.get? key).isSome → task.priority < other.priority

/-- The last task of the lowest priority has a value of the highest. -/
def LowestAgree (tasks : List (TaskResult ν)) : Prop :=
  ∀ key lowest value, LastLowest tasks key lowest → lowest.outputData.get? key = some value →
    Highest tasks key value

/-- Where more than half of the values of a key are written alike, more than half of them are
the first one. -/
def FirstPrevails [DecidableEq ν] (str : ν → String) (tasks : List (TaskResult ν)) : Prop :=
  ∀ key first, (valuesOf tasks key).head? = some first →
    (∃ text, (valuesOf tasks key).length < 2 * ((valuesOf tasks key).map str).count text) →
      Majority tasks key first

theorem get?_update (merged outputData : Dict String ν) (key : String) :
    (update merged outputData).get? key = (outputData.get? key).or (merged.get? key) := by
  have built : ∀ entries : List (String × ν),
      (entries.foldl (fun merged entry => merged.set entry.1 entry.2) merged).get? key =
        ((Dict.ofList entries).get? key).or (merged.get? key) := by
    intro entries
    unfold Dict.ofList
    induction entries using List.reverseRecOn with
    | nil => rfl
    | append_singleton entries entry ih =>
      rw [foldl_concat, foldl_concat, Dict.get?_set, Dict.get?_set, ih]
      split
      · rfl
      · rfl
  have same : (Dict.ofList outputData.entries).get? key = outputData.get? key := by
    unfold Dict.get?
    rw [Dict.entries_ofList outputData.nodupKeys]
  unfold update
  rw [built, same]

section

variable (tasks : List (TaskResult ν))

theorem get?_foldl_update (key : String) :
    (tasks.foldl (fun merged task => update merged task.outputData) .empty).get? key =
      (tasks.filter fun task => (task.outputData.get? key).isSome).getLast?.bind
        fun task => task.outputData.get? key := by
  induction tasks using List.reverseRecOn with
  | nil => rfl
  | append_singleton tasks task ih =>
    rw [foldl_concat, get?_update, ih, filter_append]
    cases found : task.outputData.get? key with
    | none | some => simp [found]

variable {tasks} in
theorem lastLowest_iff {key : String} {task : TaskResult ν}
    (holds : (task.outputData.get? key).isSome) :
    (sortedTasks (tasks.filter fun task => (task.outputData.get? key).isSome)).getLast? =
        some task ↔ LastLowest tasks key task := by
  unfold sortedTasks LastLowest
  rw [StableSort.getLast?_insertionSort_iff]
  constructor
  · rintro ⟨before, after, split, notLower, higher⟩
    obtain ⟨first, rest, rfl, rfl, isRest⟩ := filter_eq_append_iff.mp split
    obtain ⟨between, last, rfl, none, -, rfl⟩ := filter_eq_cons_iff.mp isRest
    refine ⟨first ++ between, last, by simp, fun other member some => ?_,
      fun other member some => ?_⟩
    · rcases mem_append.mp member with inFirst | inBetween
      · exact notLower other (mem_filter.mpr ⟨inFirst, some⟩)
      · exact absurd some (none other inBetween)
    · exact not_le.mp (higher other (mem_filter.mpr ⟨member, some⟩))
  · rintro ⟨before, after, rfl, notLower, higher⟩
    refine ⟨before.filter fun task => (task.outputData.get? key).isSome,
      after.filter fun task => (task.outputData.get? key).isSome, ?_, fun other member => ?_,
      fun other member => ?_⟩
    · rw [filter_append, filter_cons, if_pos holds]
    · obtain ⟨inBefore, some⟩ := mem_filter.mp member
      exact notLower other inBefore some
    · obtain ⟨inAfter, some⟩ := mem_filter.mp member
      exact not_le.mpr (higher other inAfter some)

/-- By priority the last one of the lowest tasks is written. -/
theorem get?_priorityMerge (key : String) (value : ν) :
    (priorityMerge tasks).output.get? key = some value ↔
      ∃ task, LastLowest tasks key task ∧ task.outputData.get? key = some value := by
  unfold priorityMerge sortedTasks
  rw [get?_foldl_update, StableSort.filter_insertionSort, bind_eq_some_iff]
  refine exists_congr fun task => and_congr_left fun found => ?_
  exact lastLowest_iff (by rw [found]; rfl)

theorem byPriority_iff : ByPriority tasks (priorityMerge tasks) ↔ LowestAgree tasks := by
  unfold ByPriority LowestAgree
  simp only [get?_priorityMerge]
  constructor
  · intro all key lowest value isLowest found
    exact all key value ⟨lowest, isLowest, found⟩
  · rintro all key value ⟨lowest, isLowest, found⟩
    exact all key lowest value isLowest found

end

/-! ## By consensus -/

/-- More than half of the values of a key are written alike. -/
def Agreed (str : ν → String) (tasks : List (TaskResult ν)) (key : String) : Prop :=
  ∃ text, (valuesOf tasks key).length < 2 * ((valuesOf tasks key).map str).count text

variable {str : ν → String} {tasks : List (TaskResult ν)} {key : String}

theorem mostCommon_spec (str : ν → String) {values : List ν} {first : ν}
    (isFirst : values.head? = some first) :
    ∃ text count, mostCommon (values.map str) = some (text, count) ∧
      ∀ bound, bound < 2 * count ↔ ∃ text, bound < 2 * (values.map str).count text := by
  have nonempty : values.map str ≠ [] := by
    rw [Ne, map_eq_nil_iff]
    rintro rfl
    cases isFirst
  obtain ⟨text, isMost⟩ : ∃ text, (values.map str).argmax (values.map str).count = some text :=
    ne_none_iff_exists'.mp (mt argmax_eq_none.mp nonempty)
  refine ⟨text, _, by rw [mostCommon, isMost]; rfl, fun bound => ⟨fun many => ⟨text, many⟩, ?_⟩⟩
  rintro ⟨other, many⟩
  have member : other ∈ values.map str := count_pos_iff.mp (by omega)
  have most := le_of_mem_argmax member isMost
  omega

structure Settled (str : ν → String) (tasks : List (TaskResult ν)) (keys : List String)
    (settled : Agreement ν) : Prop where
  merged : ∀ key value, settled.merged.get? key = some value ↔
    key ∈ keys ∧ (valuesOf tasks key).head? = some value ∧ Agreed str tasks key
  conflicts : ∀ key, key ∈ settled.conflicts.map Conflict.key ↔
    key ∈ keys ∧ valuesOf tasks key ≠ [] ∧ ¬ Agreed str tasks key

theorem Settled.settle {keys : List String} {settled : Agreement ν}
    (before : Settled str tasks keys settled) (key : String) :
    Settled str tasks (keys ++ [key]) (settle str tasks settled key) := by
  unfold ResultMerger.settle
  dsimp only
  cases isFirst : (valuesOf tasks key).head? with
  | none =>
    have empty := head?_eq_none_iff.mp isFirst
    constructor
    · intro other value
      rw [before.merged]
      grind
    · intro other
      rw [before.conflicts]
      grind
  | some first =>
    obtain ⟨text, count, isMost, exact⟩ := mostCommon_spec str isFirst
    have agreed : (valuesOf tasks key).length < 2 * count ↔ Agreed str tasks key := exact _
    rw [isMost]
    dsimp only
    split
    case isTrue many =>
      constructor
      · intro other value
        rw [Dict.get?_set]
        have known := before.merged other value
        grind
      · intro other
        have known := before.conflicts other
        grind
    case isFalse few =>
      constructor
      · intro other value
        have known := before.merged other value
        grind
      · intro other
        have known := before.conflicts other
        grind

theorem settled_foldl (str : ν → String) (tasks : List (TaskResult ν)) (keys : List String) :
    Settled str tasks keys (keys.foldl (settle str tasks) {}) := by
  induction keys using List.reverseRecOn with
  | nil => exact ⟨by simp, by simp⟩
  | append_singleton keys key ih =>
    rw [foldl_concat]
    exact ih.settle key

theorem mem_totalKeys_iff : key ∈ totalKeys tasks ↔ valuesOf tasks key ≠ [] := by
  simp [totalKeys, valuesOf, Dict.mem_keys_iff, ne_none_iff_exists']

theorem byMajority_iff [DecidableEq ν] (str : ν → String) (order : SetOrder String)
    (tasks : List (TaskResult ν)) :
    ByMajority tasks (consensusMerge str order tasks) ↔ FirstPrevails str tasks := by
  have settled := settled_foldl str tasks (order.list (totalKeys tasks))
  have listed : ∀ key, key ∈ order.list (totalKeys tasks) ↔ valuesOf tasks key ≠ [] :=
    fun key => (order.mem _ key).trans mem_totalKeys_iff
  constructor
  · intro byMajority key first isFirst agreed
    apply byMajority.1
    refine (settled.merged key first).mpr ⟨(listed key).mpr ?_, isFirst, agreed⟩
    intro empty
    rw [empty] at isFirst
    cases isFirst
  · intro prevails
    have carried : ∀ key value,
        (consensusMerge str order tasks).output.get? key = some value →
          Majority tasks key value := by
      intro key value found
      obtain ⟨-, isFirst, agreed⟩ := (settled.merged key value).mp found
      exact prevails key value isFirst agreed
    refine ⟨carried, fun key member none => ?_⟩
    have nonempty := mem_totalKeys_iff.mp member
    have absent : (consensusMerge str order tasks).output.get? key = .none :=
      eq_none_iff_forall_ne_some.mpr fun value found => none value (carried key value found)
    refine ⟨absent, (settled.conflicts key).mpr
      ⟨(listed key).mpr nonempty, nonempty, fun agreed => ?_⟩⟩
    obtain ⟨first, isFirst⟩ := ne_none_iff_exists'.mp (mt head?_eq_none_iff.mp nonempty)
    exact none first (prevails key first isFirst agreed)

/-- The two strategies mean what they name if and only if the lowest tasks agree with the highest
ones, and of values that are mostly written alike the first one is in the majority. -/
theorem means_what_it_names_iff [DecidableEq ν] (str : ν → String) (order : SetOrder String)
    (tasks : List (TaskResult ν)) : (ByPriority tasks (priorityMerge tasks) ∧
        ByMajority tasks (consensusMerge str order tasks)) ↔
      LowestAgree tasks ∧ FirstPrevails str tasks :=
  and_congr (byPriority_iff tasks) (byMajority_iff str order tasks)

def answering (priority : ℤ) (value : ν) : TaskResult ν where
  id := "task"
  priority := priority
  outputData := Dict.empty.set "answer" value

/-- A number, and a text twice that is written like it. -/
def numberAndTexts : List (TaskResult (ℕ ⊕ String)) :=
  [answering 2 (.inl 1), answering 1 (.inr "1"), answering 1 (.inr "1")]

/-- By priority the text of a lower task is taken, and by consensus the number of a minority. -/
theorem numberAndTexts_mismerged : ¬ ByPriority numberAndTexts (priorityMerge numberAndTexts) ∧
      ¬ ByMajority numberAndTexts
        (consensusMerge (Sum.elim toString id) (.first "answer") numberAndTexts) := by
  rw [byPriority_iff, byMajority_iff]
  constructor
  · intro agree
    obtain ⟨task, member, found, most⟩ := agree "answer" (answering 1 (.inr "1")) _
      ⟨[answering 2 (.inl 1), answering 1 (.inr "1")], [], rfl, by simp [answering], by simp⟩ rfl
    have least := most (answering 2 (.inl 1)) mem_cons_self rfl
    simp only [numberAndTexts, mem_cons, not_mem_nil, or_false] at member
    rcases member with rfl | rfl | rfl
    · cases found
    · exact absurd least (by decide)
    · exact absurd least (by decide)
  · intro prevails
    have majority := prevails "answer" (.inl 1) rfl ⟨"1", by decide +kernel⟩
    exact absurd majority (by unfold Majority; decide)

end ResultMerger

end AgenticOS.Orchestration
