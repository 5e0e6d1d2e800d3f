import AgenticOS.Swarm.Counterfactual.Forks

/-!
# Two universes

The comparison of two runs puts every position of either into exactly one list, and comparing
them the other way round gives the mirror image. Together with what holds of the forks this says
when the engine is faithful.
-/

namespace AgenticOS.Swarm.Counterfactual

open JsonValue DayFiles StableSort List Deltas

def Change.mirror (change : Change) : Change :=
  { change with payloadA := change.payloadB, payloadB := change.payloadA }

def Deltas.mirror (deltas : Deltas) : Deltas where
  matched := deltas.matched
  changed := deltas.changed.map Change.mirror
  onlyInA := deltas.onlyInB
  onlyInB := deltas.onlyInA

def Diff.mirror (diff : Diff) : Diff where
  a := diff.b
  b := diff.a
  deltas := diff.deltas.mirror
  spanDelta := diff.spanDelta.map (- ·)

section

variable (reading : Reading) (a b : List EventJournalEntry)

theorem differingFields_comm (first second : Dict String JsonValue) :
    differingFields reading first second = differingFields reading second first := by
  unfold differingFields
  rw [toFinset_append, toFinset_append, Finset.union_comm]
  simp only [JsonValue.equal_comm reading.normal]

theorem compareAt_mirror (deltas : Deltas) (index : Nat) :
    compareAt reading b a deltas.mirror index = (compareAt reading a b deltas index).mirror := by
  unfold compareAt
  cases a[index]? with
  | none => cases b[index]? <;> rfl
  | some eventA =>
    cases b[index]? with
    | none => rfl
    | some eventB =>
      by_cases sameType : eventA.eventType = eventB.eventType
      · by_cases sameText : (object eventA.payload).sortedDumps =
            (object eventB.payload).sortedDumps
        · simp [sameType, sameText, mirror]
        · simp [sameType, sameText, Ne.symm sameText, mirror, Change.mirror,
            differingFields_comm reading eventB.payload]
      · simp [sameType, Ne.symm sameType, mirror]

theorem compareAll_mirror : compareAll reading b a = (compareAll reading a b).mirror := by
  have run : ∀ (indices : List Nat) (deltas : Deltas),
      indices.foldl (compareAt reading b a) deltas.mirror =
        (indices.foldl (compareAt reading a b) deltas).mirror := by
    intro indices
    induction indices with
    | nil => exact fun _ => rfl
    | cons index indices ih =>
      intro deltas
      rw [foldl_cons, compareAt_mirror, ih, foldl_cons]
  rw [compareAll, Nat.max_comm]
  exact run _ {}

def Deltas.positionsA (deltas : Deltas) : List Nat :=
  deltas.matched.map Prod.fst ++ deltas.changed.map Change.index ++ deltas.onlyInA.map Brief.index

def Deltas.positionsB (deltas : Deltas) : List Nat :=
  deltas.matched.map Prod.fst ++ deltas.changed.map Change.index ++ deltas.onlyInB.map Brief.index

theorem positionsA_mirror (deltas : Deltas) : deltas.mirror.positionsA = deltas.positionsB := by
  simp [positionsA, positionsB, mirror, Change.mirror]

theorem perm_middle {α : Type} (first rest : List α) (item : α) :
    (first ++ item :: rest).Perm (first ++ (rest ++ [item])) :=
  (perm_append_singleton item rest).symm.append_left first

theorem positionsA_compareAt (deltas : Deltas) (index : Nat) :
    (compareAt reading a b deltas index).positionsA.Perm
      (deltas.positionsA ++ if index < a.length then [index] else []) := by
  unfold compareAt
  cases atA : a[index]? with
  | none =>
    have outside : ¬ index < a.length := by simpa using atA
    rw [if_neg outside, append_nil]
    cases b[index]? <;> exact .refl _
  | some eventA =>
    have inside : index < a.length := (List.getElem?_eq_some_iff.mp atA).1
    rw [if_pos inside]
    cases b[index]? with
    | none => simp [positionsA, brief]
    | some eventB =>
      by_cases sameType : eventA.eventType = eventB.eventType
      · by_cases sameText : (object eventA.payload).sortedDumps =
            (object eventB.payload).sortedDumps
        · simpa [sameType, sameText, positionsA] using
            perm_middle (deltas.matched.map Prod.fst)
              (deltas.changed.map Change.index ++ deltas.onlyInA.map Brief.index) index
        · simpa [sameType, sameText, positionsA] using
            perm_middle (deltas.matched.map Prod.fst ++ deltas.changed.map Change.index)
              (deltas.onlyInA.map Brief.index) index
      · simp [sameType, positionsA, brief]

theorem positionsA_compareAll : (compareAll reading a b).positionsA.Perm (List.range a.length) := by
  have run : ∀ count, ((List.range count).foldl (compareAt reading a b) {}).positionsA.Perm
      (List.range (min count a.length)) := by
    intro count
    induction count with
    | zero => simp [positionsA]
    | succ count ih =>
      rw [range_succ, foldl_append]
      refine (positionsA_compareAt reading a b _ count).trans ?_
      refine (ih.append_right _).trans ?_
      split
      · next inside =>
          rw [Nat.min_eq_left inside.le, Nat.min_eq_left (Nat.succ_le_of_lt inside), range_succ]
      · next outside =>
          rw [append_nil, Nat.min_eq_right (Nat.le_of_not_lt outside),
            Nat.min_eq_right (Nat.le_succ_of_le (Nat.le_of_not_lt outside))]
  have whole := run (max a.length b.length)
  rw [Nat.min_eq_right (Nat.le_max_left _ _)] at whole
  exact whole

theorem positionsB_compareAll : (compareAll reading a b).positionsB.Perm (List.range b.length) := by
  rw [← positionsA_mirror, ← compareAll_mirror]
  exact positionsA_compareAll reading b a

end

/-- What two comparisons of two runs give: each position of a run is in one list, once, and the
comparison the other way round is the mirror image. -/
def DiffLawful (reading : Reading) (engine : CounterfactualEngine) (idA idB : String) : Prop :=
  match engine.diff reading idA idB with
  | .ok diff =>
    diff.deltas.positionsA.Perm (List.range (loadStream reading engine.journal idA).length) ∧
      diff.deltas.positionsB.Perm (List.range (loadStream reading engine.journal idB).length) ∧
      engine.diff reading idB idA = .ok diff.mirror
  | .error _ => ∃ message, engine.diff reading idB idA = .error message

theorem diffLawful (reading : Reading) (engine : CounterfactualEngine) (idA idB : String) :
    DiffLawful reading engine idA idB := by
  unfold DiffLawful CounterfactualEngine.diff
  by_cases noA : loadStream reading engine.journal idA = []
  · by_cases noB : loadStream reading engine.journal idB = []
    · simp [noA, noB]
    · simp [noA, noB]
  · by_cases noB : loadStream reading engine.journal idB = []
    · simp [noA, noB]
    · simp only [noA, noB, if_false]
      refine ⟨positionsA_compareAll .., positionsB_compareAll .., ?_⟩
      rw [Diff.mirror, compareAll_mirror]
      congr 2
      cases spanMs reading (loadStream reading engine.journal idA) with
      | none => cases spanMs reading (loadStream reading engine.journal idB) <;> rfl
      | some spanA =>
        cases spanMs reading (loadStream reading engine.journal idB) with
        | none => rfl
        | some spanB => exact congrArg some (neg_sub spanB spanA).symm

section

variable (reading : Reading) (env : Surroundings) (engine : CounterfactualEngine)
  (source : String) (forkAt : Int) (mutations : List JsonValue) (replay : Bool)

/-- A fork without mutations is loaded as the prefix that it copies, a fork that raises has
written nothing, and comparisons are lawful. -/
structure Faithful : Prop where
  copied : mutations = [] → ∀ record after,
    engine.fork reading env source forkAt mutations replay = (.ok record, after) →
      loadStream reading after.journal record.forkId =
        copies env record.lineage 0 ((loadStream reading engine.journal source).take forkAt.toNat)
  clean : ∀ message after,
    engine.fork reading env source forkAt mutations replay = (.error message, after) →
      ¬ Holds env after.journal
  compared : ∀ idA idB, DiffLawful reading engine idA idB

/-- When a fork is faithful: the copies of a prefix are recoverable if they are all written, and
nothing fails after the first append. -/
structure FaithfulWhen : Prop where
  recoverable : mutations = [] → loadStream reading engine.journal source ≠ [] → 0 ≤ forkAt →
    forkAt ≤ (loadStream reading engine.journal source).length →
    (∀ number < forkAt.toNat, ¬ Fails env (replay && engine.hasBus) number) →
      Recoverable reading env engine.journal
        ((loadStream reading engine.journal source).take forkAt.toNat)
  early : ∀ kept, prepare reading source (loadStream reading engine.journal source) forkAt
      mutations = .ok kept → env.appendFails 0 = none →
    ∀ number < kept.slots.length, ¬ Fails env (replay && engine.hasBus) number

variable {reading env engine source forkAt mutations replay}

variable {kept : Prefix}

theorem prepare_nil {events : List EventJournalEntry} :
    prepare reading source events forkAt [] = .ok kept ↔
      events ≠ [] ∧ 0 ≤ forkAt ∧ forkAt ≤ events.length ∧
        kept = ⟨(events.take forkAt.toNat).zipIdx.map Prod.swap, []⟩ := by
  unfold prepare
  by_cases empty : events = []
  · simp [empty, bind, Except.bind]
  · by_cases within : 0 ≤ forkAt ∧ forkAt ≤ events.length
    · simp [empty, within, bind, Except.bind, pure, Except.pure, eq_comm]
    · have outside : ¬ (0 ≤ forkAt ∧ forkAt ≤ events.length ∧
          kept = ⟨(events.take forkAt.toNat).zipIdx.map .swap, []⟩) :=
        fun all => within ⟨all.1, all.2.1⟩
      simp [empty, within, outside, bind, Except.bind]

def loop (reading : Reading) (env : Surroundings) (engine : CounterfactualEngine)
    (source : String) (forkAt : Int) (replay : Bool) (kept : Prefix) :
    Except String Nat × CounterfactualEngine :=
  writeAll env
    (lineage source forkAt (loadStream reading engine.journal source) kept)
    (replay && engine.hasBus) 0 (kept.slots.map Prod.snd) engine

variable (reading env engine source forkAt mutations replay) in
theorem fork_cases :
    (∃ message, prepare reading source (loadStream reading engine.journal source) forkAt
        mutations = .error message ∧
      engine.fork reading env source forkAt mutations replay = (.error message, engine)) ∨
    ∃ kept, prepare reading source (loadStream reading engine.journal source) forkAt
        mutations = .ok kept ∧
      ((∃ message after,
          loop reading env engine source forkAt replay kept = (.error message, after) ∧
          engine.fork reading env source forkAt mutations replay = (.error message, after)) ∨
        ∃ count record after,
          loop reading env engine source forkAt replay kept = (.ok count, after) ∧
          record.forkId = env.forkId ∧
          record.lineage = lineage source forkAt (loadStream reading engine.journal source) kept ∧
          engine.fork reading env source forkAt mutations replay =
            (.ok record, { after with forks := after.forks.set record.forkId record })) := by
  unfold CounterfactualEngine.fork
  cases prepared : prepare reading source (loadStream reading engine.journal source) forkAt
      mutations with
  | error message => exact .inl ⟨message, rfl, by simp [prepared]⟩
  | ok kept =>
    refine .inr ⟨kept, rfl, ?_⟩
    simp only [prepared]
    cases ended : loop reading env engine source forkAt replay kept with
    | mk outcome after =>
      unfold loop at ended
      rw [ended]
      cases outcome with
      | error message => exact .inl ⟨message, after, rfl, rfl⟩
      | ok count => exact .inr ⟨count, _, after, rfl, rfl, rfl, rfl⟩

variable (reading env engine source forkAt replay) in
/-- The loop raises exactly if something fails. -/
theorem loop_raises_iff (kept : Prefix) : (∃ message after,
        loop reading env engine source forkAt replay kept = (.error message, after)) ↔
      ∃ number < kept.slots.length, Fails env (replay && engine.hasBus) number := by
  have comes : (∃ count,
      (loop reading env engine source forkAt replay kept).1 = .ok count) ↔ _ :=
    writeAll_ok_iff 0 (kept.slots.map Prod.snd) engine
  simp only [length_map, Nat.zero_add] at comes
  cases ended : loop reading env engine source forkAt replay kept with
  | mk outcome after =>
    rw [ended] at comes
    cases outcome with
    | error message =>
      refine ⟨fun _ => ?_, fun _ => ⟨message, after, rfl⟩⟩
      by_contra fine
      obtain ⟨count, impossible⟩ := comes.mpr fun later inside fails =>
        fine ⟨later, inside, fails⟩
      cases impossible
    | ok count =>
      constructor
      · rintro ⟨message, other, same⟩
        cases same
      · rintro ⟨number, inside, fails⟩
        exact absurd fails (comes.mp ⟨count, rfl⟩ number inside)

variable (reading source forkAt replay) in
theorem holds_loop (fresh : Fresh env engine.journal) (kept : Prefix) :
    Holds env (loop reading env engine source forkAt replay kept).2.journal ↔
      kept.slots ≠ [] ∧ env.appendFails 0 = none := by
  have new : ¬ Holds env engine.journal := by
    rintro ⟨written, member, same⟩
    exact fresh.journal written member same
  rw [loop, holds_writeAll fresh, or_iff_right new, ne_eq, map_eq_nil_iff]

variable {after : CounterfactualEngine}

theorem loop_loads_iff (fresh : Fresh env engine.journal) {count : Nat}
    (done : loop reading env engine source forkAt replay kept = (.ok count, after))
    (sorted : (kept.slots.map Prod.snd).Pairwise (NotLater reading)) :
    loadStream reading after.journal env.forkId =
        copies env (lineage source forkAt (loadStream reading engine.journal source) kept) 0
          (kept.slots.map Prod.snd) ↔
      Recoverable reading env engine.journal (kept.slots.map Prod.snd) := by
  unfold loop at done
  have written := writeAll_journal (congrArg Prod.fst done)
  rw [done] at written
  rw [written, loadStream_eq_copies_iff fresh sorted]

/-- What a run without mutations leaves to the loop. -/
theorem slots_take (events : List EventJournalEntry) (count : Nat) :
    ((events.take count).zipIdx.map Prod.swap).map Prod.snd = events.take count := by
  rw [map_map]
  exact zipIdx_map_fst 0 _

theorem pairwise_take (count : Nat) :
    ((loadStream reading engine.journal source).take count).Pairwise (NotLater reading) :=
  (pairwise_insertionSort _ _).sublist (take_sublist _ _)

theorem recoverable_of_copied (fresh : Fresh env engine.journal) (copied : ∀ record after,
      engine.fork reading env source forkAt [] replay = (.ok record, after) →
        loadStream reading after.journal record.forkId =
          copies env record.lineage 0
            ((loadStream reading engine.journal source).take forkAt.toNat))
    (nonempty : loadStream reading engine.journal source ≠ []) (nonneg : 0 ≤ forkAt)
    (short : forkAt ≤ (loadStream reading engine.journal source).length)
    (fine : ∀ number < forkAt.toNat, ¬ Fails env (replay && engine.hasBus) number) :
    Recoverable reading env engine.journal
      ((loadStream reading engine.journal source).take forkAt.toNat) := by
  have prepared : prepare reading source (loadStream reading engine.journal source) forkAt []
      = .ok _ := prepare_nil.mpr ⟨nonempty, nonneg, short, rfl⟩
  rcases fork_cases reading env engine source forkAt [] replay with
    ⟨message, failed, -⟩ | ⟨kept, found, ends⟩
  · rw [prepared] at failed
    cases failed
  · cases prepared.symm.trans found
    rcases ends with ⟨message, after, raised, -⟩ |
      ⟨count, record, after, done, sameId, sameLineage, result⟩
    · obtain ⟨number, inside, fails⟩ := (loop_raises_iff ..).mp ⟨message, after, raised⟩
      rw [length_map, length_zipIdx, length_take] at inside
      exact absurd fails (fine number (by omega))
    · have loaded := copied record _ result
      have recoverable := loop_loads_iff fresh done (by
        rw [slots_take]
        exact pairwise_take _)
      rw [slots_take] at recoverable
      rw [sameId, sameLineage] at loaded
      exact recoverable.mp loaded

theorem early_of_clean (fresh : Fresh env engine.journal) (clean : ∀ message after,
      engine.fork reading env source forkAt mutations replay = (.error message, after) →
        ¬ Holds env after.journal)
    (prepared : prepare reading source (loadStream reading engine.journal source) forkAt
      mutations = .ok kept) (appended : env.appendFails 0 = none) :
    ∀ number < kept.slots.length, ¬ Fails env (replay && engine.hasBus) number := by
  intro number inside fails
  rcases fork_cases reading env engine source forkAt mutations replay with
    ⟨message, failed, -⟩ | ⟨other, found, ends⟩
  · rw [prepared] at failed
    cases failed
  · cases prepared.symm.trans found
    obtain ⟨message, after, raised⟩ := (loop_raises_iff reading env engine source
      forkAt replay kept).mpr ⟨number, inside, fails⟩
    rcases ends with ⟨other, last, failed, result⟩ | ⟨count, record, last, done, -⟩
    · have holds := (holds_loop reading source forkAt replay fresh kept).mpr
        ⟨ne_nil_of_length_pos (Nat.zero_lt_of_lt inside), appended⟩
      rw [failed] at holds
      exact clean other last result holds
    · rw [raised] at done
      cases done

theorem fine_of_done {count : Nat}
    (done : loop reading env engine source forkAt replay kept = (.ok count, after)) :
    ∀ number < kept.slots.length, ¬ Fails env (replay && engine.hasBus) number := by
  intro number inside fails
  obtain ⟨message, other, failed⟩ :=
    (loop_raises_iff reading env engine source forkAt replay kept).mpr ⟨number, inside, fails⟩
  cases failed.symm.trans done

theorem copied_of_recoverable (fresh : Fresh env engine.journal)
    (recoverable : loadStream reading engine.journal source ≠ [] → 0 ≤ forkAt →
      forkAt ≤ (loadStream reading engine.journal source).length →
      (∀ number < forkAt.toNat, ¬ Fails env (replay && engine.hasBus) number) →
        Recoverable reading env engine.journal
          ((loadStream reading engine.journal source).take forkAt.toNat)) {record : ForkRecord}
    (result : engine.fork reading env source forkAt [] replay = (.ok record, after)) :
    loadStream reading after.journal record.forkId =
      copies env record.lineage 0
        ((loadStream reading engine.journal source).take forkAt.toNat) := by
  rcases fork_cases reading env engine source forkAt [] replay with
    ⟨message, -, raised⟩ | ⟨kept, prepared, ends⟩
  · rw [raised] at result
    cases result
  · obtain ⟨nonempty, nonneg, short, rfl⟩ := prepare_nil.mp prepared
    rcases ends with ⟨message, last, -, raised⟩ |
      ⟨count, other, last, done, sameId, sameLineage, ended⟩
    · rw [raised] at result
      cases result
    · cases ended.symm.trans result
      have fine : ∀ number < forkAt.toNat,
          ¬ Fails env (replay && engine.hasBus) number := by
        intro number inside
        apply fine_of_done done
        rw [length_map, length_zipIdx, length_take]
        omega
      have loads := loop_loads_iff fresh done (by
        rw [slots_take]
        exact pairwise_take _)
      rw [slots_take] at loads
      rw [sameId, sameLineage]
      exact loads.mpr (recoverable nonempty nonneg short fine)

theorem clean_of_early (fresh : Fresh env engine.journal)
    (early : ∀ kept, prepare reading source (loadStream reading engine.journal source) forkAt
        mutations = .ok kept → env.appendFails 0 = none →
      ∀ number < kept.slots.length, ¬ Fails env (replay && engine.hasBus) number)
    {message : String} (result : engine.fork reading env source forkAt mutations replay =
      (.error message, after)) : ¬ Holds env after.journal := by
  rcases fork_cases reading env engine source forkAt mutations replay with
    ⟨other, -, raised⟩ | ⟨kept, prepared, ends⟩
  · cases raised.symm.trans result
    rintro ⟨written, member, same⟩
    exact fresh.journal written member same
  · rcases ends with ⟨other, last, failed, raised⟩ | ⟨count, record, last, -, -, -, ended⟩
    · cases raised.symm.trans result
      obtain ⟨number, inside, fails⟩ := (loop_raises_iff ..).mp ⟨_, _, failed⟩
      intro holds
      have appended : kept.slots ≠ [] ∧ env.appendFails 0 = none := by
        rw [← holds_loop reading source forkAt replay fresh, failed]
        exact holds
      exact early kept prepared appended.2 number inside fails
    · rw [ended] at result
      cases result

/-- A fork is faithful exactly under these conditions. -/
theorem faithful_iff (fresh : Fresh env engine.journal) :
    Faithful reading env engine source forkAt mutations replay ↔
      FaithfulWhen reading env engine source forkAt mutations replay := by
  constructor
  · rintro ⟨copied, clean, -⟩
    constructor
    · rintro rfl
      exact recoverable_of_copied fresh (copied rfl)
    · intro kept prepared appended
      exact early_of_clean fresh clean prepared appended
  · rintro ⟨recoverable, early⟩
    refine ⟨?_, ?_, diffLawful reading engine⟩
    · rintro rfl record after result
      exact copied_of_recoverable fresh (recoverable rfl) result
    · intro message after result
      exact clean_of_early fresh early result

end

/-! ## A crowded file -/

def plainly : Reading where
  parseTs _ := 0
  repr := dumps
  str := dumps
  normal := .number

def recorded (correlationId : String) : EventJournalEntry where
  id := "evt-0"
  eventType := "tool.result"
  correlationId := correlationId
  timestamp := ""

/-- The file of a day that begins with a run and is as long as the limit. -/
def crowded : List (Nat × EventJournalEntry) :=
  (0, recorded "run") :: List.replicate 4999 (0, recorded "other")

def engine : CounterfactualEngine where
  journal := appendAll .empty crowded
  hasBus := false

/-- A call on this day, during which nothing else happens. -/
def calmly : Surroundings where
  forkId := "fork"
  eventId number := String.ofList (List.replicate number 'x')
  day _ := 0
  appendFails _ := none
  publishFails _ := none
  meanwhile _ := []
  now := 0

theorem mem_crowded {written : Nat × EventJournalEntry} (member : written ∈ crowded) :
    written.1 = 0 ∧ written.2.correlationId ≠ "fork" := by
  rcases mem_cons.mp member with rfl | later
  · decide
  · rw [eq_of_mem_replicate later]
    decide

theorem dated_engine : engine.journal.dated = crowded := by
  have sorted : crowded.Pairwise NotOlder := by
    apply pairwise_of_forall_mem_list
    intro first inFirst second inSecond
    rw [NotOlder, (mem_crowded inFirst).1, (mem_crowded inSecond).1]
  have none : dated (.empty : Journal) = [] := rfl
  rw [engine, dated_appendAll, none, nil_append, sorted.insertionSort_eq]

theorem loadStream_engine : loadStream plainly engine.journal "run" = [recorded "run"] := by
  have others : ((List.replicate 4999 (0, recorded "other")).map Prod.snd).filter
      (fun entry => entry.correlationId = "run") = [] := by
    rw [map_replicate, filter_replicate_of_neg (by decide)]
  rw [loadStream, read_eq _ (by decide), dated_engine, take_of_length_le, crowded,
    map_cons, filter_cons_of_pos (by decide), others]
  · rfl
  · rw [crowded, length_cons, length_replicate]

theorem fresh_calmly : Fresh calmly engine.journal where
  journal written member := by
    rw [dated_engine] at member
    exact (mem_crowded member).2
  others number written member := by
    cases member
  eventIds first second same := by
    simpa [calmly] using congrArg String.length same

/-- A fork of the run that begins the file. -/
theorem faithful_crowded_iff : Faithful plainly calmly engine "run" 1 [] false ↔
      FaithfulWhen plainly calmly engine "run" 1 [] false :=
  faithful_iff fresh_calmly

/-- The fork of the run that begins the file is not read, as it stands behind the file. -/
theorem crowded_not_faithful :
    ¬ ∀ (reading : Reading) (env : Surroundings) (engine : CounterfactualEngine)
      (source : String) (forkAt : Int) (mutations : List JsonValue) (replay : Bool),
      Fresh env engine.journal →
        Faithful reading env engine source forkAt mutations replay := by
  intro faithful
  obtain ⟨copied, -, -⟩ := faithful plainly calmly engine "run" 1 [] false fresh_calmly
  have fine : ∀ number < (1 : Int).toNat, ¬ Fails calmly (false && engine.hasBus) number := by
    rintro number - (failed | ⟨replays, -⟩)
    · exact failed rfl
    · cases replays
  obtain ⟨-, within, -⟩ := recoverable_of_copied fresh_calmly (copied rfl)
    (by simp [loadStream_engine]) (by decide) (by simp [loadStream_engine]) fine
  rw [loadStream_engine, dated_engine] at within
  have few := within (crowded.map fun written => (written.1, false)) 0 [] rfl
  have all : ∀ other ∈ crowded.map fun written => (written.1, false),
      decide (NotOlder other ((0 : Nat), true)) = true := by
    intro other member
    obtain ⟨written, inside, rfl⟩ := mem_map.mp member
    rw [decide_eq_true_iff, NotOlder, (mem_crowded inside).1]
  rw [ahead, countP_eq_length.mpr all, length_map, crowded, length_cons,
    length_replicate, countP_nil] at few
  omega

end AgenticOS.Swarm.Counterfactual
