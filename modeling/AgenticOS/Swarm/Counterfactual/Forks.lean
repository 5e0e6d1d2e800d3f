import AgenticOS.Swarm.Counterfactual.Engine

/-!
# Faithful forks

A fork copies a prefix of a run into the journal, where it is read again like any other run: from
the newest file on, up to the limit, and sorted by the timestamps. So what is loaded is the
prefix only if all copies are among the first entries that are read, and if copies with equal
timestamps come into one file or into older and older ones.

A fork that raises after its first append has left copies behind.
-/

namespace AgenticOS.Swarm.Counterfactual

open JsonValue StableSort DayFiles List EventJournalEntry

def copyOf (env : Surroundings) (lineage : JsonValue) (number : Nat)
    (event : EventJournalEntry) : EventJournalEntry :=
  { event with
    id := env.eventId number
    source := "counterfactual-fork"
    payload := withLineage lineage event
    correlationId := env.forkId }

def copies (env : Surroundings) (lineage : JsonValue) :
    Nat → List EventJournalEntry → List EventJournalEntry
  | _, [] => []
  | number, event :: events =>
    copyOf env lineage number event ::
      copies env lineage (number + 1) events

/-- The ids are new: the journal does not have that of the fork, nor does anybody else write it,
and no two events get the same one. -/
structure Fresh (env : Surroundings) (journal : Journal) : Prop where
  journal : ∀ written ∈ journal.dated, written.2.correlationId ≠ env.forkId
  others : ∀ number, ∀ written ∈ env.meanwhile number, written.2.correlationId ≠ env.forkId
  eventIds : Function.Injective env.eventId

/-- The days of all appends of a call in their order, those of the fork marked. -/
def schedule (env : Surroundings) : Nat → Nat → List (Nat × Bool)
  | number, 0 => (env.meanwhile number).map fun written => (written.1, false)
  | number, count + 1 =>
    (env.meanwhile number).map (fun written => (written.1, false)) ++
      (env.day number, true) :: schedule env (number + 1) count

/-- When the copies of a prefix are loaded as the prefix: every event has a type, fewer than 5000
entries are read before each copy, and copies with equal timestamps are not written into newer
and newer files. -/
structure Recoverable (reading : Reading) (env : Surroundings) (journal : Journal)
    (retained : List EventJournalEntry) : Prop where
  typed : ∀ event ∈ retained, event.eventType ≠ ""
  within : ∀ before day after,
    journal.dated.map (fun written => (written.1, false)) ++
      schedule env 0 retained.length = before ++ (day, true) :: after →
    ahead NotOlder before (day, true) after < 5000
  ordered : retained.zipIdx.Pairwise fun first second =>
    reading.parseTs first.1.timestamp = reading.parseTs second.1.timestamp →
      env.day second.2 ≤ env.day first.2

section

variable (env : Surroundings) (lineage : JsonValue)

/-- The copies as they are written, with their days. -/
def entries : Nat → List EventJournalEntry → List (Nat × EventJournalEntry)
  | _, [] => []
  | number, event :: events =>
    (env.day number, forkEntry env lineage number event) ::
      entries (number + 1) events

/-- All that is appended during a call. -/
def trace : Nat → List EventJournalEntry → List (Nat × EventJournalEntry)
  | number, [] => env.meanwhile number
  | number, event :: events =>
    env.meanwhile number ++
      (env.day number, forkEntry env lineage number event) ::
        trace (number + 1) events

def OfFork (written : Nat × EventJournalEntry) : Bool :=
  written.2.correlationId = env.forkId

variable {env lineage} {journal : Journal}

section

variable (fresh : Fresh env journal) (number : Nat)
include fresh

theorem filter_meanwhile : (env.meanwhile number).filter (OfFork env) = [] := by
  rw [filter_eq_nil_iff]
  intro written member
  simpa [OfFork] using fresh.others number written member

theorem filter_trace (events : List EventJournalEntry) :
    (trace env lineage number events).filter (OfFork env) =
      entries env lineage number events := by
  induction events generalizing number with
  | nil => exact filter_meanwhile fresh number
  | cons event events ih =>
    rw [trace, entries, filter_append, filter_meanwhile fresh, nil_append,
      filter_cons_of_pos (by simp [OfFork, forkEntry]), ih]

theorem map_trace (events : List EventJournalEntry) : (trace env lineage number events).map
        (fun written => (written.1, OfFork env written)) =
      schedule env number events.length := by
  have others : ∀ number, (env.meanwhile number).map
      (fun written => (written.1, OfFork env written)) =
        (env.meanwhile number).map fun written => (written.1, false) := by
    refine fun number => map_congr_left fun written member => ?_
    have other := fresh.others number written member
    simp [OfFork, other]
  induction events generalizing number with
  | nil => exact others number
  | cons event events ih =>
    rw [trace, map_append, others, map_cons, ih]
    simp [schedule, OfFork, forkEntry]

end

variable {events : List EventJournalEntry}

/-- Every event has a type exactly if the copies are written as they should be. -/
theorem map_entries {number : Nat} (typed : ∀ event ∈ events, event.eventType ≠ "") :
    (entries env lineage number events).map Prod.snd =
      copies env lineage number events := by
  induction events generalizing number with
  | nil => rfl
  | cons event events ih =>
    rw [forall_mem_cons] at typed
    rw [entries, copies, map_cons, ih typed.2]
    simp [forkEntry, copyOf, typed.1]

/-- The copies of different events are different. -/
theorem nodup_entries (fresh : Fresh env journal) (number : Nat) (events : List EventJournalEntry) :
    ((entries env lineage number events).map Prod.snd).Nodup ∧
      ∀ entry ∈ (entries env lineage number events).map Prod.snd,
        ∃ later, number ≤ later ∧ entry.id = env.eventId later := by
  induction events generalizing number with
  | nil => exact ⟨nodup_nil, by simp [entries]⟩
  | cons event events ih =>
    obtain ⟨nodup, later⟩ := ih (number + 1)
    rw [entries, map_cons]
    constructor
    · refine nodup_cons.mpr ⟨fun member => ?_, nodup⟩
      obtain ⟨other, after, same⟩ := later _ member
      have equal : number = other := fresh.eventIds same
      omega
    · rw [forall_mem_cons]
      refine ⟨⟨number, le_rfl, rfl⟩, fun entry member => ?_⟩
      obtain ⟨other, after, same⟩ := later entry member
      exact ⟨other, by omega, same⟩

theorem mem_entries {number : Nat} {entry : EventJournalEntry}
    (member : entry ∈ (entries env lineage number events).map Prod.snd) : entry.eventType ≠ "" := by
  induction events generalizing number with
  | nil => simp [entries] at member
  | cons event events ih =>
    rcases mem_cons.mp member with rfl | later
    · unfold forkEntry
      split
      · simp
      · next typed => exact typed
    · exact ih later

theorem typed_of_copies {number : Nat}
    (typed : ∀ entry ∈ copies env lineage number events, entry.eventType ≠ "") :
    ∀ event ∈ events, event.eventType ≠ "" := by
  induction events generalizing number with
  | nil => simp
  | cons event events ih =>
    rw [copies, forall_mem_cons] at typed
    rw [forall_mem_cons]
    exact ⟨typed.1, ih typed.2⟩

theorem length_entries (number : Nat) (events : List EventJournalEntry) :
    (entries env lineage number events).length =
      (copies env lineage number events).length := by
  induction events generalizing number with
  | nil => rfl
  | cons event events ih => rw [entries, copies, length_cons, length_cons, ih]

/-- The copies are in the order of the timestamps if the events are. -/
theorem pairwise_entries {reading : Reading} (number : Nat)
    (sorted : events.Pairwise (NotLater reading)) :
    ((entries env lineage number events).map Prod.snd).Pairwise (NotLater reading) := by
  have stamps : ((entries env lineage number events).map Prod.snd).map
      timestamp = events.map timestamp := by
    clear sorted
    induction events generalizing number with
    | nil => rfl
    | cons event events ih =>
      rw [entries, map_cons, map_cons, ih]
      rfl
  have byStamp : (events.map timestamp).Pairwise fun first second =>
      reading.parseTs first ≤ reading.parseTs second :=
    pairwise_map.mpr sorted
  rw [← stamps, pairwise_map] at byStamp
  exact byStamp

end

/-! ## What is loaded -/

section

variable {reading : Reading} {env : Surroundings} {lineage : JsonValue}
  {journal : Journal} {events : List EventJournalEntry}

instance (reading : Reading) : IsTrans EventJournalEntry (NotLater reading) :=
  ⟨fun _ _ _ first second => le_trans first second⟩

instance (reading : Reading) : Std.Total (NotLater reading) :=
  ⟨fun first second =>
    le_total (reading.parseTs first.timestamp) (reading.parseTs second.timestamp)⟩

/-- All entries of the journal after a call, in the order in which they are read. -/
def readAfter (env : Surroundings) (lineage : JsonValue) (journal : Journal)
    (events : List EventJournalEntry) : List (Nat × EventJournalEntry) :=
  (journal.dated ++ trace env lineage 0 events).insertionSort NotOlder

theorem filter_readAfter (fresh : Fresh env journal) :
    (readAfter env lineage journal events).filter (OfFork env) =
      (entries env lineage 0 events).insertionSort NotOlder := by
  have old : journal.dated.filter (OfFork env) = [] := by
    rw [filter_eq_nil_iff]
    intro written member
    simpa [OfFork] using fresh.journal written member
  rw [readAfter, filter_insertionSort, filter_append, old, nil_append, filter_trace fresh]

theorem loadStream_after : loadStream reading (journal.appendAll (trace env lineage 0 events))
        env.forkId =
      ((((readAfter env lineage journal events).take 5000).filter
        (OfFork env)).map Prod.snd).insertionSort (NotLater reading) := by
  rw [loadStream, read_eq _ (by decide), dated_appendAll, filter_map]
  rfl

/-- The day of an entry, and whether it is a copy. -/
def tag (env : Surroundings) (written : Nat × EventJournalEntry) : Nat × Bool :=
  (written.1, OfFork env written)

theorem ahead_map (env : Surroundings) (before : List (Nat × EventJournalEntry))
    (written : Nat × EventJournalEntry) (after : List (Nat × EventJournalEntry)) :
    ahead NotOlder (before.map (tag env)) (tag env written)
      (after.map (tag env)) = ahead NotOlder before written after := by
  unfold ahead
  rw [countP_map, countP_map]
  rfl

/-- No copy is beyond the limit exactly if fewer entries are read before each. -/
theorem filter_drop_iff (fresh : Fresh env journal) :
    ((readAfter env lineage journal events).drop 5000).filter (OfFork env) = [] ↔
      ∀ before day after, journal.dated.map (fun written => (written.1, false)) ++
          schedule env 0 events.length = before ++ (day, true) :: after →
        ahead NotOlder before (day, true) after < 5000 := by
  have tagged : journal.dated.map (fun written => (written.1, false)) ++
      schedule env 0 events.length =
        (journal.dated ++ trace env lineage 0 events).map (tag env) := by
    have old : journal.dated.map (tag env) =
        journal.dated.map fun written => (written.1, false) := by
      refine map_congr_left fun written member => ?_
      have other := fresh.journal written member
      simp [tag, OfFork, other]
    rw [map_append, old, ← map_trace fresh]
    rfl
  rw [tagged, readAfter, filter_drop_insertionSort_iff]
  constructor
  · intro near before day after split
    obtain ⟨first, second, whole, rfl, rest⟩ := map_eq_append_iff.mp split
    obtain ⟨written, last, rfl, same, rfl⟩ := map_eq_cons_iff.mp rest
    rw [← same, ahead_map]
    exact near first written last whole (congrArg Prod.snd same)
  · intro near before written after split ofFork
    rw [← ahead_map env, tag, ofFork]
    apply near
    rw [split, map_append, map_cons, tag, ofFork]

theorem entries_eq (number : Nat) (events : List EventJournalEntry) :
    entries env lineage number events = (events.zipIdx number).map fun numbered =>
      (env.day numbered.2, forkEntry env lineage numbered.2 numbered.1) := by
  induction events generalizing number with
  | nil => rfl
  | cons event events ih => rw [entries, zipIdx_cons, map_cons, ih]

theorem ordered_iff :
    (entries env lineage 0 events).Pairwise (fun first second =>
        NotLater reading first.2 second.2 ∧ NotLater reading second.2 first.2 →
          NotOlder first second) ↔
      events.zipIdx.Pairwise fun first second =>
        reading.parseTs first.1.timestamp = reading.parseTs second.1.timestamp →
          env.day second.2 ≤ env.day first.2 := by
  rw [entries_eq, pairwise_map]
  refine List.Pairwise.iff fun first second => ?_
  rw [le_antisymm_iff]
  rfl

/-- The copies are loaded as they should be exactly if they are recoverable. -/
theorem loadStream_eq_copies_iff (fresh : Fresh env journal)
    (sorted : events.Pairwise (NotLater reading)) :
    loadStream reading (journal.appendAll (trace env lineage 0 events))
        env.forkId = copies env lineage 0 events ↔
      Recoverable reading env journal events := by
  have pieces := take_append_drop 5000 (readAfter env lineage journal events)
  have whole : (readAfter env lineage journal events).filter _ = _ := filter_readAfter fresh
  rw [← pieces, filter_append] at whole
  rw [loadStream_after]
  constructor
  · intro loaded
    have beyond : ((readAfter env lineage journal events).drop 5000).filter
        (OfFork env) = [] := by
      have read := congrArg List.length loaded
      have written := congrArg List.length whole
      rw [length_insertionSort, length_map, ← length_entries] at read
      rw [length_append, length_insertionSort, read] at written
      exact length_eq_zero_iff.mp (by omega)
    rw [beyond, append_nil] at whole
    rw [whole] at loaded
    have typed : ∀ event ∈ events, event.eventType ≠ "" := by
      apply typed_of_copies
      intro entry member
      rw [← loaded, mem_insertionSort] at member
      obtain ⟨written, inside, rfl⟩ := mem_map.mp member
      rw [mem_insertionSort] at inside
      exact mem_entries (mem_map_of_mem inside)
    rw [← map_entries typed] at loaded
    exact ⟨typed, (filter_drop_iff fresh).mp beyond,
      ordered_iff.mp (ordered_of_insertionSort_map (nodup_entries fresh 0 events).1 loaded)⟩
  · rintro ⟨typed, within, ordered⟩
    rw [(filter_drop_iff fresh).mpr within, append_nil] at whole
    rw [whole, ← map_entries typed]
    exact insertionSort_map_insertionSort (pairwise_entries 0 sorted) (ordered_iff.mpr ordered)

end

section

variable {env : Surroundings} {lineage : JsonValue} {replays : Bool}

def Fails (env : Surroundings) (replays : Bool) (number : Nat) : Prop :=
  env.appendFails number ≠ none ∨ (replays = true ∧ env.publishFails number ≠ none)

def Holds (env : Surroundings) (journal : Journal) : Prop :=
  ∃ written ∈ journal.dated, written.2.correlationId = env.forkId

theorem dated_append (journal : Journal) (written : Nat × EventJournalEntry) :
    (journal.append written).dated = (journal.dated ++ [written]).insertionSort NotOlder :=
  dated_appendAll journal [written]

variable (env lineage replays) in
/-- What one turn of the loop does. -/
theorem writeAll_cons (number : Nat) (event : EventJournalEntry) (events : List EventJournalEntry)
    (engine : CounterfactualEngine) :
    let entry := forkEntry env lineage number event
    let written := (engine.others (env.meanwhile number)).append
      (env.day number) entry
    let outcome := writeAll env lineage replays number (event :: events) engine
    (env.appendFails number ≠ none ∧ (∃ message, outcome.1 = .error message) ∧
      outcome.2 = engine.others (env.meanwhile number)) ∨
    (env.appendFails number = none ∧ Fails env replays number ∧
      (∃ message, outcome.1 = .error message) ∧ outcome.2 = written) ∨
    (¬ Fails env replays number ∧ ∃ next : CounterfactualEngine,
      next.journal = written.journal ∧
      ((∃ count, outcome.1 = .ok count) ↔
        ∃ count, (writeAll env lineage replays (number + 1) events next).1 = .ok count) ∧
      outcome.2 = (writeAll env lineage replays (number + 1) events next).2) := by
  intro entry written outcome
  cases appended : env.appendFails number with
  | some message =>
    left
    refine ⟨by simp, ⟨message, ?_⟩, ?_⟩
    · simp [outcome, writeAll, appended]
    · simp [outcome, writeAll, appended]
  | none =>
    right
    cases replays with
    | false =>
      right
      refine ⟨by simp [Fails, appended], written, rfl, ?_, ?_⟩
      · simp [outcome, writeAll, appended, written, entry]
      · simp [outcome, writeAll, appended, written, entry]
    | true =>
      cases sent : env.publishFails number with
      | some message =>
        left
        refine ⟨rfl, by simp [Fails, sent], ⟨message, ?_⟩, ?_⟩
        · simp [outcome, writeAll, appended, sent]
        · simp [outcome, writeAll, appended, sent, written, entry]
      | none =>
        right
        refine ⟨by simp [Fails, appended, sent], written.publish (envelope entry), rfl,
          ?_, ?_⟩
        · simp only [outcome, writeAll, appended, sent, if_true]
          change (∃ count, (writeAll env lineage true (number + 1) events
            (written.publish (envelope entry))).1.map (· + 1) = .ok count) ↔ _
          cases (writeAll env lineage true (number + 1) events
            (written.publish (envelope entry))).1 with
          | error message => simp [Except.map]
          | ok count => simp [Except.map]
        · simp [outcome, writeAll, appended, sent, written, entry]

/-- The loop comes to its end exactly if nothing fails. -/
theorem writeAll_ok_iff (number : Nat) (events : List EventJournalEntry)
    (engine : CounterfactualEngine) :
    (∃ count, (writeAll env lineage replays number events engine).1 = .ok count) ↔
      ∀ later < events.length, ¬ Fails env replays (number + later) := by
  induction events generalizing number engine with
  | nil => simp [writeAll]
  | cons event events ih =>
    rw [length_cons, Nat.forall_lt_succ_left, Nat.add_zero]
    rcases writeAll_cons env lineage replays number event events engine with
      ⟨failed, ⟨message, raised⟩, -⟩ | ⟨-, failed, ⟨message, raised⟩, -⟩ | ⟨fine, next, -, same, -⟩
    · have fails : Fails env replays number := .inl failed
      simp [raised, fails]
    · simp [raised, failed]
    · rw [same, ih, and_iff_right fine]
      simp only [Nat.add_assoc, Nat.add_comm 1]

/-- Where the loop comes to its end, everything is appended that should be. -/
theorem writeAll_journal {number count : Nat} {events : List EventJournalEntry}
    {engine : CounterfactualEngine}
    (done : (writeAll env lineage replays number events engine).1 = .ok count) :
    (writeAll env lineage replays number events engine).2.journal =
      engine.journal.appendAll (trace env lineage number events) := by
  induction events generalizing number engine count with
  | nil => rfl
  | cons event events ih =>
    rcases writeAll_cons env lineage replays number event events engine with
      ⟨-, ⟨message, raised⟩, -⟩ | ⟨-, -, ⟨message, raised⟩, -⟩ | ⟨-, next, written, same, after⟩
    · rw [raised] at done
      cases done
    · rw [raised] at done
      cases done
    · obtain ⟨others, later⟩ := same.mp ⟨count, done⟩
      rw [after, ih later, written, trace]
      simp [CounterfactualEngine.append, CounterfactualEngine.others, appendAll]

theorem holds_append (journal : Journal) (written : Nat × EventJournalEntry) :
    Holds env (journal.append written) ↔
      Holds env journal ∨ written.2.correlationId = env.forkId := by
  simp [Holds, dated_append, or_and_right, exists_or]

section

variable {journal : Journal} (fresh : Fresh env journal) (number : Nat)
include fresh

theorem holds_others (engine : CounterfactualEngine) :
    Holds env (engine.others (env.meanwhile number)).journal ↔
      Holds env engine.journal := by
  have none : ¬ ∃ written ∈ env.meanwhile number,
      written.2.correlationId = env.forkId := by
    rintro ⟨written, member, same⟩
    exact fresh.others number written member same
  simp only [Holds, CounterfactualEngine.others, dated_appendAll, mem_insertionSort,
    mem_append, or_and_right, exists_or, none, or_false]

/-- Whatever comes of the loop, copies are in the journal as soon as the first append did not
fail. -/
theorem holds_writeAll (events : List EventJournalEntry) (engine : CounterfactualEngine) : Holds env
        (writeAll env lineage replays number events engine).2.journal ↔
      Holds env engine.journal ∨
        (events ≠ [] ∧ env.appendFails number = none) := by
  induction events generalizing number engine with
  | nil => simp [writeAll, holds_others fresh]
  | cons event events ih =>
    have holds : Holds env ((engine.others (env.meanwhile number)).append
        (env.day number)
        (forkEntry env lineage number event)).journal := by
      rw [CounterfactualEngine.append, holds_append]
      exact .inr rfl
    rcases writeAll_cons env lineage replays number event events engine with
      ⟨failed, -, after⟩ | ⟨appended, -, -, after⟩ | ⟨fine, next, written, -, after⟩
    · simp [after, holds_others fresh, failed]
    · simp [after, holds, appended]
    · have appended : env.appendFails number = none := by
        by_contra failed
        exact fine (.inl failed)
      rw [after, ih, written]
      simp [holds, appended]

end

end

end AgenticOS.Swarm.Counterfactual
