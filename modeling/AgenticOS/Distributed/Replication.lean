import AgenticOS.Data.Dict
import AgenticOS.Data.Latest
import AgenticOS.Transition.Run

/-!
# The replication of state

A node numbers the versions of each of its own keys and sends every version to its peers. A
node that receives an entry keeps it if it has none of that key with as high a version. The
versions of different nodes are compared with each other although each node counts by itself.

The count of the deliveries and the peers an entry has reached are left out; what is sent is
what the peers may receive, in any order and any number of times.
-/

namespace AgenticOS.Distributed

open Transition Latest List Dict

inductive ReplicationEntryType where
  | brainRegistry
  | missionState
  | goalState
  | evolutionProposal
  | capabilityGraph
deriving DecidableEq

namespace ReplicationEntryType

def value : ReplicationEntryType → String
  | brainRegistry => "brain_registry"
  | missionState => "mission_state"
  | goalState => "goal_state"
  | evolutionProposal => "evolution_proposal"
  | capabilityGraph => "capability_graph"

def parse (word : String) : ReplicationEntryType :=
  if word = missionState.value then missionState
  else if word = goalState.value then goalState
  else if word = evolutionProposal.value then evolutionProposal
  else if word = capabilityGraph.value then capabilityGraph
  else brainRegistry

end ReplicationEntryType

universe u

/-- `ReplicationEntry`. Its value is a dictionary that nobody looks into. -/
structure ReplicationEntry (ν : Type u) where
  entryType : ReplicationEntryType := .brainRegistry
  sourceNodeId : String := ""
  key : String := ""
  value : ν
  version : Int := 0
  timestamp : String

/-- What is sent of an entry; a field may be missing. -/
structure EntryData (ν : Type u) where
  entryType : Option String := none
  sourceNodeId : Option String := none
  key : Option String := none
  value : Option ν := none
  version : Option Int := none
  timestamp : Option String := none

structure ReplicationStats where
  entriesCreated : Nat := 0
  entriesReceived : Nat := 0

structure Replication (ν : Type u) where
  localNodeId : String := ""
  entries : Dict String (ReplicationEntry ν) := .empty
  received : Dict String (ReplicationEntry ν) := .empty
  stats : ReplicationStats := {}

variable {ν : Type u}

def ReplicationEntry.toDict (entry : ReplicationEntry ν) : EntryData ν where
  entryType := some entry.entryType.value
  sourceNodeId := some entry.sourceNodeId
  key := some entry.key
  value := some entry.value
  version := some entry.version
  timestamp := some entry.timestamp

/-- The entry that is read from what has been received. -/
def EntryData.entry [EmptyCollection ν] (data : EntryData ν) : ReplicationEntry ν where
  entryType := .parse (data.entryType.getD "brain_registry")
  sourceNodeId := data.sourceNodeId.getD ""
  key := data.key.getD ""
  value := data.value.getD ∅
  version := data.version.getD 0
  timestamp := data.timestamp.getD ""

/-- What a caller wants to be replicated. -/
structure Publication (ν : Type u) where
  key : String
  value : ν
  entryType : ReplicationEntryType := .brainRegistry
  timestamp : String

namespace Replication

/-- `replicate`, up to the delivery: the entry is numbered and kept. -/
def replicate (replication : Replication ν) (publication : Publication ν) :
    Replication ν × ReplicationEntry ν :=
  let version :=
    match replication.entries.get? publication.key with
    | none => 0
    | some existing => existing.version + 1
  let entry : ReplicationEntry ν :=
    { entryType := publication.entryType
      sourceNodeId := replication.localNodeId
      key := publication.key
      value := publication.value
      version := version
      timestamp := publication.timestamp }
  ({ replication with
      entries := replication.entries.set publication.key entry
      stats :=
        { replication.stats with entriesCreated := replication.stats.entriesCreated + 1 } },
    entry)

def receiveReplication [EmptyCollection ν] (replication : Replication ν) (data : EntryData ν) :
    Replication ν × Bool :=
  let entry := data.entry
  let accepted :=
    { replication with
      received := replication.received.set entry.key entry
      stats :=
        { replication.stats with entriesReceived := replication.stats.entriesReceived + 1 } }
  match replication.received.get? entry.key with
  | none => (accepted, true)
  | some existing =>
    if entry.version ≤ existing.version then (replication, false) else (accepted, true)

def receiving [EmptyCollection ν] (replication : Replication ν) (sent : List (EntryData ν)) :
    Replication ν :=
  run (fun replication data => (receiveReplication replication data).1) replication sent

/-- The entries that a node originates, one after the other. -/
def originated (replication : Replication ν) : List (Publication ν) → List (ReplicationEntry ν)
  | [] => []
  | publication :: later =>
    (replication.replicate publication).2 ::
      originated (replication.replicate publication).1 later

def holding (replication : Replication ν) (key : String) : Option (ν × String × Int) :=
  (replication.received.get? key).map fun entry =>
    (entry.value, entry.sourceNodeId, entry.version)

end Replication

/-!
## What two replicas agree on

A replica that has received a list of entries holds of each key the first one of the highest
version. So two replicas that receive the same entries agree on the versions. They agree on
the values and sources as far as the entries of the highest version do, which is the case for
every key that only one node originates.
-/

variable {ν : Type u}

namespace Replication

section

variable {entry : ReplicationEntry ν} (origin : Replication ν)
  (publications : List (Publication ν)) (published : entry ∈ origin.originated publications)
include published

theorem version_lt_of_originated {existing : ReplicationEntry ν}
    (earlier : origin.entries.get? entry.key = some existing) :
    existing.version < entry.version := by
  induction publications generalizing origin existing with
  | nil => cases published
  | cons publication publications ih =>
    rcases mem_cons.mp published with rfl | later
    · unfold replicate at earlier ⊢
      rw [earlier]
      exact Int.lt_succ _
    · by_cases same : entry.key = publication.key
      · have stored : (origin.replicate publication).1.entries.get? entry.key =
            some (origin.replicate publication).2 := by
          rw [same]
          exact get?_set_self _ _ _
        have newer := ih (origin.replicate publication).1 later stored
        have next : (origin.replicate publication).2.version = existing.version + 1 := by
          unfold replicate
          rw [← same, earlier]
        omega
      · have kept : (origin.replicate publication).1.entries.get? entry.key = some existing := by
          rw [← earlier]
          exact get?_set_ne _ same _
        exact ih (origin.replicate publication).1 later kept

theorem eq_of_originated {other : ReplicationEntry ν}
    (otherPublished : other ∈ origin.originated publications) (sameKey : entry.key = other.key)
    (sameVersion : entry.version = other.version) : entry = other := by
  induction publications generalizing origin with
  | nil => cases published
  | cons publication publications ih =>
    have newer : ∀ later ∈ originated (origin.replicate publication).1 publications,
        later.key = (origin.replicate publication).2.key →
        (origin.replicate publication).2.version < later.version := by
      intro later isLater sameAsFirst
      apply version_lt_of_originated (origin.replicate publication).1 publications isLater
      rw [sameAsFirst]
      exact get?_set_self _ _ _
    rcases mem_cons.mp published with rfl | later <;>
      rcases mem_cons.mp otherPublished with rfl | otherLater
    · rfl
    · have := newer other otherLater sameKey.symm
      omega
    · have := newer entry later sameKey
      omega
    · exact ih (origin.replicate publication).1 later otherLater

end

section

variable [EmptyCollection ν] {replication : Replication ν} {sent : List (EntryData ν)}

def entriesOf (sent : List (EntryData ν)) (key : String) : List (ReplicationEntry ν) :=
  (sent.map EntryData.entry).filter fun entry => entry.key = key

def observed (entry : ReplicationEntry ν) : ν × String × Int :=
  (entry.value, entry.sourceNodeId, entry.version)

/-- One entry: the later version wins, the earlier arrival among equal ones. -/
theorem get?_receiveReplication (data : EntryData ν) (key : String) :
    (replication.receiveReplication data).1.received.get? key =
      if data.entry.key = key then
        match replication.received.get? key with
        | none => some data.entry
        | some existing =>
          if existing.version < data.entry.version then some data.entry else some existing
      else replication.received.get? key := by
  unfold receiveReplication
  dsimp only
  by_cases same : data.entry.key = key
  · subst same
    rw [if_pos rfl]
    cases present : replication.received.get? data.entry.key with
    | none => exact get?_set_self _ _ _
    | some existing =>
      dsimp only
      by_cases newer : existing.version < data.entry.version
      · rw [if_neg (not_le.mpr newer), if_pos newer]
        exact get?_set_self _ _ _
      · rw [if_pos (not_lt.mp newer), if_neg newer]
        exact present
  · rw [if_neg same]
    have other : key ≠ data.entry.key := fun equal => same equal.symm
    cases replication.received.get? data.entry.key with
    | none => exact get?_set_ne _ other _
    | some existing =>
      dsimp only
      split
      · rfl
      · exact get?_set_ne _ other _

section

variable (fresh : replication.received = .empty) (sent : List (EntryData ν)) (key : String)
include fresh

/-- All entries: a replica holds the latest of each key. -/
theorem get?_receiving : (replication.receiving sent).received.get? key =
      latest ReplicationEntry.version (entriesOf sent key) := by
  induction sent using reverseRecOn with
  | nil =>
    change replication.received.get? key = none
    rw [fresh]
    rfl
  | append_singleton sent data ih =>
    have last : replication.receiving (sent ++ [data]) =
        ((replication.receiving sent).receiveReplication data).1 := by
      unfold receiving
      rw [run_append]
      rfl
    rw [last, get?_receiveReplication, ih]
    unfold entriesOf
    rw [map_append, filter_append, map_singleton]
    by_cases same : data.entry.key = key
    · rw [if_pos same, filter_cons_of_pos (by simpa using same), filter_nil,
        latest_concat]
      cases latest ReplicationEntry.version _ <;> rfl
    · rw [if_neg same, filter_cons_of_neg (by simpa using same), filter_nil,
        append_nil]

theorem holding_receiving : (replication.receiving sent).holding key =
      (latest ReplicationEntry.version (entriesOf sent key)).map observed := by
  unfold holding
  rw [get?_receiving fresh]
  rfl

end

theorem sameMembers_entriesOf {first second : List (EntryData ν)}
    (same : SameMembers first second) (key : String) :
    SameMembers (entriesOf first key) (entriesOf second key) := by
  intro entry
  unfold entriesOf
  simp only [mem_filter, mem_map, same _]

def Settled (sent : List (EntryData ν)) (key : String) : Prop :=
  ∀ entry other, Highest ReplicationEntry.version (entriesOf sent key) entry →
    Highest ReplicationEntry.version (entriesOf sent key) other →
    entry.value = other.value ∧ entry.sourceNodeId = other.sourceNodeId

/-- All entries of the key come from one origin. -/
def OneOrigin (sent : List (EntryData ν)) (key : String) : Prop :=
  ∃ (origin : Replication ν) (publications : List (Publication ν)),
    origin.entries = .empty ∧ ∀ entry ∈ entriesOf sent key, entry ∈ origin.originated publications

theorem OneOrigin.settled {key : String} (oneOrigin : OneOrigin sent key) : Settled sent key := by
  obtain ⟨origin, publications, -, all⟩ := oneOrigin
  intro entry other highest otherHighest
  have keyOf : ∀ member ∈ entriesOf sent key, member.key = key := by
    intro member isMember
    simpa using (mem_filter.mp isMember).2
  have same : entry = other :=
    eq_of_originated origin publications (all entry highest.1) (all other otherHighest.1)
      ((keyOf entry highest.1).trans (keyOf other otherHighest.1).symm)
      (highest.rank_eq otherHighest)
  rw [same]
  exact ⟨rfl, rfl⟩

/-! ## Two replicas -/

theorem Settled.holding_eq {left right : Replication ν} {first second : List (EntryData ν)}
    {key : String} (settled : Settled first key) (leftFresh : left.received = .empty)
    (rightFresh : right.received = .empty) (same : SameMembers first second) :
    (left.receiving first).holding key = (right.receiving second).holding key := by
  rw [holding_receiving leftFresh, holding_receiving rightFresh]
  apply map_latest_eq observed (sameMembers_entriesOf same key)
  intro entry other highest otherHighest
  have alike := settled entry other highest otherHighest
  have sameVersion := highest.rank_eq otherHighest
  unfold observed
  rw [alike.1, alike.2, sameVersion]

/-- Two replicas that receive the same entries, each in its own order and with repetitions,
agree on the version of every key, and on the value and the source of every key that is
settled, as every key with one origin is. -/
theorem replicas_agree {left right : Replication ν} (leftFresh : left.received = .empty)
    (rightFresh : right.received = .empty) {first second : List (EntryData ν)}
    (same : SameMembers first second) (key : String) :
    ((left.receiving first).received.get? key).map ReplicationEntry.version =
        ((right.receiving second).received.get? key).map ReplicationEntry.version ∧
      (Settled first key →
        (left.receiving first).holding key = (right.receiving second).holding key) ∧
      (OneOrigin first key → Settled first key) := by
  refine ⟨?_, fun settled => settled.holding_eq leftFresh rightFresh same, OneOrigin.settled⟩
  rw [get?_receiving leftFresh, get?_receiving rightFresh]
  exact map_rank_latest_eq (sameMembers_entriesOf same key)

end

def firstSent (node value : String) : EntryData (List (String × String)) :=
  (replicate { localNodeId := node }
    { key := "brains"
      value := [("owner", value)]
      timestamp := "2026-01-01T00:00:00+00:00" }).2.toDict

/-- The replicas keep what comes first. -/
theorem replicas_differ :
    (receiving {} [firstSent "a" "one", firstSent "b" "two"]).holding "brains" =
        some ([("owner", "one")], "a", 0) ∧
      (receiving {} [firstSent "b" "two", firstSent "a" "one"]).holding "brains" =
        some ([("owner", "two")], "b", 0) := by
  decide +kernel

/-- Two versions of one node, in two orders and with a repetition. -/
theorem replicas_agree_on_versions :
    let older := firstSent "a" "one"
    let newer : EntryData (List (String × String)) := { older with version := some 1 }
    ((receiving {} [older, newer]).received.get? "brains").map ReplicationEntry.version =
        ((receiving {} [newer, older, newer]).received.get? "brains").map ReplicationEntry.version ∧
      (Settled [older, newer] "brains" →
        (receiving {} [older, newer]).holding "brains" =
          (receiving {} [newer, older, newer]).holding "brains") ∧
      (OneOrigin [older, newer] "brains" → Settled [older, newer] "brains") := by
  intro older newer
  apply replicas_agree rfl rfl
  intro data
  simp
  tauto

end Replication

end AgenticOS.Distributed
