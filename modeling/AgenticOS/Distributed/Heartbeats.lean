import AgenticOS.Data.Clock
import AgenticOS.Distributed.LeaderElection
import Mathlib.Data.List.TakeWhile

/-!
# Heartbeats

A node keeps the last heartbeat of each peer, and refuses one whose number is not greater. A check
marks the peers as dead whose last heartbeat is too old. It subtracts the times outside of its
`try`: a time without a zone raises there, and whoever comes behind it is not checked.
-/

namespace AgenticOS.Distributed

open List Transition LeaderElection Dict

/-- What `datetime.fromisoformat` makes of a text. -/
inductive ReadTime where
  | invalid
  | naive
  | aware (time : Timestamp)
deriving DecidableEq

structure HeartbeatPacket where
  nodeId : String
  timestamp : String
  sequence : Int := 0

/-- `HeartbeatStatus`, with what an election does not read. -/
structure TrackedStatus extends HeartbeatStatus where
  lastHeartbeat : String := ""
  lastSequence : Int := 0

structure HeartbeatManager where
  intervalS : ℚ := 15
  missedThreshold : Int := 3
  statuses : Dict String TrackedStatus := .empty

variable (read : String → ReadTime) (now : Timestamp)

namespace TrackedStatus

variable (status : TrackedStatus) (limit : ℚ)

/-- The time of the last heartbeat; an empty text is passed over like one that cannot be read. -/
def time : ReadTime :=
  if status.lastHeartbeat = "" then .invalid else read status.lastHeartbeat

/-- The last heartbeat is at most so old, unless it has no time. -/
def Recent : Prop :=
  ∀ last, status.time read = .aware last → now - last ≤ limit

/-- The body of the loop over the statuses. -/
def checked : TrackedStatus :=
  match status.time read with
  | .aware last =>
    if limit < now - last ∧ status.isAlive then
      { status with isAlive := false, consecutiveFailures := status.consecutiveFailures + 1 }
    else status
  | _ => status

end TrackedStatus

namespace HeartbeatManager

variable (manager : HeartbeatManager)

def limit : ℚ :=
  manager.intervalS * manager.missedThreshold

/-- What an election is given. -/
def listStatuses : List HeartbeatStatus :=
  manager.statuses.values.map TrackedStatus.toHeartbeatStatus

def receiveHeartbeat (packet : HeartbeatPacket) : HeartbeatManager × Bool :=
  let status := (manager.statuses.get? packet.nodeId).getD { nodeId := packet.nodeId }
  if packet.sequence ≤ status.lastSequence ∧ 0 < status.lastSequence then (manager, false)
  else
    ({ manager with
        statuses := manager.statuses.set packet.nodeId
          { status with
            lastHeartbeat := packet.timestamp
            lastSequence := packet.sequence
            isAlive := true
            consecutiveFailures := 0 } },
      true)

/-- An entry at which the loop goes on. -/
def passes (entry : String × TrackedStatus) : Bool :=
  entry.2.time read ≠ .naive

/-- The loop over the statuses, up to the first one that raises. -/
def checkAll (limit : ℚ) (entries : List (String × TrackedStatus)) :
    List (String × TrackedStatus) :=
  (entries.takeWhile (passes read)).map (fun entry => (entry.1, entry.2.checked read now limit)) ++
    entries.dropWhile (passes read)

theorem map_checkAll {β : Type} {project : String × TrackedStatus → β} {limit : ℚ}
    (same : ∀ node status, project (node, status.checked read now limit) = project (node, status))
    (entries : List (String × TrackedStatus)) :
    (checkAll read now limit entries).map project = entries.map project := by
  rw [checkAll, map_append, map_map, map_congr_left fun entry _ => same entry.1 entry.2,
    ← map_append, takeWhile_append_dropWhile]

/-- `_check_stale_nodes`. -/
def checkStaleNodes : HeartbeatManager :=
  { manager with
    statuses := ⟨checkAll read now manager.limit manager.statuses.entries, by
      rw [map_checkAll read now fun _ _ => rfl]
      exact manager.statuses.nodupKeys⟩ }

end HeartbeatManager

inductive HeartbeatCall where
  | receive (packet : HeartbeatPacket)
  | check (now : Timestamp)

namespace HeartbeatManager

def step (manager : HeartbeatManager) : HeartbeatCall → HeartbeatManager
  | .receive packet => (manager.receiveHeartbeat packet).1
  | .check now => manager.checkStaleNodes read now

def accepted (manager : HeartbeatManager) : List HeartbeatCall → List HeartbeatPacket
  | [] => []
  | .receive packet :: calls =>
    (if (manager.receiveHeartbeat packet).2 then [packet] else []) ++
      accepted (manager.receiveHeartbeat packet).1 calls
  | .check now :: calls => accepted (manager.checkStaleNodes read now) calls

def checkTimes (calls : List HeartbeatCall) : List Timestamp :=
  calls.filterMap fun
    | .receive _ => none
    | .check now => some now

end HeartbeatManager

variable {read now} {manager : HeartbeatManager}

namespace TrackedStatus

variable {status : TrackedStatus} {limit : ℚ}

theorem checked_eq (read : String → ReadTime) (now : Timestamp) (limit : ℚ)
    (status : TrackedStatus) : ∃ alive failures, status.checked read now limit =
      { status with isAlive := alive, consecutiveFailures := failures } := by
  unfold checked
  split
  · split
    · exact ⟨_, _, rfl⟩
    · exact ⟨_, _, rfl⟩
  · exact ⟨_, _, rfl⟩

theorem time_checked : (status.checked read now limit).time read = status.time read := by
  obtain ⟨_, _, same⟩ := status.checked_eq read now limit
  rw [same]
  rfl

theorem isAlive_checked : (status.checked read now limit).isAlive = true ↔
    status.isAlive = true ∧ status.Recent read now limit := by
  unfold checked Recent
  split
  next last aware =>
    simp only [aware, ReadTime.aware.injEq, forall_eq']
    split
    next overdue => simp [not_le.mpr overdue.1]
    next inside =>
      rw [not_and] at inside
      exact ⟨fun alive => ⟨alive, not_lt.mp fun overdue => inside overdue alive⟩, And.left⟩
  next unread =>
    exact ⟨fun alive => ⟨alive, fun last aware => (unread last aware).elim⟩, And.left⟩

theorem recent_checked :
    (status.checked read now limit).Recent read now limit ↔ status.Recent read now limit := by
  rw [Recent, Recent, time_checked]

theorem not_recent_later {later : Timestamp} (after : now ≤ later)
    (old : ¬ status.Recent read now limit) : ¬ status.Recent read later limit := by
  intro recent
  exact old fun last aware => (sub_le_sub_right after last).trans (recent last aware)

end TrackedStatus

namespace HeartbeatManager

/-- Whoever is taken for dead was not heard of in time. -/
def Accurate (read : String → ReadTime) (now : Timestamp) (manager : HeartbeatManager) : Prop :=
  ∀ entry ∈ manager.statuses.entries, entry.2.isAlive = false →
    ¬ entry.2.Recent read now manager.limit

theorem mem_checkAll {limit : ℚ} {entries : List (String × TrackedStatus)}
    {entry : String × TrackedStatus} (member : entry ∈ checkAll read now limit entries) :
    (∃ old ∈ entries.takeWhile (passes read),
      entry = (old.1, old.2.checked read now limit)) ∨ entry ∈ entries.dropWhile (passes read) := by
  rcases mem_append.mp member with reached | behind
  · obtain ⟨old, early, rfl⟩ := mem_map.mp reached
    exact .inl ⟨old, early, rfl⟩
  · exact .inr behind

theorem mem_receiveHeartbeat {packet : HeartbeatPacket} {entry : String × TrackedStatus}
    (member : entry ∈ (manager.receiveHeartbeat packet).1.statuses.entries) :
    entry ∈ manager.statuses.entries ∨ entry.1 = packet.nodeId ∧ entry.2.isAlive = true ∧
      entry.2.lastHeartbeat = packet.timestamp ∧
      entry.2.nodeId = ((manager.statuses.get? packet.nodeId).getD
        { nodeId := packet.nodeId }).nodeId := by
  rcases entry with ⟨node, status⟩
  unfold receiveHeartbeat at member
  dsimp only at member
  split at member
  next => exact .inl member
  next =>
    have found := get?_eq_some_iff.mpr member
    rw [get?_set] at found
    split at found
    next here =>
      cases found
      exact .inr ⟨here, rfl, rfl, rfl⟩
    next => exact .inl (get?_eq_some_iff.mp found)

theorem limit_step (call : HeartbeatCall) : (step read manager call).limit = manager.limit := by
  cases call with
  | check now => rfl
  | receive packet =>
    rw [step, receiveHeartbeat]
    split
    · rfl
    · rfl

theorem Accurate.receive (accurate : manager.Accurate read now) (packet : HeartbeatPacket) :
    (manager.receiveHeartbeat packet).1.Accurate read now := by
  intro entry member dead
  have same : (manager.receiveHeartbeat packet).1.limit = manager.limit :=
    @limit_step read manager (.receive packet)
  rw [same]
  rcases mem_receiveHeartbeat member with old | ⟨-, alive, -⟩
  · exact accurate entry old dead
  · rw [alive] at dead
    cases dead

theorem Accurate.alive_iff_recent (accurate : manager.Accurate read now)
    {entry : String × TrackedStatus}
    (reached : entry ∈ manager.statuses.entries.takeWhile (passes read)) :
    (entry.2.checked read now manager.limit).isAlive = true ↔
      (entry.2.checked read now manager.limit).Recent read now manager.limit := by
  rw [TrackedStatus.isAlive_checked, TrackedStatus.recent_checked]
  refine and_iff_right_of_imp fun recent => ?_
  by_contra dead
  exact accurate entry (takeWhile_subset _ reached) (eq_false_of_ne_true dead) recent

theorem Accurate.check (accurate : manager.Accurate read now) :
    (manager.checkStaleNodes read now).Accurate read now := by
  intro entry member dead
  rcases mem_checkAll member with ⟨old, early, rfl⟩ | behind
  · intro recent
    exact Bool.false_ne_true (dead.symm.trans ((accurate.alive_iff_recent early).mpr recent))
  · exact accurate entry (dropWhile_subset _ behind) dead

/-- Until the last call, the clock goes on. -/
def Chronological (calls : List HeartbeatCall) (now : Timestamp) : Prop :=
  (checkTimes calls ++ [now]).Pairwise (· ≤ ·)

theorem accurate_run {start : HeartbeatManager} (fresh : start.statuses = .empty)
    {calls : List HeartbeatCall} (chronological : Chronological calls now) :
    (run (step read) start calls).Accurate read now := by
  induction calls using List.reverseRecOn generalizing now with
  | nil =>
    intro entry member
    rw [run_nil, fresh] at member
    cases member
  | append_singleton calls call ih =>
    rw [run_append, run_cons, run_nil]
    cases call with
    | receive packet =>
      exact (ih (by simpa [Chronological, checkTimes] using chronological)).receive packet
    | check earlier =>
      rw [Chronological, checkTimes, filterMap_append, pairwise_append] at chronological
      obtain ⟨before, -, later⟩ := chronological
      intro entry member dead
      exact TrackedStatus.not_recent_later (later earlier (by simp) now mem_cons_self)
        ((ih before).check entry member dead)

theorem limit_run (start : HeartbeatManager) (calls : List HeartbeatCall) :
    (run (step read) start calls).limit = start.limit :=
  run_invariant (fun manager : HeartbeatManager => manager.limit = start.limit)
    (fun _ call same => (limit_step call).trans same) rfl calls

/-- Nobody is taken for dead who was heard of in time. Whoever was not is found by the next check,
unless it comes behind a heartbeat whose time has no zone. -/
theorem detects_iff (read : String → ReadTime) {start : HeartbeatManager}
    (fresh : start.statuses = .empty) {calls : List HeartbeatCall} {now : Timestamp}
    (chronological : Chronological calls now) :
    let before := run (step read) start calls
    let after := before.checkStaleNodes read now
    (∀ entry ∈ after.statuses.entries, entry.2.isAlive = false →
      ¬ entry.2.Recent read now start.limit) ∧
    ((∀ entry ∈ after.statuses.entries,
        entry.2.isAlive = true ↔ entry.2.Recent read now start.limit) ↔
      ∀ entry ∈ before.statuses.entries.dropWhile (passes read), entry.2.isAlive = true →
        entry.2.Recent read now start.limit) := by
  intro before after
  have accurate : before.Accurate read now := accurate_run fresh chronological
  have same : start.limit = before.limit := (limit_run start calls).symm
  rw [same]
  refine ⟨accurate.check, fun exact entry behind alive => ?_, fun inTime entry member => ?_⟩
  · exact (exact entry (mem_append_right _ behind)).mp alive
  · rcases mem_checkAll member with ⟨old, early, rfl⟩ | behind
    · exact accurate.alive_iff_recent early
    · refine ⟨inTime entry behind, fun recent => ?_⟩
      by_contra dead
      exact accurate entry (dropWhile_subset _ behind) (eq_false_of_ne_true dead) recent

def readEpoch (text : String) : ReadTime :=
  if text = "1970-01-01T00:00:00+00:00" then .aware 0 else .invalid

def firstHeartbeat : HeartbeatPacket :=
  { nodeId := "node-2", timestamp := "1970-01-01T00:00:00+00:00", sequence := 1 }

/-- A node that was heard of a minute ago, and checked in between. -/
theorem detects_iff_minute :
    let before := run (step readEpoch) {} [.receive firstHeartbeat, .check 10]
    ∀ entry ∈ (before.checkStaleNodes readEpoch 60).statuses.entries,
      entry.2.isAlive = true ↔ entry.2.Recent readEpoch 60 (limit {}) := by
  have chronological : Chronological [.receive firstHeartbeat, .check 10] 60 := by
    unfold Chronological
    decide +kernel
  have readable : (run (step readEpoch) {}
      [.receive firstHeartbeat, .check 10]).statuses.entries.all (passes readEpoch) = true := by
    decide +kernel
  apply (@detects_iff readEpoch {} rfl _ 60 chronological).2.mpr
  rw [dropWhile_eq_nil_iff.mpr (all_eq_true.mp readable)]
  nofun

/-! ## The numbers of heartbeats -/

def lastSequence (manager : HeartbeatManager) (node : String) : Int :=
  ((manager.statuses.get? node).map TrackedStatus.lastSequence).getD 0

theorem lastSequence_receive (packet : HeartbeatPacket) (node : String) :
    (manager.receiveHeartbeat packet).1.lastSequence node =
        (if (manager.receiveHeartbeat packet).2 ∧ node = packet.nodeId then packet.sequence
        else manager.lastSequence node) ∧
      ((manager.receiveHeartbeat packet).2 = true ↔ (0 < manager.lastSequence packet.nodeId →
        manager.lastSequence packet.nodeId < packet.sequence)) := by
  have last : ((manager.statuses.get? packet.nodeId).getD
      { nodeId := packet.nodeId }).lastSequence = manager.lastSequence packet.nodeId := by
    rw [lastSequence]
    cases manager.statuses.get? packet.nodeId <;> rfl
  rw [receiveHeartbeat, last]
  split
  next refused => simpa using ⟨refused.2, refused.1⟩
  next taken =>
    refine ⟨?_, by simpa [and_comm, imp_iff_not_or, or_comm] using taken⟩
    rw [lastSequence, get?_set]
    by_cases here : node = packet.nodeId
    · simp [here]
    · simp [here, lastSequence]

theorem lastSequence_check (node : String) :
    (manager.checkStaleNodes read now).lastSequence node = manager.lastSequence node := by
  rw [lastSequence, lastSequence, Dict.get?, Dict.get?,
    ← find_map TrackedStatus.lastSequence, ← find_map TrackedStatus.lastSequence]
  refine congrArg (fun entries => (Dict.find node entries).getD 0) (map_checkAll read now ?_ _)
  intro node status
  obtain ⟨_, _, same⟩ := status.checked_eq read now manager.limit
  rw [same]

theorem accepted_cons (call : HeartbeatCall) (calls : List HeartbeatCall) :
    (accepted read manager (call :: calls) = accepted read (step read manager call) calls ∧
      (step read manager call).lastSequence = manager.lastSequence) ∨
    ∃ packet, accepted read manager (call :: calls) =
        packet :: accepted read (step read manager call) calls ∧
      (0 < manager.lastSequence packet.nodeId →
        manager.lastSequence packet.nodeId < packet.sequence) ∧
      ∀ node, (step read manager call).lastSequence node =
        if node = packet.nodeId then packet.sequence else manager.lastSequence node := by
  cases call with
  | check now => exact .inl ⟨rfl, funext lastSequence_check⟩
  | receive packet =>
    have received := @lastSequence_receive manager packet
    rw [accepted, step]
    by_cases taken : (manager.receiveHeartbeat packet).2 = true
    · refine .inr ⟨packet, by simp [taken], (received "").2.mp taken, fun node => ?_⟩
      rw [(received node).1]
      simp [taken]
    · exact .inl ⟨by simp [taken], funext fun node => by simp [(received node).1, taken]⟩

/-- Of each node, heartbeats are accepted in the order of their numbers, and none twice: a node that
counts from the beginning again is not heard before it comes to where it was. -/
theorem accepted_increasing (read : String → ReadTime) (manager : HeartbeatManager)
    (calls : List HeartbeatCall) :
    (accepted read manager calls).Pairwise (fun first second =>
      first.nodeId = second.nodeId → 0 < first.sequence → first.sequence < second.sequence) ∧
    ∀ packet ∈ accepted read manager calls, 0 < manager.lastSequence packet.nodeId →
      manager.lastSequence packet.nodeId < packet.sequence := by
  induction calls generalizing manager with
  | nil => exact ⟨.nil, fun _ member => by cases member⟩
  | cons call calls ih =>
    obtain ⟨ordered, greater⟩ := ih (step read manager call)
    rcases @accepted_cons read manager call calls with ⟨same, last⟩ | ⟨packet, same, new, last⟩
    · rw [same, ← last]
      exact ⟨ordered, greater⟩
    · rw [same, pairwise_cons]
      grind

/-! ## Elections by heartbeats -/

def eligibleIds (election : LeaderElection) (ballot : Ballot) : List String :=
  (election.eligibleNodes ballot).map ElectionCandidate.nodeId

/-- What is known of a node is kept under its id, and the time of it has a zone. -/
def Regular (read : String → ReadTime) (manager : HeartbeatManager) : Prop :=
  ∀ entry ∈ manager.statuses.entries, entry.2.nodeId = entry.1 ∧ entry.2.time read ≠ .naive

theorem Regular.receive (regular : manager.Regular read) {packet : HeartbeatPacket}
    (zoned : read packet.timestamp ≠ .naive) :
    (manager.receiveHeartbeat packet).1.Regular read := by
  intro entry member
  rcases mem_receiveHeartbeat member with old | ⟨key, -, timestamp, nodeId⟩
  · exact regular entry old
  · constructor
    · rw [nodeId, key]
      cases found : manager.statuses.get? packet.nodeId with
      | none => rfl
      | some status => exact (regular (packet.nodeId, status) (get?_eq_some_iff.mp found)).1
    · rw [TrackedStatus.time, timestamp]
      split
      · exact fun invalid => by cases invalid
      · exact zoned

theorem Regular.check (regular : manager.Regular read) :
    (manager.checkStaleNodes read now).Regular read := by
  intro entry member
  rcases mem_checkAll member with ⟨old, early, rfl⟩ | behind
  · obtain ⟨_, _, same⟩ := old.2.checked_eq read now manager.limit
    rw [same]
    exact regular old (takeWhile_subset _ early)
  · exact regular entry (dropWhile_subset _ behind)

theorem Regular.alive_iff_recent (regular : manager.Regular read)
    (accurate : manager.Accurate read now) {entry : String × TrackedStatus}
    (member : entry ∈ (manager.checkStaleNodes read now).statuses.entries) :
    entry.2.isAlive = true ↔ entry.2.Recent read now manager.limit := by
  rcases mem_checkAll member with ⟨old, early, rfl⟩ | behind
  · exact accurate.alive_iff_recent early
  · have all : manager.statuses.entries.dropWhile (passes read) = [] :=
      dropWhile_eq_nil_iff.mpr fun entry member => decide_eq_true (regular entry member).2
    rw [all] at behind
    cases behind

/-- The nodes that are taken for alive. -/
def aliveIds (manager : HeartbeatManager) : List String :=
  (manager.statuses.entries.filter fun entry => entry.2.isAlive).map Prod.fst

theorem Regular.eligibleIds_eq (regular : manager.Regular read) (election : LeaderElection) :
    eligibleIds election { heartbeats := some manager.listStatuses } = manager.aliveIds ++
      if election.localNodeId ∈ manager.aliveIds then [] else [election.localNodeId] := by
  have ids : ((manager.listStatuses.filter HeartbeatStatus.isAlive).map fun status =>
      ({ nodeId := status.nodeId
         healthScore := 100 - status.consecutiveFailures * 20 } : ElectionCandidate)).map
        ElectionCandidate.nodeId = manager.aliveIds := by
    rw [listStatuses, Dict.values, filter_map, filter_map, map_map, map_map, map_map]
    exact map_congr_left fun entry member => (regular entry (mem_of_mem_filter member)).1
  rw [eligibleIds, eligibleNodes, if_neg (not_not.mpr rfl), ← ids]
  dsimp only
  split
  next itself => rw [if_pos (mem_map.mpr itself), append_nil]
  next others =>
    rw [if_neg fun member => others (mem_map.mp member), map_append]
    rfl

/-- Without votes there is a quorum exactly if one node is eligible, which is then elected. -/
theorem quorumMet_iff {election : LeaderElection} {ballot : Ballot} (none : ballot.votes = []) :
    ((election.electionResult ballot).quorumMet = true ↔
        (eligibleIds election ballot).length = 1) ∧
      ∀ id, eligibleIds election ballot = [id] →
        (election.electionResult ballot).winnerId = id := by
  have listed := perm_insertionSort LeaderElection.Precedes (election.eligibleNodes ballot)
  unfold eligibleIds electionResult counted
  dsimp only
  rw [if_neg (not_not.mpr none), length_map, ← listed.length_eq]
  cases sorted : (election.eligibleNodes ballot).insertionSort LeaderElection.Precedes with
  | nil =>
    rw [sorted] at listed
    simp [listed.symm.eq_nil]
  | cons winner rest =>
    refine ⟨?_, fun id one => ?_⟩
    · dsimp only
      rw [decide_eq_true_iff, length_cons]
      omega
    · obtain ⟨only, alone, rfl⟩ := map_eq_singleton_iff.mp one
      rw [alone, insertionSort_cons] at sorted
      exact congrArg ElectionCandidate.nodeId (cons.inj sorted).1.symm

theorem alone_iff {ids : List String} (nodup : ids.Nodup) (self : String) :
    ((ids ++ if self ∈ ids then [] else [self]).length = 1 ↔ ∀ name ∈ ids, name = self) ∧
      ((∀ name ∈ ids, name = self) → (ids ++ if self ∈ ids then [] else [self]) = [self]) := by
  by_cases here : self ∈ ids
  · rw [if_pos here, append_nil]
    have lone (all : ∀ name ∈ ids, name = self) : ids = [self] := by
      have same := eq_replicate_of_mem all
      rw [same, nodup_replicate] at nodup
      rw [same, le_antisymm nodup (length_pos_of_mem here)]
      rfl
    refine ⟨⟨fun one name member => ?_, fun all => by rw [lone all]; rfl⟩, lone⟩
    obtain ⟨only, rfl⟩ := length_eq_one_iff.mp one
    exact (mem_singleton.mp member).trans (mem_singleton.mp here).symm
  · rw [if_neg here]
    have none (all : ∀ name ∈ ids, name = self) : ids = [] :=
      eq_nil_iff_forall_not_mem.mpr fun name member => here (all name member ▸ member)
    refine ⟨⟨fun one => ?_, fun all => by rw [none all]; rfl⟩, fun all => by rw [none all]; rfl⟩
    rw [length_append, length_singleton, Nat.succ_inj, length_eq_zero_iff] at one
    simp [one]

/-- After a check, an election by the heartbeats has its quorum exactly if no other node was heard
of in time, and then the node elects itself. -/
theorem heartbeats_elect_iff (read : String → ReadTime) {start : HeartbeatManager}
    (fresh : start.statuses = .empty) {calls : List HeartbeatCall}
    (zoned : ∀ packet, .receive packet ∈ calls → read packet.timestamp ≠ .naive)
    {now : Timestamp} (chronological : Chronological calls now) (election : LeaderElection) :
    let after := (run (step read) start calls).checkStaleNodes read now
    let result := (election.runElection { heartbeats := some after.listStatuses }).2
    (result.quorumMet = true ↔ ∀ entry ∈ after.statuses.entries,
      entry.2.Recent read now start.limit → entry.1 = election.localNodeId) ∧
    (result.quorumMet = true → result.winnerId = election.localNodeId) := by
  intro after result
  have guarded : Along (step read) (fun _ call => ∀ packet, call = .receive packet →
      read packet.timestamp ≠ .naive) start calls :=
    .of_forall_mem (fun call member _ packet same => zoned packet
      (by rwa [← same])) _
  have regular : (run (step read) start calls).Regular read := by
    refine guarded.invariant (fun manager call regular given => ?_) ?_
    · cases call with
      | receive packet => exact regular.receive (given packet rfl)
      | check now => exact regular.check
    · intro entry member
      rw [fresh] at member
      cases member
  have recent_iff (name : String) : name ∈ after.aliveIds ↔ ∃ entry ∈ after.statuses.entries,
      entry.2.Recent read now start.limit ∧ entry.1 = name := by
    rw [aliveIds, mem_map, ← limit_run start calls]
    refine exists_congr fun entry => ?_
    rw [mem_filter, and_assoc]
    exact and_congr_right fun member => and_congr_left fun _ =>
      regular.alive_iff_recent (accurate_run fresh chronological) member
  have nodup : after.aliveIds.Nodup := after.statuses.nodupKeys.sublist (filter_sublist.map _)
  have others : (∀ entry ∈ after.statuses.entries, entry.2.Recent read now start.limit →
      entry.1 = election.localNodeId) ↔ ∀ name ∈ after.aliveIds, name = election.localNodeId := by
    simp only [recent_iff]
    exact ⟨fun all _ ⟨entry, member, recent, same⟩ => same ▸ all entry member recent,
      fun all entry member recent => all _ ⟨entry, member, recent, rfl⟩⟩
  have ids := (@Regular.check read now _ regular).eligibleIds_eq election
  obtain ⟨met, elected⟩ := @quorumMet_iff election
    { heartbeats := some after.listStatuses } rfl
  rw [show result = election.electionResult _ from runElection_result, others, met, ids]
  obtain ⟨alone, lone⟩ := alone_iff nodup election.localNodeId
  exact ⟨alone, fun one => elected _ (ids.trans (lone (alone.mp one)))⟩

/-- Nobody else was heard of in the last minute. -/
theorem heartbeats_elect_iff_minute :
    let after := (run (step readEpoch) {} [.receive firstHeartbeat]).checkStaleNodes readEpoch 60
    let election : LeaderElection := { localNodeId := "node-1" }
    let result := (election.runElection { heartbeats := some after.listStatuses }).2
    result.quorumMet = true → result.winnerId = "node-1" :=
  (@heartbeats_elect_iff readEpoch {} rfl [.receive firstHeartbeat]
    (fun packet _ => by unfold readEpoch; split <;> decide) 60 (pairwise_singleton _ _) _).2

end HeartbeatManager

end AgenticOS.Distributed
