import AgenticOS.Cluster.DistributedRegistry
import AgenticOS.Cluster.Topology
import AgenticOS.Data.StableSort

/-!
# Failover

What fails is replaced by what the scheduler of missions selects from the whole cluster. Numbers
are rational. Left out are the rationale of a score, the evidence of an action, the events, the
statistics and the lists of decisions and actions, none of which is read.
-/

namespace AgenticOS.Cluster

open StableSort List Option

/-- A brain of the local node. -/
structure BrainRecord where
  id : String
  displayName : String := ""
  vendor : String := ""
  capabilities : List String := []
  health : ℚ := 100
  latency : ℚ := 0

/-- What the scheduler reads of the federation. -/
structure FederationView where
  localNodeId : String
  topology : ClusterTopology

/-- What the collaboration network knows of a runtime. -/
structure RuntimeStats where
  total : Nat
  successRate : ℚ
  averageTrust : ℚ

structure Candidate where
  nodeId : String
  brainId : String
  brainName : String
  health : ℚ
  latency : ℚ
  availability : ℚ
  cpuUsage : ℚ
  memoryUsage : ℚ
  capabilities : List String
  provider : String

structure ClusterScore where
  nodeId : String
  brainId : String
  brainName : String
  healthScore : ℚ
  latencyScore : ℚ
  availabilityScore : ℚ
  historicalSuccess : ℚ
  clusterLoadScore : ℚ
  memoryScore : ℚ
  providerScore : ℚ
  confidenceScore : ℚ
  capabilityMatch : ℚ
  totalScore : ℚ

/-- The order of the scores: the highest total first, then by node and by brain. -/
def ClusterScore.Before : ClusterScore → ClusterScore → Prop :=
  ByKeys totalScore fun score => toLex (score.nodeId, score.brainId)

instance : DecidableRel ClusterScore.Before :=
  fun _ _ => inferInstanceAs (Decidable (_ ∨ _ ∧ _))

structure GlobalMissionScheduler where
  localRegistry : Option (List BrainRecord) := none
  distributedRegistry : Option DistributedBrainRegistry := none
  federation : Option FederationView := none
  /-- `runtime_stats`, where there is a collaboration network. -/
  runtimeStats : String → Option RuntimeStats := fun _ => none

namespace GlobalMissionScheduler

variable (scheduler : GlobalMissionScheduler) (required : List String)

def getNode (nodeId : String) : Option NodeInfo :=
  scheduler.federation.bind fun federation => federation.topology.getNode nodeId

def matching (capabilities : List String) : Bool :=
  required.isEmpty || required.any fun capability => capability ∈ capabilities

def localCandidates : List Candidate :=
  match scheduler.localRegistry, scheduler.federation with
  | some brains, some federation =>
    (brains.filter fun brain => matching required brain.capabilities).map fun brain =>
      { nodeId := federation.localNodeId
        brainId := brain.id
        brainName := brain.displayName
        health := brain.health
        latency := brain.latency
        availability := if (50 : ℚ) ≤ brain.health then 1 else 0
        cpuUsage := ((scheduler.getNode federation.localNodeId).map NodeInfo.cpuUsage).getD 0
        memoryUsage :=
          ((scheduler.getNode federation.localNodeId).map NodeInfo.memoryUsage).getD 0
        capabilities := brain.capabilities
        provider := brain.vendor }
  | _, _ => []

def remoteCandidates : List Candidate :=
  match scheduler.distributedRegistry with
  | some registry =>
    (registry.remote.values.filter fun brain => matching required brain.capabilities).map
      fun brain =>
        { nodeId := brain.nodeId
          brainId := brain.brainId
          brainName := brain.displayName
          health := brain.health
          latency := brain.latency
          availability := brain.availability
          cpuUsage := ((scheduler.getNode brain.nodeId).map NodeInfo.cpuUsage).getD 0
          memoryUsage := ((scheduler.getNode brain.nodeId).map NodeInfo.memoryUsage).getD 0
          capabilities := brain.capabilities
          provider := brain.provider }
  | none => []

def gatherCandidates : List Candidate :=
  scheduler.localCandidates required ++ scheduler.remoteCandidates required

def score (preferredProvider : String) (candidate : Candidate) : ClusterScore :=
  let healthScore := max 0 (min 1 (candidate.health / 100))
  let latencyScore := if 0 < candidate.latency then max 0 (1 - candidate.latency / 5000) else 1 / 2
  let availabilityScore := max 0 (min 1 candidate.availability)
  let clusterLoadScore := max 0 (1 - candidate.cpuUsage / 100)
  let memoryScore := max 0 (1 - candidate.memoryUsage / 100)
  let providerScore :=
    if preferredProvider ≠ "" ∧ candidate.provider = preferredProvider then 1 else 1 / 2
  let capabilityMatch : ℚ :=
    if required.isEmpty then 1
    else required.countP (fun capability => capability ∈ candidate.capabilities) / required.length
  let stats := scheduler.runtimeStats candidate.brainId
  let historicalSuccess :=
    ((stats.filter fun stats => 0 < stats.total).map RuntimeStats.successRate).getD (1 / 2)
  let confidenceScore := (stats.map RuntimeStats.averageTrust).getD (1 / 2)
  { nodeId := candidate.nodeId
    brainId := candidate.brainId
    brainName := candidate.brainName
    healthScore, latencyScore, availabilityScore, historicalSuccess, clusterLoadScore
    memoryScore, providerScore, confidenceScore, capabilityMatch
    totalScore := Decimal.roundTo 4
      (18 / 100 * healthScore + 12 / 100 * latencyScore + 12 / 100 * availabilityScore +
        10 / 100 * historicalSuccess + 15 / 100 * clusterLoadScore + 10 / 100 * memoryScore +
        5 / 100 * providerScore + 8 / 100 * confidenceScore + 10 / 100 * capabilityMatch) }

def scored (preferredProvider : String) : List ClusterScore :=
  (scheduler.gatherCandidates required).map (scheduler.score required preferredProvider)

def selectOptimal (preferredProvider : String) : Option ClusterScore :=
  ((scheduler.scored required preferredProvider).insertionSort ClusterScore.Before).head?

end GlobalMissionScheduler

inductive FailoverTrigger
  | runtimeOffline | highLatency | missionFailed | manual
  deriving DecidableEq

inductive FailoverActionType
  | reassignMission | replaceRuntime
  deriving DecidableEq

structure FailoverAction where
  trigger : FailoverTrigger
  actionType : FailoverActionType
  targetNodeId : String
  targetBrainId : String
  targetMissionId : String := ""
  /-- The node and the brain of the replacement, if one is recorded. -/
  replacement : Option (String × String) := none

structure FailoverEngine where
  distributed : Option DistributedBrainRegistry := none
  scheduler : Option GlobalMissionScheduler := none

namespace FailoverEngine

variable (engine : FailoverEngine)

def replacement (required : List String) : Option (String × String) :=
  engine.scheduler.bind fun scheduler =>
    (scheduler.selectOptimal required "").map fun winner => (winner.nodeId, winner.brainId)

def replaceRuntime (fails : RemoteBrainRecord → Bool) (trigger : FailoverTrigger)
    (brainId nodeId : String) : Option FailoverAction :=
  ((engine.distributed.bind fun registry => registry.getRemoteBrain brainId nodeId).filter
    fails).map fun record =>
      { trigger
        actionType := .replaceRuntime
        targetNodeId := nodeId
        targetBrainId := brainId
        replacement :=
          if record.capabilities.isEmpty then none else engine.replacement record.capabilities }

def isOffline (record : RemoteBrainRecord) : Bool :=
  record.health < 30

def isSlow (record : RemoteBrainRecord) : Bool :=
  5000 ≤ record.latency

def detectRuntimeOffline : String → String → Option FailoverAction :=
  engine.replaceRuntime isOffline .runtimeOffline

def detectHighLatency : String → String → Option FailoverAction :=
  engine.replaceRuntime isSlow .highLatency

def reassign (trigger : FailoverTrigger) (missionId brainId nodeId : String) : FailoverAction where
  trigger
  actionType := .reassignMission
  targetNodeId := nodeId
  targetBrainId := brainId
  targetMissionId := missionId
  replacement := engine.replacement []

def detectFailedMission (missionId brainId nodeId : String) : FailoverAction :=
  engine.reassign .missionFailed missionId brainId nodeId

def triggerManualFailover (brainId nodeId : String) (missionId : String := "") : FailoverAction :=
  engine.reassign .manual missionId brainId nodeId

end FailoverEngine

/-! ## Where the work goes -/

def GlobalMissionScheduler.Elsewhere (scheduler : GlobalMissionScheduler)
    (failing placement : String × String) : Prop :=
  placement ≠ failing ∧
    ∀ node, scheduler.getNode placement.1 = some node → node.status ≠ .unreachable

def FailoverEngine.Moves (engine : FailoverEngine) (action : FailoverAction) : Prop :=
  ∀ scheduler placement, engine.scheduler = some scheduler →
    action.replacement = some placement →
      scheduler.Elsewhere (action.targetNodeId, action.targetBrainId) placement

/-- Every candidate that will not do is preceded by one that will. -/
def GlobalMissionScheduler.Prefers (scheduler : GlobalMissionScheduler) (required : List String)
    (failing : String × String) : Prop :=
  ∀ bad ∈ scheduler.scored required "", ¬ scheduler.Elsewhere failing (bad.nodeId, bad.brainId) →
    ∃ good ∈ scheduler.scored required "",
      scheduler.Elsewhere failing (good.nodeId, good.brainId) ∧ ¬ bad.Before good

instance : Std.Total ClusterScore.Before :=
  inferInstanceAs (Std.Total (ByKeys _ _))

instance : IsTrans ClusterScore ClusterScore.Before :=
  inferInstanceAs (IsTrans _ (ByKeys _ _))

theorem ClusterScore.Before.same {first second : ClusterScore} (forth : first.Before second)
    (back : second.Before first) :
    (first.nodeId, first.brainId) = (second.nodeId, second.brainId) := by
  rw [Before, byKeys_iff] at forth back
  exact toLex.injective (Prod.ext_iff.mp (toLex.injective (le_antisymm forth back))).2

/-- The first of the scores is good exactly if every bad one comes behind a good one. -/
theorem GlobalMissionScheduler.prefers_iff (scheduler : GlobalMissionScheduler)
    (required : List String) (failing : String × String) :
    (∀ winner, scheduler.selectOptimal required "" = some winner →
      scheduler.Elsewhere failing (winner.nodeId, winner.brainId)) ↔
        scheduler.Prefers required failing := by
  rw [selectOptimal, Prefers]
  cases sorted : (scheduler.scored required "").insertionSort ClusterScore.Before with
  | nil =>
    have none : scheduler.scored required "" = [] := by
      rw [← length_eq_zero_iff, ← length_insertionSort ClusterScore.Before, sorted,
        length_nil]
    simp [none]
  | cons first rest =>
    have member : ∀ score, score ∈ scheduler.scored required "" ↔ score ∈ first :: rest := by
      intro score
      rw [← sorted, mem_insertionSort]
    have least : ∀ score ∈ first :: rest, first.Before score := by
      have pairwise := pairwise_insertionSort ClusterScore.Before (scheduler.scored required "")
      rw [sorted, pairwise_cons] at pairwise
      refine forall_mem_cons.mpr ⟨?_, pairwise.1⟩
      exact (Std.Total.total first first).elim id id
    simp only [member, head?_cons, Option.some.injEq, forall_eq']
    constructor
    · intro good bad isMember isBad
      refine ⟨first, mem_cons_self, good, fun back => isBad ?_⟩
      exact (least bad isMember).same back ▸ good
    · intro preferred
      by_contra isBad
      obtain ⟨good, isMember, -, behind⟩ := preferred first mem_cons_self isBad
      exact behind (least good isMember)

namespace FailoverEngine

variable {engine : FailoverEngine}

theorem moves_iff {action : FailoverAction} {required : List String}
    (recorded : action.replacement = engine.replacement required) :
    engine.Moves action ↔ ∀ scheduler, engine.scheduler = some scheduler →
      scheduler.Prefers required (action.targetNodeId, action.targetBrainId) := by
  refine forall_congr' fun scheduler => forall_comm.trans (forall_congr' fun isScheduler => ?_)
  rw [← scheduler.prefers_iff, recorded, replacement, isScheduler, bind_some]
  simp only [map_eq_some_iff, forall_exists_index, and_imp]
  exact ⟨fun moves winner selected => moves _ winner selected rfl,
    fun elsewhere placement winner selected same => same ▸ elsewhere winner selected⟩

/-- What replaces a runtime moves if and only if what has to do what it could is preferred. -/
theorem replaceRuntime_moves_iff (fails : RemoteBrainRecord → Bool) (trigger : FailoverTrigger)
    (brainId nodeId : String) :
    (∀ action ∈ engine.replaceRuntime fails trigger brainId nodeId, engine.Moves action) ↔
      ∀ registry ∈ engine.distributed, ∀ record ∈ registry.getRemoteBrain brainId nodeId,
        fails record → record.capabilities ≠ [] → ∀ scheduler ∈ engine.scheduler,
          scheduler.Prefers record.capabilities (nodeId, brainId) := by
  rw [replaceRuntime]
  cases engine.distributed with
  | none => simp
  | some registry =>
    simp only [bind_some, mem_def, Option.some.injEq, forall_eq']
    cases registry.getRemoteBrain brainId nodeId with
    | none => simp
    | some record =>
      by_cases isFailing : fails record
      · rw [filter_some, if_pos isFailing, map_some]
        simp only [Option.some.injEq, forall_eq', isFailing, forall_const]
        by_cases able : record.capabilities = []
        · simp [Moves, able]
        · rw [moves_iff (show _ = engine.replacement record.capabilities by simp [able])]
          simp [able]
      · simp [filter_some, isFailing]

/-- A recorded replacement is not what fails and not on an unreachable node if and only if such
a candidate is preferred to every one that is. -/
theorem failover_moves_iff (engine : FailoverEngine) (brainId nodeId : String) :
    ((∀ action ∈ engine.detectRuntimeOffline brainId nodeId, engine.Moves action) ↔
        ∀ registry ∈ engine.distributed, ∀ record ∈ registry.getRemoteBrain brainId nodeId,
          record.health < 30 → record.capabilities ≠ [] → ∀ scheduler ∈ engine.scheduler,
            scheduler.Prefers record.capabilities (nodeId, brainId)) ∧
      ((∀ action ∈ engine.detectHighLatency brainId nodeId, engine.Moves action) ↔
        ∀ registry ∈ engine.distributed, ∀ record ∈ registry.getRemoteBrain brainId nodeId,
          5000 ≤ record.latency → record.capabilities ≠ [] → ∀ scheduler ∈ engine.scheduler,
            scheduler.Prefers record.capabilities (nodeId, brainId)) ∧
      ∀ missionId, (engine.Moves (engine.detectFailedMission missionId brainId nodeId) ↔
          ∀ scheduler ∈ engine.scheduler, scheduler.Prefers [] (nodeId, brainId)) ∧
        (engine.Moves (engine.triggerManualFailover brainId nodeId missionId) ↔
          ∀ scheduler ∈ engine.scheduler, scheduler.Prefers [] (nodeId, brainId)) := by
  refine ⟨?_, ?_, fun missionId => ⟨moves_iff rfl, moves_iff rfl⟩⟩
  · rw [detectRuntimeOffline, replaceRuntime_moves_iff]
    simp [isOffline]
  · rw [detectHighLatency, replaceRuntime_moves_iff]
    simp [isSlow]

theorem not_moves_alone : ¬ ∀ (engine : FailoverEngine) (missionId brainId nodeId : String),
      engine.Moves (engine.detectFailedMission missionId brainId nodeId) := by
  intro moves
  have moved := moves
    { scheduler := some
        { localRegistry := some [{ id := "b1" }]
          federation := some
            { localNodeId := "n1"
              topology := ({} : ClusterTopology).addNode
                { id := "n1", status := .active, startedAt := 0, lastHeartbeat := 0 } } } }
    "m" "b1" "n1"
  exact (moved _ ("n1", "b1") rfl (by rfl)).1 rfl

end FailoverEngine

end AgenticOS.Cluster
