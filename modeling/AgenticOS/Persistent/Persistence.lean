import AgenticOS.Data.Json
import AgenticOS.Data.SetOrder

/-!
# The persistence layer

Snapshots and jobs are kept as JSON texts, one file each, named after their ids. A file is
replaced as a whole, so that a directory is a dictionary of texts here; it is assumed to
hold what was written to it.

The fields of a record hold JSON values, as nothing checks their types when a file is loaded;
the types of jobs and of snapshots and the status of a job are enumerations.
-/

namespace AgenticOS.Persistent

open JsonValue

/-- `d.get(key, default)`. -/
def field (members : Dict String JsonValue) (key : String) (default : JsonValue) : JsonValue :=
  (members.get? key).getD default

def emptyObject : JsonValue :=
  object .empty

/-- `f"{id}.json"`. Ids are strings; of other values their JSON text is taken. -/
def fileName (id : JsonValue) : String :=
  id.text?.getD id.dumps ++ ".json"

inductive SnapshotType
  | full | incremental | manual | automatic | preShutdown | preUpdate
  deriving DecidableEq

namespace SnapshotType

def value : SnapshotType → String
  | full => "full"
  | incremental => "incremental"
  | manual => "manual"
  | automatic => "automatic"
  | preShutdown => "pre_shutdown"
  | preUpdate => "pre_update"

def all : List SnapshotType :=
  [full, incremental, manual, automatic, preShutdown, preUpdate]

/-- `SnapshotType(value)`, which raises for anything but the value of a member. -/
def ofValue (value : JsonValue) : Option SnapshotType :=
  all.find? fun snapshotType => value.text? = some snapshotType.value

theorem ofValue_value (snapshotType : SnapshotType) :
    ofValue (string snapshotType.value) = some snapshotType := by
  cases snapshotType
  all_goals decide

end SnapshotType

/-- The state sections of a snapshot. -/
inductive Section
  | brainRegistry | executive | cognitive | swarm | ecosystem | cluster | distributed
  | evolution | missions | providers | security | settings
  deriving DecidableEq

namespace Section

def name : Section → String
  | brainRegistry => "brain_registry"
  | executive => "executive"
  | cognitive => "cognitive"
  | swarm => "swarm"
  | ecosystem => "ecosystem"
  | cluster => "cluster"
  | distributed => "distributed"
  | evolution => "evolution"
  | missions => "missions"
  | providers => "providers"
  | security => "security"
  | settings => "settings"

def all : List Section :=
  [brainRegistry, executive, cognitive, swarm, ecosystem, cluster, distributed, evolution,
    missions, providers, security, settings]

theorem nodup_names : (all.map name).Nodup := by
  decide

theorem mem_all (part : Section) : part ∈ all := by
  cases part
  all_goals decide

end Section

/-- A snapshot of the entire platform state. -/
structure SystemSnapshot where
  id : JsonValue
  type : SnapshotType := .automatic
  version : JsonValue := string "1.0.0-rc9"
  createdAt : JsonValue
  sizeBytes : JsonValue := number (.ofNat 0)
  compressed : JsonValue := bool true
  checksum : JsonValue := string ""
  sections : Section → JsonValue := fun _ => emptyObject
  metadata : JsonValue := emptyObject

def SystemSnapshot.toDict (snapshot : SystemSnapshot) : Dict String JsonValue :=
  .ofList [
    ("id", snapshot.id),
    ("type", string snapshot.type.value),
    ("version", snapshot.version),
    ("created_at", snapshot.createdAt),
    ("size_bytes", snapshot.sizeBytes),
    ("compressed", snapshot.compressed),
    ("checksum", snapshot.checksum),
    ("sections", object (.ofList (Section.all.map fun part =>
      (part.name, snapshot.sections part)))),
    ("metadata", snapshot.metadata)]

inductive JobType
  | cron | interval | oneShot
  deriving DecidableEq

def JobType.value : JobType → String
  | cron => "cron"
  | interval => "interval"
  | oneShot => "one_shot"

inductive JobStatus
  | pending | scheduled | running | completed | failed | cancelled | paused
  deriving DecidableEq

def JobStatus.value : JobStatus → String
  | pending => "pending"
  | scheduled => "scheduled"
  | running => "running"
  | completed => "completed"
  | failed => "failed"
  | cancelled => "cancelled"
  | paused => "paused"

/-- `300.0`. -/
def defaultTimeout : Json.Numeral where
  text := ['3', '0', '0', '.', '0']
  within := by decide
  valid := by decide

@[ext]
structure Job where
  id : JsonValue
  name : JsonValue := string ""
  type : JobType := .interval
  schedule : JsonValue := string ""
  priority : JsonValue := number (.ofNat 5)
  status : JobStatus := .pending
  handler : JsonValue := string ""
  args : JsonValue := emptyObject
  dependencies : JsonValue := array []
  timeoutS : JsonValue := number defaultTimeout
  maxRetries : JsonValue := number (.ofNat 3)
  retries : JsonValue := number (.ofNat 0)
  lastRun : JsonValue := string ""
  nextRun : JsonValue := string ""
  lastResult : JsonValue := emptyObject
  lastError : JsonValue := string ""
  createdAt : JsonValue
  updatedAt : JsonValue

/-- `Job.to_dict`; `dict` and `list` copy there what a field is declared to be. -/
def Job.toDict (job : Job) : Dict String JsonValue :=
  .ofList [
    ("id", job.id),
    ("name", job.name),
    ("type", string job.type.value),
    ("schedule", job.schedule),
    ("priority", job.priority),
    ("status", string job.status.value),
    ("handler", job.handler),
    ("args", job.args),
    ("dependencies", job.dependencies),
    ("timeout_s", job.timeoutS),
    ("max_retries", job.maxRetries),
    ("retries", job.retries),
    ("last_run", job.lastRun),
    ("next_run", job.nextRun),
    ("last_result", job.lastResult),
    ("last_error", job.lastError),
    ("created_at", job.createdAt),
    ("updated_at", job.updatedAt)]

structure PersistenceLayer where
  snapshots : Dict String String := .empty
  jobs : Dict String String := .empty

namespace PersistenceLayer

/-- What `save_snapshot` computes the checksum of. -/
def unsigned (members : Dict String JsonValue) : String :=
  (object (members.set "checksum" (string ""))).dumps

/-- The text that `save_snapshot` writes, and its checksum. The size in it is the one that
the snapshot had before. -/
def snapshotText (sha256 : String → String) (snapshot : SystemSnapshot) : String × String :=
  let members := snapshot.toDict.set "checksum" (string "")
  let checksum := sha256 (object members).dumps
  ((object (members.set "checksum" (string checksum))).dumps, checksum)

def saveSnapshot (sha256 : String → String) (layer : PersistenceLayer)
    (snapshot : SystemSnapshot) : SystemSnapshot × PersistenceLayer :=
  let (text, checksum) := snapshotText sha256 snapshot
  ({ snapshot with
      checksum := string checksum
      sizeBytes := number (.ofNat text.utf8ByteSize) },
    { layer with snapshots := layer.snapshots.set (fileName snapshot.id) text })

def readSnapshot (snapshotId : JsonValue) (text : String) : Option SystemSnapshot := do
  let value ← loads text
  let members ← value.members?
  let snapshotType ← SnapshotType.ofValue (field members "type" (string "automatic"))
  let sections ← (field members "sections" emptyObject).members?
  some {
    id := field members "id" snapshotId
    type := snapshotType
    version := field members "version" (string "")
    createdAt := field members "created_at" (string "")
    sizeBytes := field members "size_bytes" (number (.ofNat 0))
    compressed := field members "compressed" (bool true)
    checksum := field members "checksum" (string "")
    sections := fun part => field sections part.name emptyObject
    metadata := field members "metadata" emptyObject }

def loadSnapshot (layer : PersistenceLayer) (snapshotId : JsonValue) : Option SystemSnapshot :=
  match layer.snapshots.get? (fileName snapshotId) with
  | none => none
  | some text => if text = "" then none else readSnapshot snapshotId text

def saveJob (layer : PersistenceLayer) (job : Job) : PersistenceLayer :=
  { layer with jobs := layer.jobs.set (fileName job.id) (object job.toDict).dumps }

/-- The job that a text is read as, unless something raises. The clock is read for the two
times of the job. -/
def readJob (times : JsonValue × JsonValue) (text : String) : Option Job := do
  let value ← loads text
  let members ← value.members?
  some {
    id := field members "id" (string "")
    name := field members "name" (string "")
    schedule := field members "schedule" (string "")
    priority := field members "priority" (number (.ofNat 5))
    handler := field members "handler" (string "")
    args := field members "args" emptyObject
    createdAt := times.1
    updatedAt := times.2 }

/-- A file of the directory of the jobs. -/
def loadJob (layer : PersistenceLayer) (clock : String → JsonValue × JsonValue)
    (name : String) : Option Job :=
  match layer.jobs.get? name with
  | none => none
  | some text => if text = "" then none else readJob (clock name) text

/-- `load_jobs`, in the order in which the directory lists its files; the clock is read for
each of them. -/
def loadJobs (layer : PersistenceLayer) (order : SetOrder String)
    (clock : String → JsonValue × JsonValue) : List Job :=
  (order.list layer.jobs.keys.toFinset).filterMap (layer.loadJob clock)

end PersistenceLayer

end AgenticOS.Persistent
