import AgenticOS.Persistent.Persistence

/-!
# What comes back from the files

A snapshot is written before its size is known, so that it comes back with the size it had
before; its checksum is right, and nothing compares it. Of a job only six of eighteen fields
come back, the others are what they are for a new job.
-/

namespace AgenticOS.Persistent

open JsonValue PersistenceLayer Option Dict SnapshotType SystemSnapshot

section

variable (sha256 : String → String) (snapshot : SystemSnapshot)

/-- The members of the object that `save_snapshot` writes. -/
def writtenMembers : Dict String JsonValue :=
  (snapshot.toDict.set "checksum" (string "")).set "checksum"
    (string (snapshotText sha256 snapshot).2)

theorem snapshotText_eq :
    (snapshotText sha256 snapshot).1 = (object (writtenMembers sha256 snapshot)).dumps :=
  rfl

theorem field_sections (part : Section) :
    field (.ofList (Section.all.map fun part => (part.name, snapshot.sections part))) part.name
      emptyObject = snapshot.sections part := by
  have nodup : ((Section.all.map fun part =>
      (part.name, snapshot.sections part)).map Prod.fst).Nodup := by
    exact Section.nodup_names
  have found : (Dict.ofList (Section.all.map fun part =>
      (part.name, snapshot.sections part))).get? part.name = some (snapshot.sections part) := by
    rw [get?_eq_some_iff, entries_ofList nodup]
    exact List.mem_map.mpr ⟨part, part.mem_all, rfl⟩
  unfold field
  rw [found]
  rfl

theorem readSnapshot_snapshotText (snapshotId : JsonValue) :
    readSnapshot snapshotId (snapshotText sha256 snapshot).1 =
      some { snapshot with checksum := string (snapshotText sha256 snapshot).2 } := by
  have sections : (field (writtenMembers sha256 snapshot) "sections" emptyObject).members? =
      some (.ofList (Section.all.map fun part => (part.name, snapshot.sections part))) := by
    simp [writtenMembers, field, toDict, get?_set, get?_ofList]
  have snapshotType : ofValue
      (field (writtenMembers sha256 snapshot) "type" (string "automatic")) =
        some snapshot.type := by
    have found : field (writtenMembers sha256 snapshot) "type" (string "automatic") =
        string snapshot.type.value := by
      simp [writtenMembers, field, toDict, get?_set, get?_ofList]
    rw [found, ofValue_value]
  unfold readSnapshot
  rw [snapshotText_eq, loads_dumps, bind_eq_bind, bind_some, members?_object]
  simp only [bind_eq_bind, bind_some, snapshotType, sections, field_sections]
  simp [writtenMembers, field, toDict, get?_set, get?_ofList]

theorem loadSnapshot_saveSnapshot (layer : PersistenceLayer) :
    (saveSnapshot sha256 layer snapshot).2.loadSnapshot snapshot.id =
      some { snapshot with checksum := string (snapshotText sha256 snapshot).2 } := by
  unfold saveSnapshot loadSnapshot
  rw [get?_set_self]
  dsimp only
  rw [if_neg (by rw [snapshotText_eq]; exact dumps_ne_empty _), readSnapshot_snapshotText]

def Matches (text : String) : Prop :=
  ∃ members, loads text = some (object members) ∧
    members.get? "checksum" = some (string (sha256 (unsigned members)))

/-- Nothing raises when the text is read as a snapshot: it is an object with a type of
snapshots, or none, and with an object of sections, or none. -/
def Readable (text : String) : Prop :=
  ∃ members, loads text = some (object members) ∧
    (∀ value, members.get? "type" = some value →
      ∃ snapshotType : SnapshotType, value = string snapshotType.value) ∧
    ∀ value, members.get? "sections" = some value → ∃ sections, value = object sections

theorem ofValue_isSome_iff {value : JsonValue} : (ofValue value).isSome = true ↔
      ∃ snapshotType : SnapshotType, value = string snapshotType.value := by
  unfold ofValue
  rw [List.find?_isSome]
  constructor
  · rintro ⟨snapshotType, -, same⟩
    exact ⟨snapshotType, text?_eq_some_iff.mp (of_decide_eq_true same)⟩
  · rintro ⟨snapshotType, rfl⟩
    refine ⟨snapshotType, ?_, decide_eq_true rfl⟩
    cases snapshotType
    all_goals decide

theorem members?_isSome_iff {value : JsonValue} :
    value.members?.isSome = true ↔ ∃ members, value = object members := by
  rw [isSome_iff_exists]
  exact exists_congr fun _ => members?_eq_some_iff

/-- What holds of the default holds of a field unless the field has another value. -/
theorem field_iff (property : JsonValue → Prop) {members : Dict String JsonValue} {key : String}
    {default : JsonValue} (ofDefault : property default) : property (field members key default) ↔
      ∀ value, members.get? key = some value → property value := by
  unfold field
  cases members.get? key with
  | none => simpa using ofDefault
  | some value => simp

theorem readSnapshot_isSome_iff (snapshotId : JsonValue) (text : String) :
    (readSnapshot snapshotId text).isSome = true ↔ Readable text := by
  have parts (members : Dict String JsonValue) :
      ((ofValue (field members "type" (string "automatic"))).isSome = true ∧
        (field members "sections" emptyObject).members?.isSome = true) ↔
      (∀ value, members.get? "type" = some value →
        ∃ snapshotType : SnapshotType, value = string snapshotType.value) ∧
      ∀ value, members.get? "sections" = some value → ∃ sections, value = object sections := by
    rw [ofValue_isSome_iff, members?_isSome_iff]
    exact and_congr
      (field_iff (fun value => ∃ snapshotType : SnapshotType, value = string snapshotType.value)
        ⟨.automatic, rfl⟩)
      (field_iff (fun value => ∃ sections, value = object sections) ⟨.empty, rfl⟩)
  unfold readSnapshot Readable
  cases read : loads text with
  | none => simp
  | some value =>
    cases shape : value.members? with
    | none =>
      have noObject (members : Dict String JsonValue) : value ≠ object members := by
        rintro rfl
        cases shape
      simp [shape, noObject]
    | some members =>
      obtain rfl := members?_eq_some_iff.mp shape
      have objects (other : Dict String JsonValue) :
          some (object members) = some (object other) ↔ members = other := by
        constructor
        · intro same
          have both := congrArg members? (Option.some.inj same)
          rw [members?_object, members?_object] at both
          exact Option.some.inj both
        · rintro rfl
          rfl
      simp only [objects, exists_eq_left', bind_eq_bind, bind_some,
        members?_object, ← parts]
      cases ofValue (field members "type" (string "automatic")) with
      | none => simp
      | some snapshotType => cases (field members "sections" emptyObject).members? <;> simp

/-- A text that was put in the place of a snapshot is refused only if it cannot be read. -/
theorem loadSnapshot_eq_none_iff (layer : PersistenceLayer) (snapshotId : JsonValue)
    {text : String} (stored : layer.snapshots.get? (fileName snapshotId) = some text) :
    layer.loadSnapshot snapshotId = none ↔ ¬ Readable text := by
  unfold loadSnapshot
  rw [stored]
  dsimp only
  split
  next empty =>
    refine iff_of_true rfl ?_
    rintro ⟨members, read, -⟩
    rw [empty] at read
    cases read
  next =>
    rw [← readSnapshot_isSome_iff snapshotId text, Bool.not_eq_true, isSome_eq_false_iff,
      isNone_iff_eq_none]

/-- A snapshot comes back as it is exactly if its size was right before it was saved, and a
file that does not match its checksum is refused exactly if it cannot be read anyway. -/
theorem snapshot_integrity_iff (layer : PersistenceLayer) (snapshotId : JsonValue)
    (text : String) :
    ((saveSnapshot sha256 layer snapshot).2.loadSnapshot snapshot.id =
        some (saveSnapshot sha256 layer snapshot).1 ↔
      snapshot.sizeBytes = number (.ofNat (snapshotText sha256 snapshot).1.utf8ByteSize)) ∧
    ((¬ Matches sha256 text →
        PersistenceLayer.loadSnapshot
          { layer with snapshots := layer.snapshots.set (fileName snapshotId) text }
          snapshotId = none) ↔
      Matches sha256 text ∨ ¬ Readable text) := by
  constructor
  · rw [loadSnapshot_saveSnapshot]
    unfold saveSnapshot
    simp only [Option.some.injEq]
    constructor
    · intro same
      exact congrArg sizeBytes same
    · intro same
      rw [← same]
  · rw [loadSnapshot_eq_none_iff _ snapshotId (get?_set_self _ _ _)]
    exact or_iff_not_imp_left.symm

end

/-- A snapshot that was never saved. -/
def plainSnapshot : SystemSnapshot where
  id := string "snap-1"
  createdAt := string "2026-01-01T00:00:00+00:00"

/-- A new snapshot comes back with the size zero, and a file with a wrong checksum is
loaded. -/
theorem plainSnapshot_not_restored :
    (¬ ∀ sha256 : String → String, Function.Injective sha256 →
      (saveSnapshot sha256 {} plainSnapshot).2.loadSnapshot plainSnapshot.id =
        some (saveSnapshot sha256 {} plainSnapshot).1) ∧
    ¬ ∀ sha256 : String → String, Function.Injective sha256 → ∀ text : String,
      ¬ Matches sha256 text →
        PersistenceLayer.loadSnapshot
          { snapshots := .ofList [(fileName plainSnapshot.id, text)] } plainSnapshot.id =
            none := by
  constructor
  · intro restored
    have size := restored id Function.injective_id
    rw [loadSnapshot_saveSnapshot] at size
    have empty : Json.Numeral.ofNat 0 =
        .ofNat (snapshotText id plainSnapshot).1.utf8ByteSize := by
      have same := congrArg sizeBytes (Option.some.inj size)
      injection (congrArg JsonValue.json same)
    have noText := String.utf8ByteSize_eq_zero_iff.mp (Json.Numeral.ofNat_injective empty).symm
    exact dumps_ne_empty _ noText
  · intro refused
    have wrong : ¬ Matches id (object (.ofList [("checksum", string "0")])).dumps := by
      rintro ⟨members, read, stated⟩
      rw [loads_dumps] at read
      have same := congrArg members? (Option.some.inj read)
      rw [members?_object, members?_object] at same
      rw [← Option.some.inj same] at stated
      revert stated
      decide +kernel
    have readable : Readable (object (.ofList [("checksum", string "0")])).dumps :=
      ⟨_, loads_dumps _, by simp [get?_ofList], by simp [get?_ofList]⟩
    have loaded := refused id Function.injective_id _ wrong
    exact (loadSnapshot_eq_none_iff _ _ (by simp [get?_ofList])).mp loaded readable

/-! ## Jobs -/

section

/-- The job that a saved job comes back as. -/
def Job.restored (job : Job) (times : JsonValue × JsonValue) : Job where
  id := job.id
  name := job.name
  schedule := job.schedule
  priority := job.priority
  handler := job.handler
  args := job.args
  createdAt := times.1
  updatedAt := times.2

theorem readJob_toDict (job : Job) (times : JsonValue × JsonValue) :
    readJob times (object job.toDict).dumps = some (job.restored times) := by
  unfold readJob
  rw [loads_dumps, bind_eq_bind, bind_some, members?_object]
  simp [field, Job.toDict, Job.restored, get?_ofList]

theorem status_of_readJob {times : JsonValue × JsonValue} {text : String} {job : Job}
    (read : readJob times text = some job) : job.status = .pending := by
  unfold readJob at read
  cases loaded : loads text with
  | none =>
    rw [loaded] at read
    cases read
  | some value =>
    rw [loaded] at read
    cases shape : value.members? with
    | none => simp [shape] at read
    | some members =>
      simp only [bind_eq_bind, bind_some, shape, Option.some.injEq] at read
      rw [← read]

/-- A job that is as it was made in all that is not loaded, its times apart. -/
structure Job.Unremarkable (job : Job) : Prop where
  type : job.type = .interval
  status : job.status = .pending
  dependencies : job.dependencies = array []
  timeoutS : job.timeoutS = number defaultTimeout
  maxRetries : job.maxRetries = number (.ofNat 3)
  retries : job.retries = number (.ofNat 0)
  lastRun : job.lastRun = string ""
  nextRun : job.nextRun = string ""
  lastResult : job.lastResult = emptyObject
  lastError : job.lastError = string ""

theorem restored_eq_iff (job : Job) (times : JsonValue × JsonValue) :
    job.restored times = job ↔ job.Unremarkable ∧ (job.createdAt, job.updatedAt) = times := by
  constructor
  · intro same
    have fields := Job.ext_iff.mp same
    obtain ⟨-, -, type, -, -, status, -, -, dependencies, timeoutS, maxRetries, retries, lastRun,
      nextRun, lastResult, lastError, createdAt, updatedAt⟩ := fields
    exact ⟨⟨type.symm, status.symm, dependencies.symm, timeoutS.symm, maxRetries.symm,
      retries.symm, lastRun.symm, nextRun.symm, lastResult.symm, lastError.symm⟩,
      Prod.ext createdAt.symm updatedAt.symm⟩
  · rintro ⟨plain, rfl⟩
    apply Job.ext
    case type => exact plain.type.symm
    case status => exact plain.status.symm
    case dependencies => exact plain.dependencies.symm
    case timeoutS => exact plain.timeoutS.symm
    case maxRetries => exact plain.maxRetries.symm
    case retries => exact plain.retries.symm
    case lastRun => exact plain.lastRun.symm
    case nextRun => exact plain.nextRun.symm
    case lastResult => exact plain.lastResult.symm
    case lastError => exact plain.lastError.symm
    all_goals rfl

/-- All files of the directory were written by `save_job`. -/
def PersistenceLayer.Saved (layer : PersistenceLayer) : Prop :=
  ∀ name text, layer.jobs.get? name = some text →
    ∃ job : Job, fileName job.id = name ∧ text = (object job.toDict).dumps

theorem jobs_saveJob (layer : PersistenceLayer) (job : Job) (name : String) :
    (layer.saveJob job).jobs.get? name =
      if name = fileName job.id then some (object job.toDict).dumps
      else layer.jobs.get? name :=
  get?_set _ _ _ _

variable {layer : PersistenceLayer}

theorem PersistenceLayer.Saved.saveJob (saved : layer.Saved) (job : Job) :
    (layer.saveJob job).Saved := by
  intro name text found
  rw [jobs_saveJob] at found
  by_cases here : name = fileName job.id
  · rw [if_pos here] at found
    exact ⟨job, here.symm, (Option.some.inj found).symm⟩
  · rw [if_neg here] at found
    exact saved name text found

theorem mem_loadJobs_iff {order : SetOrder String} {clock : String → JsonValue × JsonValue}
    {job : Job} :
    job ∈ layer.loadJobs order clock ↔ ∃ name, layer.loadJob clock name = some job := by
  unfold loadJobs
  rw [List.mem_filterMap]
  constructor
  · rintro ⟨name, -, found⟩
    exact ⟨name, found⟩
  · rintro ⟨name, found⟩
    refine ⟨name, (order.mem _ _).mpr ?_, found⟩
    rw [List.mem_toFinset, mem_keys_iff]
    unfold loadJob at found
    cases stored : layer.jobs.get? name with
    | none =>
      rw [stored] at found
      cases found
    | some text => exact ⟨text, rfl⟩

theorem loadJob_of_saved {name : String} {job : Job} (clock : String → JsonValue × JsonValue)
    (stored : layer.jobs.get? name = some (object job.toDict).dumps) :
    layer.loadJob clock name = some (job.restored (clock name)) := by
  unfold loadJob
  rw [stored]
  dsimp only
  rw [if_neg (dumps_ne_empty _), readJob_toDict]

/-- A job is among those that are loaded exactly if it does not differ from a new one in
what is not loaded. -/
theorem mem_loadJobs_saveJob_iff (saved : layer.Saved) (job : Job) (order : SetOrder String)
    (clock : String → JsonValue × JsonValue) : job ∈ (layer.saveJob job).loadJobs order clock ↔
      job.Unremarkable ∧ (job.createdAt, job.updatedAt) = clock (fileName job.id) := by
  have own : (layer.saveJob job).loadJob clock (fileName job.id) =
      some (job.restored (clock (fileName job.id))) :=
    loadJob_of_saved clock (get?_set_self _ _ _)
  rw [mem_loadJobs_iff, ← restored_eq_iff]
  constructor
  · rintro ⟨name, found⟩
    have here : name = fileName job.id := by
      cases stored : (layer.saveJob job).jobs.get? name with
      | none =>
        unfold loadJob at found
        rw [stored] at found
        cases found
      | some text =>
        obtain ⟨other, named, rfl⟩ := saved.saveJob job name text stored
        rw [loadJob_of_saved clock stored] at found
        cases found
        exact named.symm
    rw [here, own] at found
    exact Option.some.inj found
  · intro same
    exact ⟨_, own.trans (congrArg some same)⟩

end

end AgenticOS.Persistent
